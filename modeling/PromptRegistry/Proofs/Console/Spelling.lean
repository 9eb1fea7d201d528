import PromptRegistry.Proofs.Console.Options

/-! # Spellings of a command line -/

namespace PromptRegistry

namespace Command

def subcommand : Command → Console.Subcommand
  | get .. => .get
  | warm .. => .warm
  | create .. => .create

def positionals : Command → List String
  | get name .. => [name]
  | warm names => names
  | create path => [path]

def bindings : Command → List (String × String)
  | get _ bindings _ => bindings
  | _ => []

def chat : Command → Bool
  | get _ _ chat => chat
  | _ => false

/-- A command that can be written. A key is free of equals signs, since its value is read from
behind the first one. -/
def IsProper : Command → Prop
  | get _ bindings _ => ∀ binding ∈ bindings, binding.1 ≠ "" ∧ '=' ∉ binding.1.toList
  | warm names => names ≠ []
  | create path => path ≠ ""

theorem IsProper.key {command : Command} (h : command.IsProper) {binding : String × String}
    (hmem : binding ∈ command.bindings) :
    command.subcommand = .get ∧ binding.1 ≠ "" ∧ '=' ∉ binding.1.toList := by
  cases command with
  | get name bindings chat => exact ⟨rfl, h binding hmem⟩
  | warm names => simp [bindings] at hmem
  | create path => simp [bindings] at hmem

theorem subcommand_of_chat {command : Command} (h : command.chat = true) :
    command.subcommand = .get := by
  cases command <;> simp_all [chat, subcommand]

theorem IsProper.exists_positionals {command : Command} (h : command.IsProper) :
    ∃ first more, command.positionals = first :: more ∧
      (more ≠ [] → command.subcommand = .warm) ∧
      (command.subcommand = .create → "" ∉ command.positionals) := by
  cases command with
  | get name bindings chat => exact ⟨name, [], rfl, by simp, by simp [subcommand]⟩
  | warm names =>
      obtain ⟨name, names, rfl⟩ := List.exists_cons_of_ne_nil h
      exact ⟨name, names, rfl, fun _ => rfl, by simp [subcommand]⟩
  | create path => exact ⟨path, [], rfl, by simp, fun _ => by simpa [positionals] using Ne.symm h⟩

end Command

namespace Console

section

variable {scan : Scan} {options : List Written} {command : Command}

theorem Collects.positional {subcommand : Subcommand} (h : Collects (some subcommand) scan options)
    (text : String) :
    Leads subcommand { scan with trailing := true } [text]
      { collected options with pending := .values [text], trailing := true } := by
  have hresolve : Scan.resolve (some subcommand) { scan with trailing := true } =
      .ok { collected options with trailing := true } := by
    rw [resolve_trailing, h.resolves]
    rfl
  apply Leads.single
  rw [Scan.argument, if_pos rfl]
  refine positional_first ?_ ?_ hresolve
  · exact h.values
  · exact h.pending

theorem resolve_values {level : Level} {list : List String} (h : level = some .create → "" ∉ list) :
    Scan.resolve level { collected options with pending := .values list, trailing := true } =
      .ok { collected options with values := list, trailing := true } := by
  simp only [Scan.resolve, Scan.addValues]
  rw [if_neg (by simpa using h)]
  rfl

theorem Collects.finish (h : Collects (some command.subcommand) scan options)
    (hcommand : command.IsProper) :
    scanSubcommand command.subcommand scan ("--" :: command.positionals) =
      .ok { collected options with values := command.positionals, trailing := true } := by
  obtain ⟨first, more, hpositionals, hmore, hpath⟩ := hcommand.exists_positionals
  have hdashes : Leads command.subcommand scan ["--"] { scan with trailing := true } :=
    leads_dashes h.trailing
  have hvalues : Leads command.subcommand
      { collected options with pending := .values [first], trailing := true } more
      { collected options with pending := .values (first :: more), trailing := true } := by
    by_cases hnil : more = []
    · rw [hnil]
      exact Leads.nil
    · rw [hmore hnil]
      exact leads_values { collected options with trailing := true } rfl [first] more
  have hall := ((hdashes.append (h.positional first)).append hvalues) []
  rw [List.append_nil] at hall
  rw [hpositionals] at hpath ⊢
  exact hall.trans (resolve_values (by simpa using hpath))

theorem commandOf_collected (hcommand : command.IsProper)
    (hbindings : options.filterMap Written.asBinding? = command.bindings)
    (hchat : options.contains .chat = command.chat) :
    commandOf command.subcommand
      { collected options with values := command.positionals, trailing := true } = .ok command := by
  cases command with
  | get name bindings chat =>
      simp_all [commandOf, Command.subcommand, Command.positionals, collected, Command.bindings,
        Command.chat]
  | warm names =>
      obtain ⟨name, names, rfl⟩ := List.exists_cons_of_ne_nil hcommand
      rfl
  | create path => rfl

/-- Scanning the options and what comes behind them gives back the command. -/
theorem commandOf_scan (hcommand : command.IsProper)
    (hfits : ∀ option ∈ options, option.Fits command.subcommand)
    (hbindings : options.filterMap Written.asBinding? = command.bindings)
    (hchat : options.count .chat = command.chat.toNat)
    (hlogDir : (options.filterMap Written.asLogDir?).length ≤ 1) :
    ∃ inner, scanSubcommand command.subcommand .start
        (options.flatMap Written.arguments ++ "--" :: command.positionals) = .ok inner ∧
      commandOf command.subcommand inner = .ok command ∧
      inner.logDir = (options.filterMap Written.asLogDir?).head? := by
  have hstart : Collects (some command.subcommand) (collected []) [] := collects_collected
  have hcontains : options.contains .chat = command.chat := by
    cases hset : command.chat with
    | false => simpa [hset, List.count_eq_zero] using hchat
    | true =>
        have hpos : 0 < options.count .chat := by simp [hchat, hset]
        simpa using List.count_pos_iff.mp hpos
  have honce : options.count .chat ≤ 1 := by
    rw [hchat]
    exact Bool.toNat_le _
  obtain ⟨next, hleads, hcollects⟩ := hstart.run hfits honce hlogDir
  refine ⟨_, ?_, commandOf_collected hcommand hbindings hcontains, rfl⟩
  exact (hleads _).trans (hcollects.finish hcommand)

end

def CommandLine.IsProper (line : CommandLine) : Prop :=
  line.command.IsProper ∧ line.logDir ≠ some ""

/-- How the options of a command line are written. The directory may come before the subcommand. -/
structure Writing where
  front : Option String
  options : List Written

namespace Writing

/-- The arguments as which a command is written. Two dashes end the options. -/
def arguments (writing : Writing) (command : Command) : List String :=
  writing.front.toList.map ("--log-dir=" ++ ·) ++ command.subcommand.name ::
    (writing.options.flatMap Written.arguments ++ "--" :: command.positionals)

/-- All that a command line says is written, and once. The variables are in their order, and the
other options anywhere between them. -/
structure Says (writing : Writing) (line : CommandLine) : Prop where
  bindings : writing.options.filterMap Written.asBinding? = line.command.bindings
  chat : writing.options.count .chat = line.command.chat.toNat
  logDir : writing.front.toList ++ writing.options.filterMap Written.asLogDir? = line.logDir.toList
  apart : ∀ spelling key value, .binding spelling key value ∈ writing.options →
    spelling.IsApart → key.toList.head? ≠ some '-'

end Writing

/-- The variables in their order, then the flag for chat, then the directory. -/
def CommandLine.writing (line : CommandLine) : Writing where
  front := none
  options := line.command.bindings.map (fun binding => .binding .long binding.1 binding.2) ++
    (if line.command.chat then [.chat] else []) ++ line.logDir.toList.map .logDir

theorem CommandLine.writing_says (line : CommandLine) : line.writing.Says line := by
  constructor
  case bindings =>
    simp only [writing, List.filterMap_append]
    cases line.command.chat <;> cases line.logDir <;> simp [Written.asBinding?, Function.comp_def]
  case chat =>
    simp only [writing, List.count_append]
    cases line.command.chat <;> cases line.logDir <;> simp [List.count_eq_zero]
  case logDir =>
    simp only [writing, List.filterMap_append]
    cases line.command.chat <;> cases line.logDir <;>
      simp [Written.asLogDir?, Function.comp_def, List.filterMap_cons]
  case apart =>
    intro spelling key value hmem hapart
    obtain ⟨_, _, _, rfl, -⟩ : ∃ k v, (k, v) ∈ line.command.bindings ∧ .long = spelling ∧
        k = key ∧ v = value := by simpa [writing] using hmem
    rcases hapart with hlong | hlong <;> cases hlong

section

variable {line : CommandLine} {writing : Writing}

theorem Writing.Says.fits (h : writing.Says line) (hline : line.IsProper) :
    ∀ option ∈ writing.options, option.Fits line.command.subcommand := by
  intro option hmem
  cases option with
  | binding spelling key value =>
      have hbinding : (key, value) ∈ line.command.bindings := by
        rw [← h.bindings]
        exact List.mem_filterMap.mpr ⟨_, hmem, rfl⟩
      obtain ⟨hget, hkey, hfree⟩ := hline.1.key hbinding
      exact ⟨hget, hkey, hfree, h.apart spelling key value hmem⟩
  | chat =>
      apply Command.subcommand_of_chat
      have hcount := h.chat
      have hpos := List.count_pos_iff.mpr hmem
      cases hset : line.command.chat with
      | true => rfl
      | false =>
          rw [hset] at hcount
          exact absurd hcount hpos.ne'
  | logDir path =>
      rintro rfl
      have hlogDir : "" ∈ line.logDir.toList := by
        rw [← h.logDir]
        exact List.mem_append_right _ (List.mem_filterMap.mpr ⟨_, hmem, rfl⟩)
      exact hline.2 (by simpa using hlogDir)

theorem parse_arguments (h : writing.Says line) (hline : line.IsProper) :
    CommandLine.parse (writing.arguments line.command) = .ok line := by
  have hlogDir := h.logDir
  have honce : (writing.options.filterMap Written.asLogDir?).length ≤ 1 := by
    have hlength := congrArg List.length hlogDir
    rw [List.length_append] at hlength
    have hshort := Option.length_toList_le (o := line.logDir)
    omega
  obtain ⟨inner, hinner, hcommand, hinnerDir⟩ :=
    commandOf_scan hline.1 (h.fits hline) h.bindings h.chat honce
  unfold CommandLine.parse Writing.arguments
  cases hfront : writing.front with
  | none =>
      rw [hfront] at hlogDir
      have hdir : inner.logDir.or none = line.logDir := by
        rw [Option.or_none, hinnerDir]
        simpa using congrArg List.head? hlogDir
      exact (scanTop_subcommand rfl rfl hinner hcommand).trans (by rw [Scan.start, hdir])
  | some path =>
      -- It is given once, so none of the options gives it again.
      rw [hfront] at hlogDir
      obtain ⟨hdir, hnone⟩ : line.logDir = some path ∧
          writing.options.filterMap Written.asLogDir? = [] := by
        cases hset : line.logDir <;> simp_all
      have hpath : path ≠ "" := by
        rintro rfl
        exact hline.2 hdir
      have hor : inner.logDir.or (some path) = line.logDir := by
        rw [hinnerDir, hnone, hdir]
        rfl
      exact (scanTop_logDir hpath).trans
        ((scanTop_subcommand rfl rfl hinner hcommand).trans (by rw [hor]))

end

/-- A command line is read from the arguments it is written as, and it makes no difference which
spelling each variable has, in which order the options stand as long as the variables keep theirs,
and whether the directory comes before the subcommand. A binding is a text with an equals sign that
it does not begin with, and the key ends at the first one. -/
theorem spellings_are_parsed_alike :
    (∀ line : CommandLine, line.IsProper →
      CommandLine.parse (line.writing.arguments line.command) = .ok line ∧
        ∀ writing : Writing, writing.Says line →
          CommandLine.parse (writing.arguments line.command) = .ok line) ∧
      ∀ text : String,
        ((binding? text).isSome ↔ '=' ∈ text.toList ∧ text.toList.head? ≠ some '=') ∧
          ∀ key value : String, binding? text = some (key, value) ↔
            text = key ++ "=" ++ value ∧ key ≠ "" ∧ '=' ∉ key.toList := by
  constructor
  · intro line hline
    exact ⟨parse_arguments line.writing_says hline, fun writing h => parse_arguments h hline⟩
  · intro text
    exact ⟨binding?_isSome_iff, fun key value => binding?_eq_some_iff⟩

/-- A value that begins with an equals sign, and a key and a value that begin with a dash. -/
theorem mixed_spellings_are_parsed :
    let line : CommandLine := ⟨.get "a" [("k", "=v"), ("-x", "-1")] true, some "logs"⟩
    let writing : Writing := ⟨some "logs",
      [.binding .shortApart "k" "=v", .chat, .binding .shortEquals "-x" "-1"]⟩
    line.IsProper ∧ writing.Says line ∧
      CommandLine.parse
        ["get", "--var=k==v", "--var=-x=-1", "--chat", "--log-dir=logs", "--", "a"] = .ok line ∧
      CommandLine.parse
        ["--log-dir=logs", "get", "-v", "k==v", "--chat", "-v=-x=-1", "--", "a"] = .ok line := by
  intro line writing
  have hproper : line.IsProper := ⟨by simp [line, Command.IsProper], by simp [line]⟩
  have hsays : writing.Says line := by
    constructor
    case apart =>
      simp only [writing, Spelling.IsApart, List.mem_cons, List.not_mem_nil, or_false,
        Written.binding.injEq, reduceCtorEq, false_or]
      rintro spelling key value (⟨rfl, rfl, -⟩ | ⟨rfl, rfl, -⟩) hapart
      · decide
      · simp at hapart
    all_goals rfl
  have hparsed := spellings_are_parsed_alike.1 line hproper
  exact ⟨hproper, hsays, hparsed.1, hparsed.2 writing hsays⟩

end Console

end PromptRegistry

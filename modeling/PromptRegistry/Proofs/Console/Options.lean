import PromptRegistry.Proofs.Console.Scan

namespace PromptRegistry.Console

/-- Ways to write a binding: behind two dashes or one, in the same argument or the next. -/
inductive Spelling where
  | long
  | short
  | shortEquals
  | longApart
  | shortApart
  deriving DecidableEq, Repr

namespace Spelling

def arguments (text : String) : Spelling → List String
  | long => ["--var=" ++ text]
  | short => ["-v" ++ text]
  | shortEquals => ["-v=" ++ text]
  | longApart => ["--var", text]
  | shortApart => ["-v", text]

def IsApart (spelling : Spelling) : Prop := spelling = longApart ∨ spelling = shortApart

end Spelling

inductive Written where
  | binding (spelling : Spelling) (key value : String)
  | chat
  | logDir (path : String)
  deriving DecidableEq, Repr

namespace Written

def arguments : Written → List String
  | binding spelling key value => spelling.arguments (key ++ "=" ++ value)
  | chat => ["--chat"]
  | logDir path => ["--log-dir=" ++ path]

def asBinding? : Written → Option (String × String)
  | binding _ key value => some (key, value)
  | _ => none

def asLogDir? : Written → Option String
  | logDir path => some path
  | _ => none

/-- An option that is read behind a subcommand. An argument that begins with a dash is taken for an
option, never for a value. -/
def Fits (subcommand : Subcommand) : Written → Prop
  | binding spelling key _ => subcommand = .get ∧ key ≠ "" ∧ '=' ∉ key.toList ∧
      (spelling.IsApart → key.toList.head? ≠ some '-')
  | chat => subcommand = .get
  | logDir path => path ≠ ""

end Written

def collected (options : List Written) : Scan :=
  ⟨(options.filterMap Written.asLogDir?).head?, options.filterMap Written.asBinding?,
    options.contains .chat, [], .nothing, false⟩

/-- A scan that has read options, one of which may still be pending. -/
structure Collects (level : Level) (scan : Scan) (options : List Written) : Prop where
  trailing : scan.trailing = false
  values : scan.values = []
  pending : ∀ list, scan.pending ≠ .values list
  resolves : scan.resolve level = .ok (collected options)

section

variable {level : Level} {scan : Scan} {options : List Written}

theorem collects_collected : Collects level (collected options) options :=
  ⟨rfl, rfl, by simp [collected], resolve_of_nothing rfl⟩

theorem collected_binding (spelling : Spelling) (key value : String) :
    collected (options ++ [.binding spelling key value]) =
      { collected options with bindings := (collected options).bindings ++ [(key, value)] } := by
  simp [collected, Written.asBinding?, Written.asLogDir?]

theorem collected_chat :
    collected (options ++ [.chat]) = { collected options with chat := true } := by
  simp [collected, Written.asBinding?, Written.asLogDir?]

theorem collected_logDir (h : options.filterMap Written.asLogDir? = []) (path : String) :
    collected (options ++ [.logDir path]) = { collected options with logDir := some path } := by
  simp [collected, Written.asBinding?, Written.asLogDir?, h]

theorem collects_pending {text key value : String} (h : binding? text = some (key, value))
    (spelling : Spelling) :
    Collects level { collected options with pending := .binding (some text) }
      (options ++ [.binding spelling key value]) := by
  refine ⟨rfl, rfl, by simp, ?_⟩
  rw [collected_binding]
  simp [Scan.resolve, Scan.addBinding, h, collected]

end

section

variable {scan : Scan} {spelling : Spelling}

theorem argument_attached {text : String} {c : Char} {cs : List Char}
    (htrailing : scan.trailing = false) (hspelling : ¬spelling.IsApart)
    (htext : text.toList = c :: cs) (hc : c ≠ '=') :
    ∃ argument, spelling.arguments text = [argument] ∧
      scan.argument (some .get) (Scan.positional .get) argument =
        scan.switch (some .get) .binding (some text) := by
  have hne : text.toList ≠ [] := by simp [htext]
  cases spelling with
  | long =>
      refine ⟨_, rfl, ?_⟩
      have hchars : ("--var=" ++ text).toList =
          '-' :: '-' :: ("var".toList ++ '=' :: text.toList) := by simp
      rw [argument_long htrailing hchars (by simp), longOption_attached (by decide) rfl,
        String.ofList_toList]
  | short =>
      refine ⟨_, rfl, ?_⟩
      have hchars : ("-v" ++ text).toList = '-' :: 'v' :: text.toList := by simp
      have hequals : text.toList.head? ≠ some '=' := by simpa [htext] using hc
      rw [argument_short htrailing hchars (by decide), shortOption_attached hne hequals,
        String.ofList_toList]
  | shortEquals =>
      refine ⟨_, rfl, ?_⟩
      have hchars : ("-v=" ++ text).toList = '-' :: 'v' :: '=' :: text.toList := by simp
      rw [argument_short htrailing hchars (by decide), shortOption_equals, String.ofList_toList]
  | longApart => exact absurd (.inl rfl) hspelling
  | shortApart => exact absurd (.inr rfl) hspelling

theorem argument_apart (htrailing : scan.trailing = false) (hspelling : spelling.IsApart)
    (text : String) :
    ∃ argument, spelling.arguments text = [argument, text] ∧
      scan.argument (some .get) (Scan.positional .get) argument =
        scan.switch (some .get) .binding none := by
  rcases hspelling with rfl | rfl
  · refine ⟨_, rfl, ?_⟩
    have hchars : "--var".toList = '-' :: '-' :: "var".toList := rfl
    rw [argument_long htrailing hchars (by decide), longOption_apart (by decide) rfl]
  · refine ⟨_, rfl, ?_⟩
    have hchars : "-v".toList = ['-', 'v'] := rfl
    rw [argument_short htrailing hchars (by decide), shortOption_apart]

end

section

variable {subcommand : Subcommand} {scan : Scan} {options : List Written}

theorem Collects.binding {key : String} (h : Collects (some .get) scan options)
    (spelling : Spelling) (hkey : key ≠ "") (hfree : '=' ∉ key.toList)
    (hdash : spelling.IsApart → key.toList.head? ≠ some '-') (value : String) :
    ∃ next, Leads .get scan (spelling.arguments (key ++ "=" ++ value)) next ∧
      Collects (some .get) next (options ++ [.binding spelling key value]) := by
  have hbinding : binding? (key ++ "=" ++ value) = some (key, value) :=
    binding?_eq_some_iff.mpr ⟨rfl, hkey, hfree⟩
  obtain ⟨c, cs, hchars⟩ := List.exists_cons_of_ne_nil (mt String.toList_eq_nil_iff.mp hkey)
  have htext : (key ++ "=" ++ value).toList = c :: (cs ++ '=' :: value.toList) := by simp [hchars]
  by_cases hspelling : spelling.IsApart
  · -- The name of the option waits, and the binding that comes next is no option itself.
    obtain ⟨argument, harguments, hargument⟩ :=
      argument_apart h.trailing hspelling (key ++ "=" ++ value)
    rw [switch_binding_apart h.resolves] at hargument
    have hplain : (key ++ "=" ++ value).toList.head? ≠ some '-' := by
      simpa [htext, hchars] using hdash hspelling
    have hvalue : Scan.argument (some .get) (Scan.positional .get)
        { collected options with pending := .binding none } (key ++ "=" ++ value) =
          .ok { collected options with pending := .binding (some (key ++ "=" ++ value)) } :=
      argument_plain rfl hplain rfl
    refine ⟨_, ?_, collects_pending hbinding spelling⟩
    rw [harguments]
    exact (Leads.single hargument).append (Leads.single hvalue)
  · have hc : c ≠ '=' := by
      rintro rfl
      exact hfree (by simp [hchars])
    obtain ⟨argument, harguments, hargument⟩ := argument_attached h.trailing hspelling htext hc
    rw [switch_binding h.resolves hbinding, ← collected_binding spelling] at hargument
    refine ⟨_, ?_, collects_collected⟩
    rw [harguments]
    exact Leads.single hargument

theorem Collects.chat (h : Collects (some .get) scan options) (hchat : .chat ∉ options) :
    ∃ next, Leads .get scan ["--chat"] next ∧ Collects (some .get) next (options ++ [.chat]) := by
  have hchars : "--chat".toList = '-' :: '-' :: "chat".toList := rfl
  have hunset : (collected options).chat = false := by simpa [collected] using hchat
  refine ⟨collected (options ++ [.chat]), Leads.single ?_, collects_collected⟩
  rw [argument_long h.trailing hchars (by decide), longOption_apart (by decide) rfl,
    switch_chat h.resolves hunset, collected_chat]

theorem Collects.logDir (h : Collects (some subcommand) scan options)
    (hnone : options.filterMap Written.asLogDir? = []) {path : String} (hpath : path ≠ "") :
    ∃ next, Leads subcommand scan ["--log-dir=" ++ path] next ∧
      Collects (some subcommand) next (options ++ [.logDir path]) := by
  have hchars : ("--log-dir=" ++ path).toList =
      '-' :: '-' :: ("log-dir".toList ++ '=' :: path.toList) := by simp
  have hunset : (collected options).logDir = none := by simp [collected, hnone]
  refine ⟨collected (options ++ [.logDir path]), Leads.single ?_, collects_collected⟩
  rw [argument_long h.trailing hchars (by simp), longOption_attached (by decide) rfl,
    String.ofList_toList, switch_logDir h.resolves hunset hpath, collected_logDir hnone]

/-- An option that has not been given before is scanned and adds to what has been read. -/
theorem Collects.step {option : Written} (h : Collects (some subcommand) scan options)
    (hfits : option.Fits subcommand) (hchat : (options ++ [option]).count .chat ≤ 1)
    (hlogDir : ((options ++ [option]).filterMap Written.asLogDir?).length ≤ 1) :
    ∃ next, Leads subcommand scan option.arguments next ∧
      Collects (some subcommand) next (options ++ [option]) := by
  cases option with
  | binding spelling key value =>
      obtain ⟨rfl, hkey, hfree, hdash⟩ := hfits
      exact h.binding spelling hkey hfree hdash value
  | chat =>
      obtain rfl : subcommand = .get := hfits
      apply h.chat
      apply List.count_eq_zero.mp
      simpa using hchat
  | logDir path =>
      refine h.logDir ?_ hfits
      simpa [Written.asLogDir?] using hlogDir

theorem Collects.run {written : List Written} (h : Collects (some subcommand) scan written)
    (hfits : ∀ option ∈ options, option.Fits subcommand)
    (hchat : (written ++ options).count .chat ≤ 1)
    (hlogDir : ((written ++ options).filterMap Written.asLogDir?).length ≤ 1) :
    ∃ next, Leads subcommand scan (options.flatMap Written.arguments) next ∧
      Collects (some subcommand) next (written ++ options) := by
  -- The invariant is about all options so far, since the two that may be given once are counted in
  -- what has been read and in what is still to come.
  induction options generalizing scan written with
  | nil => exact ⟨scan, Leads.nil, by rwa [List.append_nil]⟩
  | cons option options ih =>
      obtain ⟨hfirst, hrest⟩ := List.forall_mem_cons.mp hfits
      rw [List.append_cons] at hchat hlogDir ⊢
      have hchatOnce : (written ++ [option]).count .chat ≤ 1 := by
        rw [List.count_append] at hchat
        omega
      have hlogDirOnce : ((written ++ [option]).filterMap Written.asLogDir?).length ≤ 1 := by
        rw [List.filterMap_append, List.length_append] at hlogDir
        omega
      obtain ⟨mid, hmid, hcollects⟩ := h.step hfirst hchatOnce hlogDirOnce
      obtain ⟨next, hnext, hall⟩ := ih hcollects hrest hchat hlogDir
      exact ⟨next, hmid.append hnext, hall⟩

end

end PromptRegistry.Console

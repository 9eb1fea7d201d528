import Mathlib.Data.List.TakeWhile
import PromptRegistry.Console.Arguments
import PromptRegistry.Prompt.Compiler
import PromptRegistry.Proofs.Text.Split

namespace PromptRegistry

variable {text key value : String}

theorem binding?_of_split {before after : List Char}
    (h : splitFirst (· == '=') text.toList = (before, '=' :: after)) :
    binding? text =
      if before.isEmpty then none else some (String.ofList before, String.ofList after) := by
  obtain ⟨htext, hbefore, -⟩ := splitFirst_eq_iff.mp h
  have hall : ∀ c ∈ before, decide (c ≠ '=') = true := by simpa using hbefore
  unfold binding?
  rw [htext, List.takeWhile_append_of_pos hall, List.dropWhile_append_of_pos hall]
  simp

theorem binding?_of_free (h : '=' ∉ text.toList) : binding? text = none := by
  have hrest : text.toList.dropWhile (· ≠ '=') = [] := by
    apply List.dropWhile_eq_nil_iff.mpr
    intro c hc
    exact decide_eq_true fun heq => h (heq ▸ hc)
  unfold binding?
  rw [hrest]

theorem split_of_mem (h : '=' ∈ text.toList) :
    ∃ before after, splitFirst (· == '=') text.toList = (before, '=' :: after) := by
  cases hsplit : splitFirst (· == '=') text.toList with
  | mk before rest =>
      obtain ⟨htext, hbefore, hrest⟩ := splitFirst_eq_iff.mp hsplit
      cases rest with
      | nil =>
          rw [List.append_nil] at htext
          have hequals := hbefore '=' (htext ▸ h)
          simp at hequals
      | cons c after =>
          have hc : c = '=' := by simpa using hrest
          exact ⟨before, after, by rw [hc]⟩

theorem binding?_eq_some_iff : binding? text = some (key, value) ↔
    text = key ++ "=" ++ value ∧ key ≠ "" ∧ '=' ∉ key.toList := by
  constructor
  · intro h
    have hmem : '=' ∈ text.toList := by
      apply Decidable.byContradiction
      intro hfree
      rw [binding?_of_free hfree] at h
      cases h
    obtain ⟨before, after, hsplit⟩ := split_of_mem hmem
    obtain ⟨htext, hbefore, -⟩ := splitFirst_eq_iff.mp hsplit
    rw [binding?_of_split hsplit] at h
    split at h
    case isTrue => cases h
    case isFalse hne =>
      obtain ⟨rfl, rfl⟩ := Prod.mk.inj (Option.some.inj h)
      refine ⟨?_, ?_, ?_⟩
      · apply String.toList_injective
        simpa using htext
      · simpa using hne
      · intro hequals
        simpa using hbefore '=' (by simpa using hequals)
  · rintro ⟨rfl, hkey, hfree⟩
    have hsplit : splitFirst (· == '=') (key ++ "=" ++ value).toList =
        (key.toList, '=' :: value.toList) := by
      rw [String.toList_append, String.toList_append, List.append_assoc]
      exact splitFirst_of_not_mem hfree (by simp)
    rw [binding?_of_split hsplit]
    simp [hkey]

theorem binding?_isSome_iff :
    (binding? text).isSome ↔ '=' ∈ text.toList ∧ text.toList.head? ≠ some '=' := by
  constructor
  · intro h
    obtain ⟨⟨key, value⟩, h⟩ := Option.isSome_iff_exists.mp h
    obtain ⟨rfl, hkey, hfree⟩ := binding?_eq_some_iff.mp h
    refine ⟨by simp, ?_⟩
    intro hhead
    cases hchars : key.toList with
    | nil => exact hkey (String.toList_eq_nil_iff.mp hchars)
    | cons c cs => simp_all
  · rintro ⟨hmem, hhead⟩
    obtain ⟨before, after, hsplit⟩ := split_of_mem hmem
    obtain ⟨htext, -, -⟩ := splitFirst_eq_iff.mp hsplit
    rw [binding?_of_split hsplit]
    cases before with
    | nil => simp [htext] at hhead
    | cons c cs => rfl

namespace Console

open Scan

section

variable {text : String} {name value : List Char}

theorem formOf_long (htext : text.toList = '-' :: '-' :: name) (hname : name ≠ []) :
    formOf text = .long name := by
  obtain ⟨c, cs, rfl⟩ := List.exists_cons_of_ne_nil hname
  simp [formOf, htext]

theorem formOf_short {letter : Char} (htext : text.toList = '-' :: letter :: value)
    (hletter : letter ≠ '-') : formOf text = .short letter value := by
  simp [formOf, htext, hletter]

theorem formOf_plain (htext : text.toList.head? ≠ some '-') : formOf text = .plain := by
  unfold formOf
  split <;> simp_all

end

section

variable {level : Level} {onPlain : Scan → String → Except UsageFault Scan} {scan : Scan}
  {text : String} {name value : List Char} {found : Switch}

theorem argument_long (htrailing : scan.trailing = false)
    (htext : text.toList = '-' :: '-' :: name) (hname : name ≠ []) :
    scan.argument level onPlain text = scan.longOption level name := by
  simp [argument, htrailing, formOf_long htext hname]

theorem longOption_attached (hfree : '=' ∉ name)
    (hfound : longSwitch? level (String.ofList name) = some found) :
    scan.longOption level (name ++ '=' :: value) =
      scan.switch level found (some (String.ofList value)) := by
  unfold longOption
  rw [splitFirst_of_not_mem hfree (by simp)]
  simp [hfound]

theorem longOption_apart (hfree : '=' ∉ name)
    (hfound : longSwitch? level (String.ofList name) = some found) :
    scan.longOption level name = scan.switch level found none := by
  have hsplit : splitFirst (· == '=') name = (name, []) := by
    rw [← List.append_nil name, splitFirst_of_not_mem hfree (by simp), List.append_nil]
  unfold longOption
  rw [hsplit]
  simp [hfound]

theorem argument_short {letter : Char} (htrailing : scan.trailing = false)
    (htext : text.toList = '-' :: letter :: value) (hletter : letter ≠ '-') :
    scan.argument level onPlain text = scan.shortOption level letter value := by
  simp [argument, htrailing, formOf_short htext hletter]

theorem shortOption_attached (hvalue : value ≠ []) (hequals : value.head? ≠ some '=') :
    scan.shortOption (some .get) 'v' value =
      scan.switch (some .get) .binding (some (String.ofList value)) := by
  obtain ⟨c, cs, rfl⟩ := List.exists_cons_of_ne_nil hvalue
  have hc : c ≠ '=' := by simpa using hequals
  simp [shortOption, shortSwitch?, hc]

theorem shortOption_equals : scan.shortOption (some .get) 'v' ('=' :: value) =
    scan.switch (some .get) .binding (some (String.ofList value)) := by
  simp [shortOption, shortSwitch?]

theorem shortOption_apart :
    scan.shortOption (some .get) 'v' [] = scan.switch (some .get) .binding none := by
  simp [shortOption, shortSwitch?]

theorem argument_plain (htrailing : scan.trailing = false) (htext : text.toList.head? ≠ some '-')
    (hawaits : scan.pending.awaitsValue = true) :
    scan.argument level onPlain text = .ok (scan.fillPending text) := by
  simp [argument, htrailing, formOf_plain htext, hawaits]

end

section

variable {level : Level} {scan settled : Scan} {text : String}

theorem resolve_of_nothing (h : scan.pending = .nothing) : scan.resolve level = .ok scan := by
  cases scan
  simp_all [resolve]

theorem resolve_trailing : Scan.resolve level { scan with trailing := true } =
    (scan.resolve level).map fun settled => { settled with trailing := true } := by
  unfold resolve
  cases scan.pending with
  | nothing => rfl
  | logDir value =>
      cases value with
      | none => rfl
      | some path =>
          simp only [setLogDir]
          split
          · rfl
          · split <;> rfl
  | binding value =>
      cases value with
      | none => rfl
      | some text =>
          simp only [addBinding]
          split <;> rfl
  | values list =>
      simp only [addValues]
      split <;> rfl

theorem switch_binding {binding : String × String} (hscan : scan.resolve level = .ok settled)
    (hbinding : binding? text = some binding) :
    scan.switch level .binding (some text) =
      .ok { settled with bindings := settled.bindings ++ [binding] } := by
  simp [switch, hscan, addBinding, hbinding, Bind.bind, Except.bind]

theorem switch_binding_apart (hscan : scan.resolve level = .ok settled) :
    scan.switch level .binding none = .ok { settled with pending := .binding none } := by
  simp [switch, hscan]

theorem switch_chat (hscan : scan.resolve level = .ok settled) (hchat : settled.chat = false) :
    scan.switch level .chat none = .ok { settled with chat := true } := by
  simp [switch, hscan, hchat, Bind.bind, Except.bind]

theorem switch_logDir (hscan : scan.resolve level = .ok settled) (hlogDir : settled.logDir = none)
    (htext : text ≠ "") :
    scan.switch level .logDir (some text) = .ok { settled with logDir := some text } := by
  simp [switch, hscan, setLogDir, hlogDir, htext, Bind.bind, Except.bind]

end

section

variable {subcommand : Subcommand} {scan mid next : Scan} {text : String}

/-- Scanning arguments takes a scan to another one, whatever follows them. -/
def Leads (subcommand : Subcommand) (scan : Scan) (arguments : List String) (next : Scan) : Prop :=
  ∀ rest, scanSubcommand subcommand scan (arguments ++ rest) = scanSubcommand subcommand next rest

theorem Leads.nil : Leads subcommand scan [] scan := fun _ => rfl

theorem Leads.single (h : scan.argument subcommand (positional subcommand) text = .ok next) :
    Leads subcommand scan [text] next := by
  intro rest
  rw [List.singleton_append, scanSubcommand, h]
  rfl

theorem Leads.append {first second : List String} (hfirst : Leads subcommand scan first mid)
    (hsecond : Leads subcommand mid second next) :
    Leads subcommand scan (first ++ second) next := by
  intro rest
  rw [List.append_assoc, hfirst, hsecond]

theorem leads_dashes (htrailing : scan.trailing = false) :
    Leads subcommand scan ["--"] { scan with trailing := true } := by
  apply Leads.single
  have hform : formOf "--" = .endOfOptions := by decide
  simp [argument, htrailing, hform]

/-- The first positional settles what is pending, and is pending itself from then on. -/
theorem positional_first {settled : Scan} (hvalues : scan.values = [])
    (hpending : ∀ list, scan.pending ≠ .values list)
    (hscan : scan.resolve subcommand = .ok settled) :
    positional subcommand scan text = .ok { settled with pending := .values [text] } := by
  unfold positional
  split
  case h_1 list hlist => exact absurd hlist (hpending list)
  case h_2 => rw [hscan]; rfl
  case h_3 list _ hlist => exact absurd hlist (hpending list)
  case h_4 => rw [if_neg (by simp [hvalues]), hscan]; rfl

theorem leads_values (scan : Scan) (htrailing : scan.trailing = true) (list more : List String) :
    Leads .warm { scan with pending := .values list } more
      { scan with pending := .values (list ++ more) } := by
  induction more generalizing list with
  | nil =>
      rw [List.append_nil]
      exact Leads.nil
  | cons text more ih =>
      have hfirst : Leads .warm { scan with pending := .values list } [text]
          { scan with pending := .values (list ++ [text]) } := by
        apply Leads.single
        simp [argument, htrailing, positional]
      have hrest := hfirst.append (ih (list ++ [text]))
      rwa [List.append_assoc] at hrest

end

section

variable {subcommand : Subcommand} {scan inner : Scan} {rest : List String}

theorem ofName?_of_dash {text : String} (h : text.toList.head? = some '-') :
    Subcommand.ofName? text = none ∧ text ≠ "help" := by
  constructor
  · apply List.find?_eq_none.mpr
    intro subcommand _ hname
    rw [← beq_iff_eq.mp hname] at h
    cases subcommand <;> simp [Subcommand.name] at h
  · rintro rfl
    simp at h

theorem scanTop_subcommand {command : Command} (htrailing : scan.trailing = false)
    (hpending : scan.pending = .nothing)
    (hinner : scanSubcommand subcommand .start rest = .ok inner)
    (hcommand : commandOf subcommand inner = .ok command) :
    scanTop scan (subcommand.name :: rest) = .ok ⟨command, inner.logDir.or scan.logDir⟩ := by
  have hname : Subcommand.ofName? subcommand.name = some subcommand := by
    cases subcommand <;> decide
  rw [scanTop, if_neg (by simp [htrailing]), if_neg (by simp [hpending, Pending.awaitsValue]), hname]
  simp [hinner, hcommand, resolve_of_nothing hpending, Bind.bind, Except.bind, Pure.pure,
    Except.pure]

theorem scanTop_logDir {path : String} (hpath : path ≠ "") :
    scanTop .start (("--log-dir=" ++ path) :: rest) =
      scanTop { Scan.start with logDir := some path } rest := by
  have hchars : ("--log-dir=" ++ path).toList =
      '-' :: '-' :: ("log-dir".toList ++ '=' :: path.toList) := by simp
  obtain ⟨hname, hhelp⟩ := ofName?_of_dash (by rw [hchars]; rfl)
  rw [scanTop, if_neg (by decide), if_neg (by decide), hname]
  simp only [if_neg hhelp]
  rw [argument_long rfl hchars (by simp), longOption_attached (by decide) rfl,
    String.ofList_toList, switch_logDir (resolve_of_nothing rfl) rfl hpath]
  rfl

end

end Console

end PromptRegistry

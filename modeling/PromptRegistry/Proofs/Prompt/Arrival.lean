import PromptRegistry.Console.Command
import PromptRegistry.Proofs.Index.Extensional
import PromptRegistry.Proofs.Prompt.Usage

namespace PromptRegistry.Bindings

open Index (BuiltFrom)

variable {first second : List (String × String)} {bindings other : Bindings}

/-- The key that is reported is the smallest of the keys in the list that are not used. -/
theorem attempt_of_builtFrom (h : BuiltFrom first bindings) {body : Body}
    (hbody : body.isEmpty = false) {fault : CompileFault} :
    Compiler.attempt ⟨some body⟩ bindings body.kind = .error fault ↔
      ∃ key, fault = .unknownVariable key ∧
        Template.IsFirstKey (fun key => key ∈ first.map Prod.fst ∧ key ∉ body.used bindings)
          key := by
  rw [Compiler.attempt_of_body rfl hbody, Compiler.requireUsed_eq_error_iff]
  simp only [h.mem_keys_iff]

/-- Lists of pairs with the same last values make the same bindings, however these are made. So
prompts compile alike under them, with the same key reported where they do not, and a command does
the same. Bindings are equal exactly when they have the same values under the same keys. -/
theorem last_values_make_bindings (hsame : ∀ key, lastValue? key first = lastValue? key second) :
    (∀ bindings other : Bindings, BuiltFrom first bindings → BuiltFrom second other →
      bindings = other ∧
      (∀ key, bindings.get? key = lastValue? key second) ∧
      bindings.keys.Pairwise (· < ·) ∧ bindings.keys.Nodup ∧
      (∀ compiler : Compiler, compiler.compileText bindings = compiler.compileText other ∧
        compiler.compileChat bindings = compiler.compileChat other) ∧
      ∀ body : Body, body.isEmpty = false → ∀ fault,
        Compiler.attempt ⟨some body⟩ bindings body.kind = .error fault ↔
          ∃ key, fault = .unknownVariable key ∧
            Template.IsFirstKey (fun key => key ∈ second.map Prod.fst ∧ key ∉ body.used other)
              key) ∧
      (∀ (m : Type → Type) [Monad m] (service : PromptService m)
        (readFile : String → m (Option String)) (name : String) (chat : Bool),
        Command.run service readFile (.get name first chat) =
          Command.run service readFile (.get name second chat)) ∧
      ∀ bindings other : Bindings,
        bindings = other ↔ ∀ key, bindings.get? key = other.get? key := by
  have hequal {bindings other : Bindings} (hfirst : BuiltFrom first bindings)
      (hsecond : BuiltFrom second other) : bindings = other :=
    Index.eq_of_get?_eq fun key => by rw [hfirst.get?_eq, hsecond.get?_eq, hsame]
  refine ⟨fun bindings other hfirst hsecond => ?_, fun m _ service readFile name chat => ?_,
    fun bindings other => ⟨fun h key => by rw [h], Index.eq_of_get?_eq⟩⟩
  · obtain rfl := hequal hfirst hsecond
    exact ⟨rfl, hsecond.get?_eq, bindings.keys_ascending, bindings.keys_nodup,
      fun compiler => ⟨rfl, rfl⟩, fun body hbody fault => attempt_of_builtFrom hsecond hbody⟩
  · have hcollected := hequal (.collected first) (.collected second)
    rw [Command.run, Command.run, Command.runGet, Command.runGet, hcollected]

theorem bindings_of_two_lists :
    let first := [("b", "0"), ("a", "1"), ("b", "2"), ("é", "3")]
    let second := [("é", "3"), ("b", "2"), ("a", "1")]
    let bindings : Bindings := Index.ofList first
    let other : Bindings := ((Index.ofList []).insert "é" "3").insert "b" "2" |>.insert "a" "1"
    let body : Body := .text "\x7b\x7ba\x7d\x7d"
    (∀ key, lastValue? key first = lastValue? key second) ∧
      BuiltFrom first bindings ∧ BuiltFrom second other ∧ bindings = other ∧
      body.isEmpty = false ∧
      Compiler.attempt ⟨some body⟩ bindings body.kind = .error (.unknownVariable "b") ∧
      Template.IsFirstKey (fun key => key ∈ second.map Prod.fst ∧ key ∉ body.used other) "b" := by
  intro first second bindings other body
  have hsame (key : String) : lastValue? key first = lastValue? key second := by
    simp only [first, second, lastValue?, List.reverse_cons, List.reverse_nil, List.nil_append,
      List.cons_append, List.find?_cons]
    grind
  have hother : BuiltFrom second other :=
    .inserted (.inserted (.inserted (.collected []) "é" "3") "b" "2") "a" "1"
  have hattempt : Compiler.attempt ⟨some body⟩ bindings body.kind =
      .error (.unknownVariable "b") := by decide +kernel
  obtain ⟨hequal, -, -, -, -, hfault⟩ :=
    (last_values_make_bindings hsame).1 bindings other (.collected first) hother
  obtain ⟨key, hkey, hfirst⟩ := (hfault body rfl _).mp hattempt
  obtain rfl := CompileFault.unknownVariable.inj hkey
  exact ⟨hsame, .collected first, hother, hequal, rfl, hattempt, hfirst⟩

end PromptRegistry.Bindings

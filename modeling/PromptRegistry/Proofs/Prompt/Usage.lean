import PromptRegistry.Prompt.Compiler
import PromptRegistry.Proofs.Prompt.Cut
import PromptRegistry.Proofs.Text.Utf8

/-! # When compiling fails -/

namespace PromptRegistry

namespace Template

def Occurs (key text : String) : Prop :=
  (Piece.placeholder key.toList).source <:+: text.toList

def IsPlainKey (key : List Char) : Prop := '{' ∉ key ∧ '}' ∉ key

variable {bound : List Char → Bool}

theorem infix_of_placeholder_mem {template key : List Char} {pieces : List Piece}
    (h : IsCut bound template pieces) (hkey : .placeholder key ∈ pieces) :
    (Piece.placeholder key).source <:+: template := by
  obtain ⟨before, after, rfl⟩ := List.append_of_mem hkey
  refine ⟨before.flatMap Piece.source, after.flatMap Piece.source, ?_⟩
  rw [← h.source, List.flatMap_append, List.flatMap_cons, List.append_assoc]

theorem occurs_of_mem_used {bindings : Bindings} {template key : String}
    (h : key ∈ used bindings template) : Occurs key template :=
  infix_of_placeholder_mem (isCut_pieces bindings template) (mem_used_iff.mp h)

/-- Of two keys without closing braces that end at the same text, both are the same. -/
theorem eq_of_closed_prefixes {first second text : List Char} (hfirst : '}' ∉ first)
    (hsecond : '}' ∉ second) (htext : first ++ ['}', '}'] <+: text)
    (htext' : second ++ ['}', '}'] <+: text) : first = second := by
  induction first generalizing second text with
  | nil =>
      obtain ⟨rest, rfl⟩ := htext
      cases second with
      | nil => rfl
      | cons c second =>
          obtain ⟨rfl, -⟩ := List.cons_prefix_cons.mp htext'
          exact absurd List.mem_cons_self hsecond
  | cons c first ih =>
      obtain ⟨rest, rfl⟩ := htext
      cases second with
      | nil =>
          obtain ⟨rfl, -⟩ := List.cons_prefix_cons.mp htext'
          exact absurd List.mem_cons_self hfirst
      | cons d second =>
          obtain ⟨rfl, htail⟩ := List.cons_prefix_cons.mp htext'
          have hfirst' : '}' ∉ first := fun h => hfirst (List.mem_cons_of_mem _ h)
          have hsecond' : '}' ∉ second := fun h => hsecond (List.mem_cons_of_mem _ h)
          rw [ih hfirst' hsecond' (List.prefix_append _ rest) htail]

/-- A placeholder that begins later begins behind one whose key has no opening brace. -/
theorem placeholder_not_within {other key before rest after : List Char} (hother : '{' ∉ other)
    (hbefore : before ≠ [])
    (h : (Piece.placeholder other).source ++ rest =
      before ++ ((Piece.placeholder key).source ++ after)) :
    (Piece.placeholder key).source <:+: rest := by
  rcases List.append_eq_append_iff.mp h with ⟨between, -, hrest⟩ | ⟨within, hsource, hrest⟩
  · exact ⟨between, after, by rw [hrest, List.append_assoc]⟩
  · cases within with
    | nil => exact ⟨[], after, hrest⟩
    | cons c within =>
        exfalso
        have hclosed : '{' ∉ other ++ ['}', '}'] := by simpa using hother
        have hc : '{' = c := (List.cons.inj hrest).1
        subst hc
        obtain ⟨d, before, rfl⟩ := List.exists_cons_of_ne_nil hbefore
        have htail : '{' :: (other ++ ['}', '}']) = before ++ '{' :: within :=
          (List.cons.inj hsource).2
        cases before with
        | nil =>
            -- the second brace of the inner placeholder would begin the key of the outer one
            have hwithin : other ++ ['}', '}'] = within := (List.cons.inj htail).2
            have hnext : '{' :: (key ++ ['}', '}'] ++ after) = within ++ rest :=
              (List.cons.inj hrest).2
            obtain ⟨e, tail, htail⟩ := List.exists_cons_of_ne_nil
              (List.append_ne_nil_of_right_ne_nil other (List.cons_ne_nil '}' ['}']))
            rw [← hwithin, htail] at hnext
            have he : '{' = e := (List.cons.inj hnext).1
            rw [htail, ← he] at hclosed
            exact hclosed List.mem_cons_self
        | cons e before =>
            have htail' : other ++ ['}', '}'] = before ++ '{' :: within := (List.cons.inj htail).2
            rw [htail'] at hclosed
            exact hclosed (List.mem_append_right _ List.mem_cons_self)

/-- Where no bound key has a brace, every placeholder of a bound key is a piece. -/
theorem placeholder_mem_of_occurs {template key : List Char} {pieces : List Piece}
    (hplain : ∀ key, bound key = true → IsPlainKey key) (h : IsCut bound template pieces)
    (hkey : bound key = true) (hoccurs : (Piece.placeholder key).source <:+: template) :
    .placeholder key ∈ pieces := by
  induction pieces generalizing template with
  | nil =>
      obtain rfl : [] = template := h.source
      exact absurd (List.infix_nil.mp hoccurs) (Piece.source_ne_nil _)
  | cons piece pieces ih =>
      obtain ⟨hbegins, rest, htemplate, hrest⟩ := isCut_cons_iff.mp h
      obtain ⟨before, after, hsplit⟩ := hoccurs
      rw [List.append_assoc] at hsplit
      cases before with
      | nil =>
          have hstarts : (Piece.placeholder key).source <+: template := ⟨after, hsplit⟩
          cases hbegins with
          | character hnone => exact absurd hstarts (hnone key hkey)
          | @placeholder other _ hbound hsource hshortest =>
              obtain ⟨inner, rfl, hinner⟩ := source_prefix_iff.mp hstarts
              obtain ⟨inner', heq, hinner'⟩ := source_prefix_iff.mp hsource
              have hsame : inner = inner' := (List.cons.inj (List.cons.inj heq).2).2
              subst hsame
              have hkeys : key = other :=
                eq_of_closed_prefixes (hplain key hkey).2 (hplain other hbound).2 hinner hinner'
              rw [hkeys]
              exact List.mem_cons_self
      | cons c before =>
          apply List.mem_cons_of_mem
          apply ih hrest
          rw [htemplate] at hsplit
          cases hbegins with
          | character hnone =>
              have hbefore : before ++ ((Piece.placeholder key).source ++ after) = rest :=
                (List.cons.inj hsplit).2
              exact ⟨before, after, by rw [← hbefore, List.append_assoc]⟩
          | @placeholder other _ hbound hsource hshortest =>
              exact placeholder_not_within (hplain other hbound).1 (List.cons_ne_nil c before)
                hsplit.symm

theorem mem_used_iff_occurs {bindings : Bindings} {template key : String}
    (hplain : ∀ key ∈ bindings.keys, IsPlainKey key.toList) (hkey : key ∈ bindings.keys) :
    key ∈ used bindings template ↔ Occurs key template := by
  constructor
  · exact occurs_of_mem_used
  · intro h
    have hplain' : ∀ other, isBound bindings other = true → IsPlainKey other := by
      intro other hother
      have hmem := hplain _ (isBound_iff.mp hother)
      rwa [String.toList_ofList] at hmem
    exact mem_used_iff.mpr (placeholder_mem_of_occurs hplain' (isCut_pieces bindings template)
      (isBound_toList.mpr hkey) h)

/-- A key with a property that comes before all others with it in the order of UTF-8 bytes. -/
structure IsFirstKey (p : String → Prop) (key : String) : Prop where
  holds : p key
  first : ∀ other, p other → other ≠ key → Utf8.encode key.toList < Utf8.encode other.toList

theorem IsFirstKey.unique {p : String → Prop} {first second : String} (hfirst : IsFirstKey p first)
    (hsecond : IsFirstKey p second) : first = second := by
  by_contra hne
  have hlt := hfirst.first second hsecond.holds (Ne.symm hne)
  exact List.lt_asymm hlt (hsecond.first first hfirst.holds hne)

theorem isFirstKey_congr {p q : String → Prop} (h : ∀ key, p key ↔ q key) {key : String} :
    IsFirstKey p key ↔ IsFirstKey q key := by
  have hpq : p = q := funext fun key => propext (h key)
  rw [hpq]

end Template

def Body.templates : Body → List String
  | text template => [template]
  | chat messages => messages.map Message.content

def Body.used (bindings : Bindings) (body : Body) : List String :=
  body.templates.flatMap (Template.used bindings)

theorem Body.used_text {bindings : Bindings} (template : String) :
    (text template).used bindings = Template.used bindings template := by
  simp [used, templates]

theorem Body.used_chat {bindings : Bindings} (messages : List Message) :
    (chat messages).used bindings =
      messages.flatMap fun message => Template.used bindings message.content := by
  simp [used, templates, List.flatMap_map]

theorem Body.mem_used_iff {bindings : Bindings} {body : Body} {key : String} :
    key ∈ body.used bindings ↔ ∃ template ∈ body.templates, key ∈ Template.used bindings template :=
  List.mem_flatMap

theorem Body.not_mem_used {bindings : Bindings} {body : Body} {key : String}
    (h : ∀ template ∈ body.templates, ¬Template.Occurs key template) :
    key ∉ body.used bindings := by
  intro hused
  obtain ⟨template, htemplate, hkey⟩ := Body.mem_used_iff.mp hused
  exact h template htemplate (Template.occurs_of_mem_used hkey)

theorem Body.mem_used_iff_occurs {bindings : Bindings} {body : Body} {key : String}
    (hplain : ∀ key ∈ bindings.keys, Template.IsPlainKey key.toList) (hkey : key ∈ bindings.keys) :
    key ∈ body.used bindings ↔ ∃ template ∈ body.templates, Template.Occurs key template := by
  simp only [Body.mem_used_iff, Template.mem_used_iff_occurs hplain hkey]

namespace Compiler

variable {compiler : Compiler} {bindings : Bindings}

/-- Whether a prompt compiles as a kind, and why it does not. -/
def attempt (compiler : Compiler) (bindings : Bindings) : Kind → Except CompileFault Unit
  | .text => (compiler.compileText bindings).map fun _ => ()
  | .chat => (compiler.compileChat bindings).map fun _ => ()

theorem requireUsed_eq_ok_iff {used : List String} :
    requireUsed bindings used = .ok () ↔ ∀ key ∈ bindings.keys, key ∈ used := by
  unfold requireUsed
  split
  case h_1 key hkey =>
    have hunused := List.find?_some hkey
    have hmem := List.mem_of_find?_eq_some hkey
    simp only [reduceCtorEq, false_iff]
    intro hall
    simp [hall key hmem] at hunused
  case h_2 hnone => simpa using hnone

/-- The keys are looked through in ascending order, so the fault is about the first one. -/
theorem requireUsed_eq_error_iff {used : List String} {fault : CompileFault} :
    requireUsed bindings used = .error fault ↔
      ∃ key, fault = .unknownVariable key ∧
        Template.IsFirstKey (fun key => key ∈ bindings.keys ∧ key ∉ used) key := by
  have hfirst {key : String} (h : bindings.keys.find? (· ∉ used) = some key) :
      Template.IsFirstKey (fun key => key ∈ bindings.keys ∧ key ∉ used) key := by
    obtain ⟨hunused, before, after, hkeys, hbefore⟩ := List.find?_eq_some_iff_append.mp h
    have hascending := bindings.keys_ascending
    rw [hkeys] at hascending
    refine ⟨⟨List.mem_of_find?_eq_some h, by simpa using hunused⟩, fun other hother hne => ?_⟩
    rw [Utf8.encode_lt_iff, ← String.lt_iff]
    have hmem := hother.1
    rw [hkeys] at hmem
    rcases List.mem_append.mp hmem with hmem | hmem
    · have hused := hbefore other hmem
      simp [hother.2] at hused
    · have hafter := (List.mem_cons.mp hmem).resolve_left hne
      exact List.rel_of_pairwise_cons (List.pairwise_append.mp hascending).2.1 hafter
  unfold requireUsed
  split
  case h_1 key hkey =>
    constructor
    · intro h
      exact ⟨key, (Except.error.inj h).symm, hfirst hkey⟩
    · intro h
      obtain ⟨other, rfl, hother⟩ := h
      rw [(hfirst hkey).unique hother]
  case h_2 hnone =>
    simp only [reduceCtorEq, false_iff]
    intro h
    obtain ⟨key, -, hkey⟩ := h
    have hused := List.find?_eq_none.mp hnone key hkey.holds.1
    simp [hkey.holds.2] at hused

theorem compileText_of_ne_empty {template : String} (h : template ≠ "") :
    compileText ⟨some (.text template)⟩ bindings =
      (requireUsed bindings (Template.used bindings template)).map fun _ =>
        Template.substitute bindings template := by
  have htemplate : template.isEmpty = false := by simpa using h
  simp only [compileText, htemplate, Bool.false_eq_true, if_false]
  cases requireUsed bindings (Template.used bindings template) <;> rfl

theorem compileChat_of_ne_nil {messages : List Message} (h : messages ≠ []) :
    compileChat ⟨some (.chat messages)⟩ bindings =
      (requireUsed bindings
        (messages.flatMap fun message => Template.used bindings message.content)).map fun _ =>
          messages.map (fillMessage bindings) := by
  have hmessages : messages.isEmpty = false := by simpa using h
  simp only [compileChat, hmessages, Bool.false_eq_true, if_false]
  cases requireUsed bindings
    (messages.flatMap fun message => Template.used bindings message.content) <;> rfl

theorem attempt_of_body {body : Body} (hbody : compiler.body = some body)
    (hempty : body.isEmpty = false) :
    compiler.attempt bindings body.kind = requireUsed bindings (body.used bindings) := by
  obtain ⟨held⟩ := compiler
  obtain rfl : held = some body := hbody
  cases body with
  | text template =>
      have htemplate : template ≠ "" := by simpa [Body.isEmpty] using hempty
      rw [Body.kind, attempt, compileText_of_ne_empty htemplate, Body.used_text]
      cases requireUsed bindings (Template.used bindings template) <;> rfl
  | chat messages =>
      have hmessages : messages ≠ [] := by simpa [Body.isEmpty] using hempty
      rw [Body.kind, attempt, compileChat_of_ne_nil hmessages, Body.used_chat]
      cases requireUsed bindings
        (messages.flatMap fun message => Template.used bindings message.content) <;> rfl

theorem requireUsed_ne_empty {used : List String} {kind : Kind} :
    requireUsed bindings used ≠ .error (.empty kind) := by
  intro h
  obtain ⟨key, hkey, -⟩ := requireUsed_eq_error_iff.mp h
  cases hkey

theorem attempt_of_not_body {kind : Kind}
    (h : ∀ body, compiler.body = some body → body.kind = kind → body.isEmpty = true) :
    compiler.attempt bindings kind = .error (.empty kind) := by
  obtain ⟨_ | ⟨template⟩ | ⟨messages⟩⟩ := compiler
  · cases kind <;> rfl
  · cases kind with
    | text =>
        have hempty : template.isEmpty = true := h _ rfl rfl
        simp [attempt, compileText, hempty, Except.map]
    | chat => rfl
  · cases kind with
    | text => rfl
    | chat =>
        have hempty : messages.isEmpty = true := h _ rfl rfl
        simp [attempt, compileChat, hempty, Except.map]

theorem attempt_eq_empty_iff {kind : Kind} :
    compiler.attempt bindings kind = .error (.empty kind) ↔
      ∀ body, compiler.body = some body → body.kind = kind → body.isEmpty = true := by
  constructor
  · intro h body hbody hkind
    subst hkind
    by_contra hempty
    rw [attempt_of_body hbody (Bool.eq_false_of_not_eq_true hempty)] at h
    exact requireUsed_ne_empty h
  · exact attempt_of_not_body

private theorem map_eq_error_iff {α β ε : Type} {f : α → β} {result : Except ε α} {error : ε} :
    result.map f = .error error ↔ result = .error error := by
  cases result <;> simp [Except.map]

theorem compileText_eq_empty_iff : compiler.compileText bindings = .error (.empty .text) ↔
    compiler.body = none ∨ (∃ messages, compiler.body = some (.chat messages)) ∨
      compiler.body = some (.text "") := by
  have hattempt : compiler.attempt bindings .text = .error (.empty .text) ↔
      compiler.compileText bindings = .error (.empty .text) := map_eq_error_iff
  rw [← hattempt, attempt_eq_empty_iff]
  obtain ⟨_ | ⟨template⟩ | ⟨messages⟩⟩ := compiler <;> simp [Body.kind, Body.isEmpty]

theorem compileChat_eq_empty_iff : compiler.compileChat bindings = .error (.empty .chat) ↔
    compiler.body = none ∨ (∃ template, compiler.body = some (.text template)) ∨
      compiler.body = some (.chat []) := by
  have hattempt : compiler.attempt bindings .chat = .error (.empty .chat) ↔
      compiler.compileChat bindings = .error (.empty .chat) := map_eq_error_iff
  rw [← hattempt, attempt_eq_empty_iff]
  obtain ⟨_ | ⟨template⟩ | ⟨messages⟩⟩ := compiler <;> simp [Body.kind, Body.isEmpty]

theorem isEmpty_iff : compiler.isEmpty = true ↔
    ∀ bindings, compiler.compileText bindings = .error (.empty .text) ∧
      compiler.compileChat bindings = .error (.empty .chat) := by
  have hbindings : Nonempty Bindings := ⟨Index.empty⟩
  simp only [compileText_eq_empty_iff, compileChat_eq_empty_iff, forall_const]
  obtain ⟨_ | ⟨template⟩ | ⟨messages⟩⟩ := compiler <;> simp [isEmpty, Body.isEmpty]

/-- Compiling fails for want of a prompt of the kind, whatever is bound. Otherwise it fails only
for the first key that is not used. A key whose placeholder occurs nowhere is not used, and where no
key has a brace, a key is used exactly when its placeholder occurs. -/
theorem compile_fails_for_first_unused_key (compiler : Compiler) (bindings : Bindings) :
    (compiler.compileText bindings = .error (.empty .text) ↔
        compiler.body = none ∨ (∃ messages, compiler.body = some (.chat messages)) ∨
          compiler.body = some (.text "")) ∧
      (compiler.compileChat bindings = .error (.empty .chat) ↔
        compiler.body = none ∨ (∃ template, compiler.body = some (.text template)) ∨
          compiler.body = some (.chat [])) ∧
      (compiler.isEmpty = true ↔
        ∀ bindings, compiler.compileText bindings = .error (.empty .text) ∧
          compiler.compileChat bindings = .error (.empty .chat)) ∧
      ∀ body, compiler.body = some body → body.isEmpty = false →
        (compiler.attempt bindings body.kind = .ok () ↔
          ∀ key ∈ bindings.keys, key ∈ body.used bindings) ∧
        (∀ fault, compiler.attempt bindings body.kind = .error fault ↔
          ∃ key, fault = .unknownVariable key ∧ Template.IsFirstKey
            (fun key => key ∈ bindings.keys ∧ key ∉ body.used bindings) key) ∧
        (∀ key, (∀ template ∈ body.templates, ¬Template.Occurs key template) →
          key ∉ body.used bindings) ∧
        ((∀ key ∈ bindings.keys, Template.IsPlainKey key.toList) →
          (∀ key ∈ bindings.keys, key ∈ body.used bindings ↔
            ∃ template ∈ body.templates, Template.Occurs key template) ∧
          (compiler.attempt bindings body.kind = .ok () ↔
            ∀ key ∈ bindings.keys, ∃ template ∈ body.templates, Template.Occurs key template) ∧
          ∀ fault, compiler.attempt bindings body.kind = .error fault ↔
            ∃ key, fault = .unknownVariable key ∧ Template.IsFirstKey
              (fun key => key ∈ bindings.keys ∧
                ∀ template ∈ body.templates, ¬Template.Occurs key template) key) := by
  refine ⟨compileText_eq_empty_iff, compileChat_eq_empty_iff, isEmpty_iff,
    fun body hbody hempty => ?_⟩
  rw [attempt_of_body hbody hempty]
  refine ⟨requireUsed_eq_ok_iff, fun fault => requireUsed_eq_error_iff,
    fun key => Body.not_mem_used, fun hplain => ?_⟩
  have hused {key : String} (hkey : key ∈ bindings.keys) : key ∈ body.used bindings ↔
      ∃ template ∈ body.templates, Template.Occurs key template :=
    Body.mem_used_iff_occurs hplain hkey
  have hunused (key : String) : (key ∈ bindings.keys ∧ key ∉ body.used bindings) ↔
      key ∈ bindings.keys ∧ ∀ template ∈ body.templates, ¬Template.Occurs key template := by
    apply and_congr_right
    intro hkey
    rw [hused hkey]
    push Not
    rfl
  refine ⟨fun key hkey => hused hkey, ?_, fun fault => ?_⟩
  · rw [requireUsed_eq_ok_iff]
    exact forall₂_congr fun key hkey => hused hkey
  · rw [requireUsed_eq_error_iff]
    simp only [Template.isFirstKey_congr hunused]

theorem first_absent_key_is_named :
    let body : Body := .chat
      [⟨"\x7b\x7bc\x7d\x7d", "\x7b\x7b\x7ba\x7d\x7d"⟩, ⟨"user", "\x7b\x7bb\x7d"⟩]
    let compiler : Compiler := ⟨some body⟩
    let bindings : Bindings := Index.ofList [("c", "3"), ("é", "4"), ("a", "1")]
    compiler.body = some body ∧ body.isEmpty = false ∧
      (∀ key ∈ bindings.keys, Template.IsPlainKey key.toList) ∧
      (∀ template ∈ body.templates, ¬Template.Occurs "c" template) ∧
      "c" ∉ body.used bindings ∧
      compiler.attempt bindings body.kind = .error (.unknownVariable "c") ∧
      Template.IsFirstKey (fun key => key ∈ bindings.keys ∧
        ∀ template ∈ body.templates, ¬Template.Occurs key template) "c" := by
  intro body compiler bindings
  have hplain : ∀ key ∈ bindings.keys, Template.IsPlainKey key.toList := by
    unfold Template.IsPlainKey
    decide +kernel
  have habsent : ∀ template ∈ body.templates, ¬Template.Occurs "c" template := by
    unfold Template.Occurs
    decide +kernel
  have hattempt : compiler.attempt bindings body.kind = .error (.unknownVariable "c") := by
    decide +kernel
  obtain ⟨-, -, -, hbody⟩ := compile_fails_for_first_unused_key compiler bindings
  obtain ⟨-, -, hnot, hkeys⟩ := hbody body rfl rfl
  obtain ⟨key, hkey, hfirst⟩ := ((hkeys hplain).2.2 _).mp hattempt
  obtain rfl : "c" = key := CompileFault.unknownVariable.inj hkey
  exact ⟨rfl, rfl, hplain, habsent, hnot "c" habsent, hattempt, hfirst⟩

end Compiler

namespace Body

variable {bindings : Bindings} {body : Body} {key : String}

def fill (bindings : Bindings) : Body → Body
  | text template => text (Template.substitute bindings template)
  | chat messages => chat (messages.map (Compiler.fillMessage bindings))

/-- The bound keys that substitution does not use in a body, in ascending order. -/
def unused (bindings : Bindings) (body : Body) : List String :=
  bindings.keys.filter (· ∉ body.used bindings)

theorem mem_unused_iff :
    key ∈ body.unused bindings ↔ key ∈ bindings.keys ∧ key ∉ body.used bindings := by
  simp [unused]

theorem unused_ascending : (body.unused bindings).Pairwise (· < ·) :=
  bindings.keys_ascending.filter _

theorem unused_nodup : (body.unused bindings).Nodup := unused_ascending.nodup

end Body

namespace Compiler

variable {bindings : Bindings} {body : Body}

def compile (compiler : Compiler) (bindings : Bindings) : Kind → Except CompileFault Body
  | .text => (compiler.compileText bindings).map .text
  | .chat => (compiler.compileChat bindings).map .chat

theorem compile_of_body (hbody : body.isEmpty = false) :
    compile ⟨some body⟩ bindings body.kind =
      (body.unused bindings).head?.elim (.ok (body.fill bindings))
        (.error <| .unknownVariable ·) := by
  have hcompile : compile ⟨some body⟩ bindings body.kind =
      (requireUsed bindings (body.used bindings)).map fun _ => body.fill bindings := by
    cases body with
    | text template =>
        have htemplate : template ≠ "" := by simpa [Body.isEmpty] using hbody
        rw [Body.kind, compile, compileText_of_ne_empty htemplate, Body.used_text]
        cases requireUsed bindings (Template.used bindings template) <;> rfl
    | chat messages =>
        have hmessages : messages ≠ [] := by simpa [Body.isEmpty] using hbody
        rw [Body.kind, compile, compileChat_of_ne_nil hmessages, Body.used_chat]
        cases requireUsed bindings
          (messages.flatMap fun message => Template.used bindings message.content) <;> rfl
  rw [hcompile, Body.unused, List.head?_filter, requireUsed]
  cases bindings.keys.find? fun key => decide (key ∉ body.used bindings) <;> rfl

theorem compile_eq_ok_iff (hbody : body.isEmpty = false) {result : Body} :
    compile ⟨some body⟩ bindings body.kind = .ok result ↔
      body.unused bindings = [] ∧ result = body.fill bindings := by
  rw [compile_of_body hbody]
  cases body.unused bindings <;> simp [eq_comm]

theorem compile_eq_error_iff (hbody : body.isEmpty = false) {fault : CompileFault} :
    compile ⟨some body⟩ bindings body.kind = .error fault ↔
      ∃ key rest, body.unused bindings = key :: rest ∧ fault = .unknownVariable key := by
  rw [compile_of_body hbody]
  cases body.unused bindings <;> simp [eq_comm]

end Compiler

end PromptRegistry

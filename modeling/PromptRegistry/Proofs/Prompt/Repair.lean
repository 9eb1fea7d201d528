import Mathlib.Logic.Function.Iterate
import PromptRegistry.Proofs.Index.Extensional
import PromptRegistry.Proofs.Prompt.Usage

/-!
# Repairing bindings

A key that is not used has no part in the cut of a template, so it can be unbound or bound again
without any change to what is used and filled in.
-/

namespace PromptRegistry

namespace Template

variable {bound fewer : List Char → Bool}

/-- Unbinding keys keeps the piece that a text begins with, unless its own key is unbound. -/
theorem Piece.Begins.of_fewer {text : List Char} {piece : Piece} (h : piece.Begins bound text)
    (hfewer : ∀ key, fewer key = true → bound key = true)
    (hkept : ∀ key, piece = .placeholder key → fewer key = true) : piece.Begins fewer text := by
  -- the shortest key is the shortest of fewer keys, and where no key fitted none does now
  cases h with
  | @placeholder key _ hbound htext hshortest =>
      exact .placeholder (hkept key rfl) htext fun other hother =>
        hshortest other (hfewer other hother)
  | character hnone => exact .character fun key hkey => hnone key (hfewer key hkey)

theorem IsCut.of_fewer {template : List Char} {pieces : List Piece}
    (h : IsCut bound template pieces) (hfewer : ∀ key, fewer key = true → bound key = true)
    (hkept : ∀ key, .placeholder key ∈ pieces → fewer key = true) :
    IsCut fewer template pieces where
  source := h.source
  begins before piece after hpieces := by
    refine (h.begins before piece after hpieces).of_fewer hfewer fun key hkey => hkept key ?_
    rw [hpieces, ← hkey]
    exact List.mem_append_right _ List.mem_cons_self

theorem mem_keys_of_mem_used {bindings : Bindings} {template key : String}
    (h : key ∈ used bindings template) : key ∈ bindings.keys := by
  have hpiece := mem_used_iff.mp h
  exact isBound_toList.mp (isBound_of_placeholder_mem (isCut_pieces bindings template) hpiece)

theorem mem_used_of_placeholder_mem {bindings : Bindings} {template : String} {key : List Char}
    (h : .placeholder key ∈ pieces bindings template) :
    String.ofList key ∈ used bindings template := by
  rwa [mem_used_iff, String.toList_ofList]

end Template

namespace Bindings

open Template

/-- Bindings of no keys but those of other bindings, with the same values where they are needed. -/
structure Suffices (needed : List String) (fewer bindings : Bindings) : Prop where
  keys : ∀ key ∈ fewer.keys, key ∈ bindings.keys
  values : ∀ key ∈ needed, fewer.get? key = bindings.get? key

namespace Suffices

variable {fewer bindings : Bindings} {template : String}

theorem mono {needed less : List String} (h : Suffices needed fewer bindings)
    (hless : ∀ key ∈ less, key ∈ needed) : Suffices less fewer bindings :=
  ⟨h.keys, fun key hkey => h.values key (hless key hkey)⟩

theorem pieces_eq (h : Suffices (used bindings template) fewer bindings) :
    pieces fewer template = pieces bindings template := by
  have hfewer : ∀ key, isBound fewer key = true → isBound bindings key = true := fun key hkey =>
    isBound_iff.mpr (h.keys _ (isBound_iff.mp hkey))
  refine (isCut_iff.mp ((isCut_pieces bindings template).of_fewer hfewer fun key hkey => ?_)).symm
  have hused := mem_used_of_placeholder_mem hkey
  rw [isBound_iff, Index.mem_keys_iff, h.values _ hused, ← Index.mem_keys_iff]
  exact mem_keys_of_mem_used hused

theorem used_eq (h : Suffices (used bindings template) fewer bindings) :
    used fewer template = used bindings template := by
  rw [used, used, h.pieces_eq]

theorem substitute_eq (h : Suffices (used bindings template) fewer bindings) :
    substitute fewer template = substitute bindings template := by
  have hfilled : (pieces bindings template).map (Piece.filled fewer) =
      (pieces bindings template).map (Piece.filled bindings) := by
    refine List.map_congr_left fun piece hpiece => ?_
    cases piece with
    | character c => rfl
    | placeholder key =>
        have hused := mem_used_of_placeholder_mem hpiece
        rw [Piece.filled, Piece.filled, Piece.fill, Piece.fill, h.values _ hused]
  apply String.toList_injective
  rw [substitute_toList, substitute_toList, h.pieces_eq, hfilled]

end Suffices

end Bindings

namespace Body

open Bindings (Suffices)

variable {bindings fewer : Bindings} {body : Body} {key : String}

theorem suffices_of_template {template : String} (h : Suffices (body.used bindings) fewer bindings)
    (htemplate : template ∈ body.templates) :
    Suffices (Template.used bindings template) fewer bindings :=
  h.mono fun _ hkey => mem_used_iff.mpr ⟨template, htemplate, hkey⟩

theorem used_of_suffices (h : Suffices (body.used bindings) fewer bindings) :
    body.used fewer = body.used bindings := by
  rw [used, used, List.flatMap_def, List.flatMap_def]
  exact congrArg List.flatten (List.map_congr_left fun template htemplate =>
    (suffices_of_template h htemplate).used_eq)

theorem fill_of_suffices (h : Suffices (body.used bindings) fewer bindings) :
    body.fill fewer = body.fill bindings := by
  have htemplate {template : String} (hmem : template ∈ body.templates) :
      Template.substitute fewer template = Template.substitute bindings template :=
    (suffices_of_template h hmem).substitute_eq
  cases body with
  | text template => exact congrArg text (htemplate (List.mem_singleton.mpr rfl))
  | chat messages =>
      refine congrArg chat (List.map_congr_left fun message hmessage => ?_)
      rw [Compiler.fillMessage, Compiler.fillMessage,
        htemplate (List.mem_map_of_mem (f := Message.content) hmessage)]

section

variable {p : String → Prop} [DecidablePred p]

theorem suffices_keep (h : ∀ key ∈ body.used bindings, p key) :
    Suffices (body.used bindings) (bindings.keep p) bindings where
  keys key hkey := by
    rw [Index.keys_keep] at hkey
    exact List.mem_of_mem_filter hkey
  values key hkey := by rw [Index.get?_keep, if_pos (h key hkey)]

theorem unused_keep (h : ∀ key ∈ body.used bindings, p key) :
    body.unused (bindings.keep p) = (body.unused bindings).filter (p ·) := by
  rw [unused, unused, used_of_suffices (suffices_keep h), Index.keys_keep, List.filter_filter,
    List.filter_filter]
  simp only [Bool.and_comm]

end

/-- A key that is not used may as well not have been bound. -/
theorem suffices_insert {value : String} (h : key ∉ body.used (bindings.insert key value)) :
    Suffices (body.used (bindings.insert key value)) bindings (bindings.insert key value) where
  keys name hname := Index.mem_keys_insert.mpr (.inr hname)
  values name hname := by
    have hne : name ≠ key := fun heq => h (heq ▸ hname)
    rw [Index.get?_insert_of_ne _ _ hne]

end Body

namespace Compiler

variable {bindings : Bindings} {body : Body}

def dropReported (compiler : Compiler) (kind : Kind) (bindings : Bindings) : Bindings :=
  match compiler.compile bindings kind with
  | .error (.unknownVariable key) => bindings.without key
  | _ => bindings

private theorem filter_not_mem_take {keys : List String} (h : keys.Nodup) (count : Nat) :
    keys.filter (· ∉ keys.take count) = keys.drop count := by
  have hdisjoint := List.disjoint_take_drop h (Nat.le_refl count)
  have hfirst : (keys.take count).filter (· ∉ keys.take count) = [] :=
    List.filter_eq_nil_iff.mpr fun key hkey => by simpa using hkey
  have hrest : (keys.drop count).filter (· ∉ keys.take count) = keys.drop count :=
    List.filter_eq_self.mpr fun key hkey => by simpa using fun h => hdisjoint h hkey
  calc keys.filter (· ∉ keys.take count)
      = (keys.take count ++ keys.drop count).filter (· ∉ keys.take count) := by
        rw [List.take_append_drop]
    _ = keys.drop count := by rw [List.filter_append, hfirst, hrest, List.nil_append]

private theorem unused_keep_take (body : Body) (bindings : Bindings) (count : Nat) :
    body.unused (bindings.keep (· ∉ (body.unused bindings).take count)) =
      (body.unused bindings).drop count := by
  rw [Body.unused_keep, filter_not_mem_take Body.unused_nodup]
  intro key hused hkey
  exact (Body.mem_unused_iff.mp (List.mem_of_mem_take hkey)).2 hused

/-- The keys are reported in ascending order, so that each step unbinds the next of them. -/
theorem iterate_dropReported (hbody : body.isEmpty = false) {count : Nat}
    (hcount : count ≤ (body.unused bindings).length) :
    (dropReported ⟨some body⟩ body.kind)^[count] bindings =
      bindings.keep (· ∉ (body.unused bindings).take count) := by
  induction count with
  | zero =>
      rw [Function.iterate_zero_apply, Index.keep_eq_self]
      simp
  | succ count ih =>
      have hleft := unused_keep_take body bindings count
      rw [List.drop_eq_getElem_cons hcount] at hleft
      have hreported := (compile_eq_error_iff hbody).mpr ⟨_, _, hleft, rfl⟩
      rw [Function.iterate_succ_apply', ih (Nat.le_of_succ_le hcount), dropReported, hreported]
      simp only [Index.without_keep]
      apply Index.keep_congr
      intro key _
      rw [List.take_succ_eq_append_getElem hcount, List.mem_append, List.mem_singleton, not_or]

private theorem exists_cons_of_ascending {fewer rest : List String} {key : String}
    (hkeys : (key :: rest).Pairwise (· < ·)) (hfewer : fewer.Pairwise (· < ·))
    (hsubset : ∀ other ∈ fewer, other ∈ key :: rest) (hkey : key ∈ fewer) :
    ∃ others, fewer = key :: others := by
  cases fewer with
  | nil => cases hkey
  | cons other others =>
      rcases List.mem_cons.mp hkey with rfl | hbehind
      · exact ⟨others, rfl⟩
      · have hless : other < key := List.rel_of_pairwise_cons hfewer hbehind
        rcases List.mem_cons.mp (hsubset other List.mem_cons_self) with rfl | hmore
        · exact ⟨others, rfl⟩
        · exact absurd (List.rel_of_pairwise_cons hkeys hmore) (String.lt_asymm hless)

/-- A key that is not used is reported, unless another one was reported before it was bound. -/
theorem compile_insert (hbody : body.isEmpty = false) {key value : String}
    (hkey : key ∉ body.used (bindings.insert key value)) :
    ∃ reported, compile ⟨some body⟩ (bindings.insert key value) body.kind =
        .error (.unknownVariable reported) ∧
      (reported = key ∨
        compile ⟨some body⟩ bindings body.kind = .error (.unknownVariable reported)) := by
  have hused := Body.used_of_suffices (Body.suffices_insert hkey)
  have hunused : key ∈ body.unused (bindings.insert key value) :=
    Body.mem_unused_iff.mpr ⟨Index.mem_keys_insert.mpr (.inl rfl), hkey⟩
  obtain ⟨reported, rest, hlist⟩ := List.exists_cons_of_ne_nil (List.ne_nil_of_mem hunused)
  refine ⟨reported, (compile_eq_error_iff hbody).mpr ⟨reported, rest, hlist, rfl⟩, ?_⟩
  by_cases hreported : reported = key
  · exact .inl hreported
  · have hmem (other : String) : other ∈ body.unused bindings ↔
        other ∈ bindings.keys ∧ other ∉ body.used (bindings.insert key value) := by
      rw [Body.mem_unused_iff, hused]
    have hfirst := Body.mem_unused_iff.mp (hlist ▸ List.mem_cons_self)
    have hbound := (Index.mem_keys_insert.mp hfirst.1).resolve_left hreported
    have hsubset : ∀ other ∈ body.unused bindings, other ∈ reported :: rest := by
      intro other hother
      rw [← hlist, Body.mem_unused_iff, Index.mem_keys_insert]
      exact ⟨.inr ((hmem other).mp hother).1, ((hmem other).mp hother).2⟩
    obtain ⟨others, hothers⟩ := exists_cons_of_ascending (hlist ▸ Body.unused_ascending)
      Body.unused_ascending hsubset ((hmem reported).mpr ⟨hbound, hfirst.2⟩)
    exact .inr ((compile_eq_error_iff hbody).mpr ⟨reported, others, hothers, rfl⟩)

theorem compile_without (hbody : body.isEmpty = false) {key : String}
    (h : compile ⟨some body⟩ bindings body.kind = .error (.unknownVariable key)) :
    body.used (bindings.without key) = body.used bindings ∧
      body.fill (bindings.without key) = body.fill bindings ∧
      (compile ⟨some body⟩ (bindings.without key) body.kind = .ok (body.fill bindings) ∨
        ∃ next, compile ⟨some body⟩ (bindings.without key) body.kind =
          .error (.unknownVariable next) ∧ key < next) := by
  obtain ⟨reported, rest, hlist, hreported⟩ := (compile_eq_error_iff hbody).mp h
  obtain rfl := CompileFault.unknownVariable.inj hreported
  have hkey : key ∉ body.used bindings :=
    (Body.mem_unused_iff.mp (hlist ▸ List.mem_cons_self)).2
  have hneeded : ∀ name ∈ body.used bindings, name ≠ key :=
    fun name hname heq => hkey (heq ▸ hname)
  have hascending : (key :: rest).Pairwise (· < ·) := hlist ▸ Body.unused_ascending
  have hrest : body.unused (bindings.without key) = rest := by
    rw [Index.without, Body.unused_keep hneeded, hlist, List.filter_cons_of_neg (by simp),
      List.filter_eq_self]
    intro name hname
    have hless := List.rel_of_pairwise_cons hascending hname
    simpa using fun heq : name = key => String.lt_irrefl key (heq ▸ hless)
  have hsuffices := Body.suffices_keep hneeded
  refine ⟨Body.used_of_suffices hsuffices, Body.fill_of_suffices hsuffices, ?_⟩
  cases rest with
  | nil =>
      exact .inl ((compile_eq_ok_iff hbody).mpr ⟨hrest, (Body.fill_of_suffices hsuffices).symm⟩)
  | cons next rest =>
      exact .inr ⟨next, (compile_eq_error_iff hbody).mpr ⟨next, rest, hrest, rfl⟩,
        List.rel_of_pairwise_cons hascending List.mem_cons_self⟩

/-- Unbinding a key that compiling reports leaves what is used and filled in as it was, and what is
reported next is a later key, if anything is. So all keys that are not used are reported in turn,
and then the prompt compiles with the keys that are used to what was filled in at first. Binding a
key that is not used leaves what is filled in as it was as well, but makes compiling fail. -/
theorem dropping_reported_keys_repairs {body : Body} (hbody : body.isEmpty = false)
    (bindings : Bindings) :
    let compiler : Compiler := ⟨some body⟩
    let drop := compiler.dropReported body.kind
    (∀ key, compiler.compile bindings body.kind = .error (.unknownVariable key) →
      drop bindings = bindings.without key ∧
      body.used (bindings.without key) = body.used bindings ∧
      body.fill (bindings.without key) = body.fill bindings ∧
      (compiler.compile (bindings.without key) body.kind = .ok (body.fill bindings) ∨
        ∃ next, compiler.compile (bindings.without key) body.kind =
          .error (.unknownVariable next) ∧ key < next)) ∧
    (∀ count key, (body.unused bindings)[count]? = some key →
      compiler.compile (drop^[count] bindings) body.kind = .error (.unknownVariable key)) ∧
    drop^[(body.unused bindings).length] bindings = bindings.keep (· ∈ body.used bindings) ∧
    compiler.compile (bindings.keep (· ∈ body.used bindings)) body.kind =
      .ok (body.fill bindings) ∧
    ∀ key value, key ∉ body.used (bindings.insert key value) →
      body.used (bindings.insert key value) = body.used bindings ∧
      body.fill (bindings.insert key value) = body.fill bindings ∧
      ∃ reported, compiler.compile (bindings.insert key value) body.kind =
          .error (.unknownVariable reported) ∧
        (reported = key ∨
          compiler.compile bindings body.kind = .error (.unknownVariable reported)) := by
  intro compiler drop
  have hnone : ∀ key ∈ bindings.keys,
      key ∉ body.unused bindings ↔ key ∈ body.used bindings := fun key hkey => by
    simp [Body.mem_unused_iff, hkey]
  refine ⟨fun key h => ⟨?_, compile_without hbody h⟩, fun count key h => ?_, ?_, ?_,
    fun key value hkey => ?_⟩
  · simp only [drop, dropReported, compiler, h]
  · obtain ⟨hcount, rfl⟩ := List.getElem?_eq_some_iff.mp h
    have hleft := unused_keep_take body bindings count
    rw [List.drop_eq_getElem_cons hcount] at hleft
    rw [iterate_dropReported hbody (Nat.le_of_lt hcount)]
    exact (compile_eq_error_iff hbody).mpr ⟨_, _, hleft, rfl⟩
  · rw [iterate_dropReported hbody (Nat.le_refl _), List.take_length]
    exact Index.keep_congr hnone
  · have hsuffices : Bindings.Suffices (body.used bindings)
        (bindings.keep (· ∈ body.used bindings)) bindings :=
      Body.suffices_keep fun key hkey => hkey
    refine (compile_eq_ok_iff hbody).mpr ⟨?_, (Body.fill_of_suffices hsuffices).symm⟩
    rw [Body.unused_keep fun key hkey => hkey, List.filter_eq_nil_iff]
    intro key hkey
    simpa using (Body.mem_unused_iff.mp hkey).2
  · have hsuffices := Body.suffices_insert hkey
    exact ⟨(Body.used_of_suffices hsuffices).symm, (Body.fill_of_suffices hsuffices).symm,
      compile_insert hbody hkey⟩

/-- Here a key with braces and another key are not used, and then a third one is bound. -/
theorem two_reported_keys_are_dropped :
    let body : Body := .chat
      [⟨"user", "\x7b\x7ba\x7d\x7db\x7d\x7d"⟩, ⟨"user", "\x7b\x7b\x7ba\x7d\x7d"⟩]
    let filled : Body := .chat [⟨"user", "1b\x7d\x7d"⟩, ⟨"user", "\x7b1"⟩]
    let compiler : Compiler := ⟨some body⟩
    let bindings : Bindings := Index.ofList [("x", "3"), ("a\x7d\x7db", "2"), ("a", "1")]
    let first := bindings.without "a\x7d\x7db"
    body.isEmpty = false ∧
      compiler.compile bindings body.kind = .error (.unknownVariable "a\x7d\x7db") ∧
      body.fill first = filled ∧
      (body.unused bindings)[1]? = some "x" ∧
      compiler.compile ((compiler.dropReported body.kind)^[1] bindings) body.kind =
        .error (.unknownVariable "x") ∧
      compiler.compile (bindings.keep (· ∈ body.used bindings)) body.kind = .ok filled ∧
      "b" ∉ body.used (bindings.insert "b" "4") ∧
      body.fill (bindings.insert "b" "4") = filled := by
  intro body filled compiler bindings first
  have hbody : body.isEmpty = false := rfl
  have hfilled : body.fill bindings = filled := by decide +kernel
  have hreported : compiler.compile bindings body.kind =
      .error (.unknownVariable "a\x7d\x7db") := by decide +kernel
  have hsecond : (body.unused bindings)[1]? = some "x" := by decide +kernel
  have hkey : "b" ∉ body.used (bindings.insert "b" "4") := by decide +kernel
  obtain ⟨hdrop, hnext, -, hkept, hinsert⟩ :=
    dropping_reported_keys_repairs hbody bindings
  obtain ⟨-, -, hfirst, -⟩ := hdrop _ hreported
  exact ⟨hbody, hreported, hfirst.trans hfilled, hsecond, hnext 1 "x" hsecond,
    hfilled ▸ hkept, hkey, (hinsert "b" "4" hkey).2.1.trans hfilled⟩

end Compiler

end PromptRegistry

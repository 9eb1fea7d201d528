import Mathlib.Data.List.TakeWhile
import PromptRegistry.Text.Basic

namespace PromptRegistry

section

variable {separator : Char → Bool} {text before after : List Char}

theorem splitFirst_eq_iff : splitFirst separator text = (before, after) ↔
    text = before ++ after ∧ (∀ c ∈ before, separator c = false) ∧
      ∀ c ∈ after.head?, separator c = true := by
  constructor
  · intro h
    obtain ⟨rfl, rfl⟩ := Prod.mk.inj h
    refine ⟨List.takeWhile_append_dropWhile.symm, fun c hc => ?_, fun c hc => ?_⟩
    · simpa using List.all_eq_true.mp List.all_takeWhile c hc
    · have hhead := List.head?_dropWhile_not (fun c => !separator c) text
      rw [Option.mem_def.mp hc] at hhead
      simpa using hhead
  · rintro ⟨rfl, hbefore, hafter⟩
    have hall : ∀ c ∈ before, (!separator c) = true := by simpa using hbefore
    unfold splitFirst
    rw [List.takeWhile_append_of_pos hall, List.dropWhile_append_of_pos hall]
    cases after with
    | nil => simp
    | cons c after => simp [hafter c rfl]

theorem splitFirst_of_not_mem {c : Char} (hbefore : c ∉ before)
    (hafter : ∀ d ∈ after.head?, d = c) : splitFirst (· == c) (before ++ after) = (before, after) := by
  apply splitFirst_eq_iff.mpr
  refine ⟨rfl, ?_, by simpa using hafter⟩
  intro d hd
  simpa using fun heq : d = c => hbefore (heq ▸ hd)

theorem splitParts_ne_nil (text : List Char) : splitParts separator text ≠ [] := by
  induction text with
  | nil => simp [splitParts]
  | cons c cs ih =>
      rw [splitParts]
      split
      · simp
      · cases hparts : splitParts separator cs <;> simp

theorem splitParts_separator {c : Char} (hc : separator c = true) (text : List Char) :
    splitParts separator (c :: text) = [] :: splitParts separator text := by
  rw [splitParts, if_pos hc]

theorem splitParts_cons {c : Char} (hc : separator c = false) (text : List Char) :
    ∃ part parts, splitParts separator text = part :: parts ∧
      splitParts separator (c :: text) = (c :: part) :: parts := by
  obtain ⟨part, parts, hparts⟩ := List.exists_cons_of_ne_nil (splitParts_ne_nil text)
  exact ⟨part, parts, hparts, by simp [splitParts, hc, hparts]⟩

theorem of_mem_splitParts {part : List Char} (h : part ∈ splitParts separator text) :
    ∀ c ∈ part, separator c = false ∧ c ∈ text := by
  induction text generalizing part with
  | nil => simp_all [splitParts]
  | cons c cs ih =>
      cases hc : separator c with
      | true =>
          rw [splitParts_separator hc, List.mem_cons] at h
          rcases h with rfl | h
          · simp
          · exact fun d hd => ⟨(ih h d hd).1, List.mem_cons_of_mem c (ih h d hd).2⟩
      | false =>
          obtain ⟨first, parts, hparts, hcons⟩ := splitParts_cons hc cs
          rw [hparts] at ih
          rw [hcons, List.mem_cons] at h
          intro d hd
          rcases h with rfl | h
          · rcases List.mem_cons.mp hd with rfl | hd
            · exact ⟨hc, List.mem_cons_self⟩
            · have hfirst := ih List.mem_cons_self d hd
              exact ⟨hfirst.1, List.mem_cons_of_mem c hfirst.2⟩
          · have hpart := ih (List.mem_cons_of_mem first h) d hd
            exact ⟨hpart.1, List.mem_cons_of_mem c hpart.2⟩

theorem splitParts_append {part : List Char} (hpart : ∀ c ∈ part, separator c = false)
    {rest : List Char} {parts : List (List Char)}
    (hrest : splitParts separator rest = [] :: parts) :
    splitParts separator (part ++ rest) = part :: parts := by
  induction part with
  | nil => exact hrest
  | cons c part ih =>
      obtain ⟨hc, hpart⟩ := List.forall_mem_cons.mp hpart
      rw [List.cons_append, splitParts, ih hpart, hc]
      rfl

/-- Parts that are written behind separators are found again, after an empty one. -/
theorem splitParts_flatMap {c : Char} (hc : separator c = true) {parts : List (List Char)}
    (hparts : ∀ part ∈ parts, ∀ d ∈ part, separator d = false) :
    splitParts separator (parts.flatMap (c :: ·)) = [] :: parts := by
  induction parts with
  | nil => rfl
  | cons part parts ih =>
      obtain ⟨hpart, hparts⟩ := List.forall_mem_cons.mp hparts
      rw [List.flatMap_cons, List.cons_append, splitParts_separator hc,
        splitParts_append hpart (ih hparts)]

theorem splitParts_concat {c : Char} (hc : separator c = true) (text : List Char) :
    splitParts separator (text ++ [c]) = splitParts separator text ++ [[]] := by
  induction text with
  | nil => rw [List.nil_append, splitParts_separator hc]; rfl
  | cons d text ih =>
      cases hd : separator d with
      | true => rw [List.cons_append, splitParts_separator hd, splitParts_separator hd, ih]; rfl
      | false =>
          obtain ⟨part, parts, hparts, hcons⟩ := splitParts_cons hd text
          rw [List.cons_append, splitParts, ih, hcons, hparts, hd]
          rfl

end

section

variable {p : Char → Bool}

theorem dropWhile_append_of_head {before rest : List Char} (hbefore : ∀ c ∈ before, p c = true)
    (hrest : ∀ c ∈ rest.head?, p c = false) : (before ++ rest).dropWhile p = rest := by
  rw [List.dropWhile_append_of_pos hbefore]
  cases rest with
  | nil => rfl
  | cons c rest => rw [List.dropWhile_cons, hrest c rfl, if_neg Bool.false_ne_true]

theorem exists_append_dropWhile (text : List Char) :
    ∃ before, text = before ++ text.dropWhile p ∧ (∀ c ∈ before, p c = true) ∧
      ∀ c ∈ (text.dropWhile p).head?, p c = false := by
  refine ⟨text.takeWhile p, List.takeWhile_append_dropWhile.symm,
    List.all_eq_true.mp List.all_takeWhile, fun c hc => ?_⟩
  have hhead := List.head?_dropWhile_not p text
  rwa [Option.mem_def.mp hc] at hhead

theorem dropEndWhile_append_of_getLast {text after : List Char}
    (hafter : ∀ c ∈ after, p c = true) (htext : ∀ c ∈ text.getLast?, p c = false) :
    dropEndWhile p (text ++ after) = text := by
  rw [dropEndWhile, List.reverse_append, dropWhile_append_of_head, List.reverse_reverse]
  · simpa using hafter
  · rwa [List.head?_reverse]

theorem exists_dropEndWhile_append (text : List Char) :
    ∃ after, text = dropEndWhile p text ++ after ∧ (∀ c ∈ after, p c = true) ∧
      ∀ c ∈ (dropEndWhile p text).getLast?, p c = false := by
  obtain ⟨before, htext, hbefore, hhead⟩ := exists_append_dropWhile (p := p) text.reverse
  refine ⟨before.reverse, ?_, by simpa using hbefore, ?_⟩
  · rw [dropEndWhile, ← List.reverse_append, ← htext, List.reverse_reverse]
  · rwa [dropEndWhile, List.getLast?_reverse]

/-- A part of a text that nothing but white space stands around, and that has none at its ends. -/
def IsTrimmed (text inner : String) : Prop :=
  ∃ before after, text.toList = before ++ inner.toList ++ after ∧
    (∀ c ∈ before, isWhiteSpace c = true) ∧ (∀ c ∈ after, isWhiteSpace c = true) ∧
    (∀ c ∈ inner.toList.head?, isWhiteSpace c = false) ∧
    ∀ c ∈ inner.toList.getLast?, isWhiteSpace c = false

variable {text inner : String}

theorem IsTrimmed.eq_trim (h : IsTrimmed text inner) : inner = trim text := by
  obtain ⟨before, after, htext, hbefore, hafter, hhead, hlast⟩ := h
  rw [trim, htext, ← String.ofList_toList (s := inner), String.toList_ofList]
  refine congrArg String.ofList ?_
  cases hinner : inner.toList with
  | nil =>
      have hall : ∀ c ∈ before ++ after, isWhiteSpace c = true :=
        fun c hc => (List.mem_append.mp hc).elim (hbefore c) (hafter c)
      have hdrop : (before ++ after).dropWhile isWhiteSpace = [] := List.dropWhile_eq_nil_iff.mpr hall
      rw [trimBoth, List.append_nil, hdrop]
      rfl
  | cons c cs =>
      rw [hinner] at hhead hlast
      rw [trimBoth, List.append_assoc, dropWhile_append_of_head hbefore (by simpa using hhead),
        dropEndWhile_append_of_getLast hafter hlast]

theorem isTrimmed_trim (text : String) : IsTrimmed text (trim text) := by
  have htrim : (trim text).toList = dropEndWhile isWhiteSpace (text.toList.dropWhile isWhiteSpace) :=
    String.toList_ofList
  obtain ⟨before, hbefore⟩ := exists_append_dropWhile (p := isWhiteSpace) text.toList
  obtain ⟨after, hafter⟩ :=
    exists_dropEndWhile_append (p := isWhiteSpace) (text.toList.dropWhile isWhiteSpace)
  rw [← htrim] at hafter
  refine ⟨before, after, ?_, hbefore.2.1, hafter.2.1, fun c hc => ?_, hafter.2.2⟩
  · rw [List.append_assoc, ← hafter.1]
    exact hbefore.1
  · refine hbefore.2.2 c ?_
    rw [hafter.1, List.head?_append, Option.mem_def.mp hc]
    rfl

theorem isTrimmed_iff : IsTrimmed text inner ↔ inner = trim text :=
  ⟨IsTrimmed.eq_trim, fun h => h ▸ isTrimmed_trim text⟩

end

end PromptRegistry

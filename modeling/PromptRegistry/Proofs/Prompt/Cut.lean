import Mathlib.Data.List.Forall2
import PromptRegistry.Prompt.Compiler
import PromptRegistry.Proofs.Index.Lookup

/-! # Cutting templates -/

namespace PromptRegistry.Template

/-- The piece that a text begins with. -/
inductive Piece.Begins (bound : List Char → Bool) : List Char → Piece → Prop
  | placeholder {key text : List Char} (hbound : bound key = true)
      (htext : (Piece.placeholder key).source <+: text)
      (hshortest : ∀ other, bound other = true → (Piece.placeholder other).source <+: text →
        key.length ≤ other.length) : Begins bound text (.placeholder key)
  | character {c : Char} {text : List Char}
      (hnone : ∀ key, bound key = true → ¬(Piece.placeholder key).source <+: c :: text) :
      Begins bound (c :: text) (.character c)

/-- Consecutive pieces of a template, each of which begins the text from it on. -/
structure IsCut (bound : List Char → Bool) (template : List Char) (pieces : List Piece) :
    Prop where
  source : pieces.flatMap Piece.source = template
  begins : ∀ before piece after, pieces = before ++ piece :: after →
    piece.Begins bound ((piece :: after).flatMap Piece.source)

variable {bound : List Char → Bool} {longest : Nat}

/-- The key found continues with double braces, and no shorter one that is bound does. -/
theorem closeKey?_eq_some {reversed text key : List Char} {room : Nat}
    (h : closeKey? bound reversed room text = some key) :
    ∃ more, key = reversed.reverse ++ more ∧ bound key = true ∧ more ++ ['}', '}'] <+: text ∧
      ∀ other, bound (reversed.reverse ++ other) = true → other ++ ['}', '}'] <+: text →
        more.length ≤ other.length := by
  induction text generalizing reversed room with
  | nil => cases h
  | cons c cs ih =>
      rw [closeKey?.eq_def] at h
      dsimp only at h
      split at h
      case isTrue hclose =>
        obtain ⟨rfl, hnext, hbound⟩ := hclose
        obtain ⟨rest, rfl⟩ : ∃ rest, cs = '}' :: rest := List.head?_eq_some_iff.mp hnext
        have hkey : key = reversed.reverse := (Option.some.inj h).symm
        subst hkey
        exact ⟨[], by simp, hbound, by simp, fun _ _ _ => Nat.zero_le _⟩
      case isFalse hclose =>
        cases room with
        | zero => cases h
        | succ room =>
            obtain ⟨more, hkey, hbound, htext, hshortest⟩ := ih h
            refine ⟨c :: more, by simpa using hkey, hbound, ?_, fun other hother hstarts => ?_⟩
            · simpa using htext
            · cases other with
              | nil =>
                  obtain ⟨rest, hrest⟩ := hstarts
                  obtain ⟨rfl, rfl⟩ := List.cons.inj hrest
                  exact absurd ⟨rfl, rfl, by simpa using hother⟩ hclose
              | cons d other =>
                  obtain ⟨rfl, hrest⟩ := List.cons_prefix_cons.mp hstarts
                  exact Nat.succ_le_succ (hshortest other (by simpa using hother) hrest)

theorem closeKey?_eq_none {reversed text more : List Char} {room : Nat}
    (h : closeKey? bound reversed room text = none) (hroom : more.length ≤ room)
    (hstarts : more ++ ['}', '}'] <+: text) : bound (reversed.reverse ++ more) = false := by
  induction text generalizing reversed room more with
  | nil => simp at hstarts
  | cons c cs ih =>
      rw [closeKey?.eq_def] at h
      dsimp only at h
      split at h
      case isTrue => cases h
      case isFalse hclose =>
        cases more with
        | nil =>
            obtain ⟨rest, hrest⟩ := hstarts
            obtain ⟨rfl, rfl⟩ := List.cons.inj hrest
            simpa using hclose
        | cons d more =>
            obtain ⟨rfl, hrest⟩ := List.cons_prefix_cons.mp hstarts
            cases room with
            | zero => simp at hroom
            | succ room =>
                have hbound := ih h (Nat.le_of_succ_le_succ hroom) hrest
                simpa using hbound

theorem source_prefix_iff {key text : List Char} :
    (Piece.placeholder key).source <+: text ↔
      ∃ inner, text = '{' :: '{' :: inner ∧ key ++ ['}', '}'] <+: inner := by
  constructor
  · intro h
    obtain ⟨rest, rfl⟩ := h
    exact ⟨key ++ ['}', '}'] ++ rest, rfl, List.prefix_append _ _⟩
  · intro h
    obtain ⟨inner, rfl, hinner⟩ := h
    exact List.cons_prefix_cons.mpr ⟨rfl, List.cons_prefix_cons.mpr ⟨rfl, hinner⟩⟩

theorem begins_of_placeholder? {text key : List Char}
    (h : placeholder? bound longest text = some key) :
    (Piece.placeholder key).Begins bound text := by
  unfold placeholder? at h
  split at h
  case h_1 inner =>
    obtain ⟨more, hkey, hbound, hstarts, hshortest⟩ := closeKey?_eq_some h
    have hmore : key = more := by simpa using hkey
    subst hmore
    refine .placeholder hbound (source_prefix_iff.mpr ⟨inner, rfl, hstarts⟩) ?_
    intro other hother htext
    obtain ⟨inner', heq, hinner⟩ := source_prefix_iff.mp htext
    have hsame : inner = inner' := List.cons.inj (List.cons.inj heq).2 |>.2
    subst hsame
    exact hshortest other (by simpa using hother) hinner
  case h_2 => cases h

theorem begins_of_not_placeholder? (hlongest : ∀ key, bound key = true → key.length ≤ longest)
    {c : Char} {text : List Char} (h : placeholder? bound longest (c :: text) = none) :
    (Piece.character c).Begins bound (c :: text) := by
  refine .character fun key hkey htext => ?_
  obtain ⟨inner, heq, hinner⟩ := source_prefix_iff.mp htext
  rw [heq, placeholder?] at h
  have hbound := closeKey?_eq_none h (hlongest key hkey) hinner
  rw [List.reverse_nil, List.nil_append, hkey] at hbound
  cases hbound

theorem Piece.source_ne_nil (piece : Piece) : piece.source ≠ [] := by
  cases piece <;> simp [source]

namespace Piece.Begins

variable {text : List Char} {first second : Piece}

theorem source_prefix (h : first.Begins bound text) : first.source <+: text := by
  cases h with
  | placeholder hbound htext hshortest => exact htext
  | character hnone => exact List.cons_prefix_cons.mpr ⟨rfl, List.nil_prefix⟩

theorem unique (hfirst : first.Begins bound text) (hsecond : second.Begins bound text) :
    first = second := by
  cases hfirst with
  | placeholder hbound htext hshortest =>
      cases hsecond with
      | placeholder hbound' htext' hshortest' =>
          -- both sources stand at the front of the text, and they are of the same length
          have hlength := Nat.le_antisymm (hshortest _ hbound' htext') (hshortest' _ hbound htext)
          have hsource := List.prefix_of_prefix_length_le htext htext' (by simp [source, hlength])
          have heq := hsource.eq_of_length (by simp [source, hlength])
          simpa [source] using heq
      | character hnone => exact absurd htext (hnone _ hbound)
  | character hnone =>
      cases hsecond with
      | placeholder hbound htext hshortest => exact absurd htext (hnone _ hbound)
      | character => rfl

end Piece.Begins

theorem isCut_nil_iff {pieces : List Piece} : IsCut bound [] pieces ↔ pieces = [] := by
  constructor
  · intro h
    cases pieces with
    | nil => rfl
    | cons piece pieces =>
        have hsource := (List.append_eq_nil_iff.mp h.source).1
        exact absurd hsource piece.source_ne_nil
  · intro h
    subst h
    exact ⟨rfl, fun before piece after heq => by simp at heq⟩

theorem isCut_cons_iff {template : List Char} {piece : Piece} {pieces : List Piece} :
    IsCut bound template (piece :: pieces) ↔
      piece.Begins bound template ∧
        ∃ rest, template = piece.source ++ rest ∧ IsCut bound rest pieces := by
  constructor
  · intro h
    have hbegins := h.begins [] piece pieces rfl
    rw [h.source] at hbegins
    refine ⟨hbegins, pieces.flatMap Piece.source, h.source.symm, rfl, ?_⟩
    intro before other after heq
    exact h.begins (piece :: before) other after (by rw [heq, List.cons_append])
  · intro h
    obtain ⟨hbegins, rest, rfl, hrest⟩ := h
    have hsource : (piece :: pieces).flatMap Piece.source = piece.source ++ rest := by
      rw [List.flatMap_cons, hrest.source]
    refine ⟨hsource, fun before other after heq => ?_⟩
    cases before with
    | nil =>
        obtain ⟨rfl, rfl⟩ := List.cons.inj heq
        rwa [hsource]
    | cons head before =>
        obtain ⟨rfl, rfl⟩ := List.cons.inj heq
        exact hrest.begins before other after rfl

/-- Two cuts agree piece by piece, since each piece is the only one that begins the text there. -/
theorem IsCut.unique {template : List Char} {first second : List Piece}
    (hfirst : IsCut bound template first) (hsecond : IsCut bound template second) :
    first = second := by
  induction first generalizing template second with
  | nil =>
      obtain rfl : [] = template := hfirst.source
      exact (isCut_nil_iff.mp hsecond).symm
  | cons piece first ih =>
      obtain ⟨hbegins, rest, htemplate, hrest⟩ := isCut_cons_iff.mp hfirst
      cases second with
      | nil =>
          obtain rfl : [] = template := hsecond.source
          exact absurd (List.append_eq_nil_iff.mp htemplate.symm).1 piece.source_ne_nil
      | cons other second =>
          obtain ⟨hother, rest', htemplate', hrest'⟩ := isCut_cons_iff.mp hsecond
          have hpiece := hbegins.unique hother
          subst hpiece
          have hsame : rest = rest' := List.append_cancel_left (htemplate.symm.trans htemplate')
          subst hsame
          rw [ih hrest hrest']

/-- Where no bound key is longer than looked for, the pieces are a cut. -/
theorem isCut_cut (hlongest : ∀ key, bound key = true → key.length ≤ longest)
    (template : List Char) : IsCut bound template (cut bound longest template) := by
  fun_induction cut bound longest template with
  | case1 => exact isCut_nil_iff.mpr rfl
  | case2 c cs key hkey ih =>
      have hbegins := begins_of_placeholder? hkey
      obtain ⟨rest, hrest⟩ := hbegins.source_prefix
      have hdrop : cs.drop (key.length + 3) = rest := by
        have hcs : '{' :: key ++ ['}', '}'] ++ rest = cs := (List.cons.inj hrest).2
        rw [← hcs]
        exact List.drop_left' (by simp)
      rw [hdrop] at ih ⊢
      exact isCut_cons_iff.mpr ⟨hbegins, rest, hrest.symm, ih⟩
  | case3 c cs hnone ih =>
      exact isCut_cons_iff.mpr ⟨begins_of_not_placeholder? hlongest hnone, cs, rfl, ih⟩

theorem isBound_iff {bindings : Bindings} {key : List Char} :
    isBound bindings key = true ↔ String.ofList key ∈ bindings.keys := by
  rw [isBound, Option.isSome_iff_ne_none, Index.mem_keys_iff]

theorem isBound_toList {bindings : Bindings} {key : String} :
    isBound bindings key.toList = true ↔ key ∈ bindings.keys := by
  rw [isBound_iff, String.ofList_toList]

private theorem length_le_foldl_max (keys : List String) (longest : Nat) :
    longest ≤ keys.foldl (fun longest key => max longest key.toList.length) longest ∧
      ∀ key ∈ keys, key.toList.length ≤
        keys.foldl (fun longest key => max longest key.toList.length) longest := by
  induction keys generalizing longest with
  | nil => simp
  | cons head keys ih =>
      obtain ⟨hlongest, hkeys⟩ := ih (max longest head.toList.length)
      rw [List.foldl_cons]
      refine ⟨by omega, List.forall_mem_cons.mpr ⟨by omega, hkeys⟩⟩

theorem length_le_longestKey {bindings : Bindings} {key : List Char}
    (h : isBound bindings key = true) : key.length ≤ longestKey bindings := by
  have hlength := (length_le_foldl_max bindings.keys 0).2 _ (isBound_iff.mp h)
  rwa [String.toList_ofList] at hlength

theorem isCut_pieces (bindings : Bindings) (template : String) :
    IsCut (isBound bindings) template.toList (pieces bindings template) :=
  isCut_cut (fun _ => length_le_longestKey) template.toList

theorem isCut_iff {bindings : Bindings} {template : String} {cut : List Piece} :
    IsCut (isBound bindings) template.toList cut ↔ cut = pieces bindings template := by
  constructor
  · intro h
    exact h.unique (isCut_pieces bindings template)
  · intro h
    subst h
    exact isCut_pieces bindings template

theorem isBound_of_placeholder_mem {template : List Char} {pieces : List Piece} {key : List Char}
    (h : IsCut bound template pieces) (hkey : .placeholder key ∈ pieces) : bound key = true := by
  obtain ⟨before, after, hpieces⟩ := List.append_of_mem hkey
  cases h.begins before _ after hpieces with
  | placeholder hbound htext hshortest => exact hbound

theorem mem_used_iff {bindings : Bindings} {template key : String} :
    key ∈ used bindings template ↔ .placeholder key.toList ∈ pieces bindings template := by
  rw [used, List.mem_filterMap]
  constructor
  · intro h
    obtain ⟨piece, hpiece, hkey⟩ := h
    cases piece with
    | character c => cases hkey
    | placeholder other =>
        obtain rfl : String.ofList other = key := Option.some.inj hkey
        rwa [String.toList_ofList]
  · intro h
    exact ⟨_, h, by simp [Piece.key?]⟩

theorem pieces_congr {bindings other : Bindings} (h : other.keys = bindings.keys)
    (template : String) : pieces other template = pieces bindings template := by
  have hbound : isBound other = isBound bindings := by
    funext key
    rw [Bool.eq_iff_iff, isBound_iff, isBound_iff, h]
  have hcut := isCut_pieces other template
  rw [hbound] at hcut
  exact isCut_iff.mp hcut

/-- What a piece contributes: a character itself, and a placeholder the value of its key. -/
inductive Piece.Yields (bindings : Bindings) : Piece → List Char → Prop
  | character (c : Char) : Yields bindings (.character c) [c]
  | placeholder {key : List Char} {value : String}
      (h : bindings.get? (String.ofList key) = some value) :
      Yields bindings (.placeholder key) value.toList

/-- A key in double braces. -/
def placeholderText (key : String) : String := String.ofList (Piece.placeholder key.toList).source

/-- The text that is put in place of a piece. -/
def Piece.filled (bindings : Bindings) (piece : Piece) : List Char :=
  piece.fill fun key => ((bindings.get? (String.ofList key)).getD "").toList

theorem substitute_toList (bindings : Bindings) (template : String) :
    (substitute bindings template).toList =
      ((pieces bindings template).map (Piece.filled bindings)).flatten := by
  rw [substitute, String.toList_ofList, List.flatMap_def]
  rfl

theorem Piece.yields_filled {bindings : Bindings} {template : String} {piece : Piece}
    (h : piece ∈ pieces bindings template) : piece.Yields bindings (piece.filled bindings) := by
  cases piece with
  | character c => exact .character c
  | placeholder key =>
      have hbound := isBound_of_placeholder_mem (isCut_pieces bindings template) h
      obtain ⟨value, hvalue⟩ := Option.isSome_iff_exists.mp hbound
      have hfilled : (Piece.placeholder key).filled bindings = value.toList := by
        rw [filled, fill, hvalue, Option.getD_some]
      rw [hfilled]
      exact .placeholder hvalue

theorem Piece.filled_eq_source {bindings : Bindings} {template : String} {piece : Piece}
    (h : piece ∈ pieces bindings template)
    (hvalues : ∀ key ∈ bindings.keys, bindings.get? key = some (placeholderText key)) :
    piece.filled bindings = piece.source := by
  cases piece with
  | character c => rfl
  | placeholder key =>
      have hbound := isBound_of_placeholder_mem (isCut_pieces bindings template) h
      have hvalue := hvalues _ (isBound_iff.mp hbound)
      rw [filled, fill, hvalue, Option.getD_some, placeholderText, String.toList_ofList,
        String.toList_ofList]

/-- There is one cut of a template. Substitution puts the values of the placeholders in, and uses
their keys. The cut and the keys used are the same for all values, and a template is unchanged when
each key is bound to its own placeholder. -/
theorem substitute_fills_unique_cut (bindings : Bindings) (template : String) :
    (∃! cut, IsCut (isBound bindings) template.toList cut) ∧
      (∀ cut, IsCut (isBound bindings) template.toList cut →
        (∃ texts, List.Forall₂ (Piece.Yields bindings) cut texts ∧
          (substitute bindings template).toList = texts.flatten) ∧
        ∀ key, key ∈ used bindings template ↔ .placeholder key.toList ∈ cut) ∧
      (∀ other : Bindings, other.keys = bindings.keys →
        (∀ cut, IsCut (isBound other) template.toList cut ↔
          IsCut (isBound bindings) template.toList cut) ∧
        used other template = used bindings template) ∧
      ((∀ key ∈ bindings.keys, bindings.get? key = some (placeholderText key)) →
        substitute bindings template = template) := by
  refine ⟨⟨_, isCut_pieces bindings template, fun cut hcut => isCut_iff.mp hcut⟩,
    fun cut hcut => ?_, fun other hkeys => ?_, fun hvalues => ?_⟩
  · have hpieces := isCut_iff.mp hcut
    subst hpieces
    refine ⟨⟨_, ?_, substitute_toList bindings template⟩, fun key => mem_used_iff⟩
    rw [List.forall₂_map_right_iff, List.forall₂_same]
    intro piece hpiece
    exact Piece.yields_filled hpiece
  · have hpieces := pieces_congr hkeys template
    refine ⟨fun cut => ?_, ?_⟩
    · rw [isCut_iff, isCut_iff, hpieces]
    · rw [used, used, hpieces]
  · have hfilled : (pieces bindings template).map (Piece.filled bindings) =
        (pieces bindings template).map Piece.source :=
      List.map_congr_left fun piece hpiece => Piece.filled_eq_source hpiece hvalues
    have hsource := (isCut_pieces bindings template).source
    apply String.toList_injective
    rw [substitute_toList, hfilled, ← List.flatMap_def, hsource]

/-- Here a brace stands before a placeholder, and of two keys that fit the shorter is taken. -/
theorem cut_of_nested_keys :
    let template := "\x7b\x7b\x7ba\x7d\x7db\x7d\x7d"
    let values : Bindings := Index.ofList [("a\x7d\x7db", "2"), ("a", "1")]
    let echo : Bindings :=
      Index.ofList [("a", placeholderText "a"), ("a\x7d\x7db", placeholderText "a\x7d\x7db")]
    let cut : List Piece :=
      [.character '{', .placeholder ['a'], .character 'b', .character '}', .character '}']
    IsCut (isBound values) template.toList cut ∧
      (∃ texts, List.Forall₂ (Piece.Yields values) cut texts ∧
        (substitute values template).toList = texts.flatten) ∧
      echo.keys = values.keys ∧ used echo template = used values template ∧
      (∀ key ∈ echo.keys, echo.get? key = some (placeholderText key)) ∧
      substitute echo template = template := by
  intro template values echo cut
  have hcut : IsCut (isBound values) template.toList cut := isCut_iff.mpr (by decide +kernel)
  have hkeys : echo.keys = values.keys := by decide +kernel
  have hvalues : ∀ key ∈ echo.keys, echo.get? key = some (placeholderText key) := by
    decide +kernel
  obtain ⟨-, hfills, hsame, -⟩ := substitute_fills_unique_cut values template
  obtain ⟨-, -, -, hecho⟩ := substitute_fills_unique_cut echo template
  exact ⟨hcut, (hfills cut hcut).1, hkeys, (hsame echo hkeys).2, hvalues, hecho hvalues⟩

end PromptRegistry.Template

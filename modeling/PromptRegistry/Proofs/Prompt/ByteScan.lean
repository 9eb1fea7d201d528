import Mathlib.Logic.Relation
import PromptRegistry.Proofs.Prompt.Cut
import PromptRegistry.Proofs.Text.Slice

/-! # Filling templates as bytes -/

namespace PromptRegistry.ByteScan

open Template Utf8

def opening : List UInt8 := encode ['{', '{']

def closing : List UInt8 := encode ['}', '}']

abbrev Values : Type := List (List UInt8 × List UInt8)

def valuesOf (bindings : Bindings) : Values :=
  bindings.entries.map fun entry => (encode entry.1.toList, encode entry.2.toList)

/-- A bound key in double braces, its value, and how many bytes it takes with the braces. -/
structure Placeholder where
  key : List UInt8
  value : List UInt8
  length : Nat

/-- Tries offsets one after another as the end of a key. -/
def tryEnds (values : Values) (inner : List UInt8) :
    List Nat → Except SliceFault (Option Placeholder)
  | [] => return none
  | stop :: stops => do
      let tail ← sliceFrom inner stop
      if closing <+: tail then
        let key ← sliceTo inner stop
        match values.lookup key with
        | some value => return some ⟨key, value, opening.length + stop + closing.length⟩
        | none => tryEnds values inner stops
      else tryEnds values inner stops

/-- The placeholder at the front of bytes that begin with double braces. Its key may end wherever a
character begins. -/
def placeholder? (values : Values) (candidate : List UInt8) :
    Except SliceFault (Option Placeholder) := do
  let inner ← sliceFrom candidate opening.length
  tryEnds values inner (charOffsets inner)

/-- What has been put out, the keys used for it, and the bytes that are left. -/
structure State where
  output : List UInt8
  used : List (List UInt8)
  rest : List UInt8
  deriving DecidableEq, Repr

def State.start (template : List UInt8) : State := ⟨[], [], template⟩

/-- One round: up to the next double braces, and past a placeholder or past one brace. -/
def step (values : Values) (state : State) : Except SliceFault (Option State) :=
  match find? opening state.rest with
  | none => return none
  | some start => do
      let before ← sliceTo state.rest start
      let candidate ← sliceFrom state.rest start
      match ← placeholder? values candidate with
      | some found =>
          let rest ← sliceFrom candidate found.length
          return some ⟨state.output ++ before ++ found.value, state.used ++ [found.key], rest⟩
      | none =>
          let rest ← sliceFrom candidate 1
          return some ⟨state.output ++ before ++ encode ['{'], state.used, rest⟩

private theorem exists_of_bind_eq_ok {α β : Type} {result : Except SliceFault α}
    {next : α → Except SliceFault β} {b : β} (h : result >>= next = .ok b) :
    ∃ a, result = .ok a ∧ next a = .ok b := by
  cases result with
  | error fault => cases h
  | ok a => exact ⟨a, rfl, h⟩

theorem tryEnds_length {values : Values} {inner : List UInt8} {stops : List Nat}
    {found : Placeholder} (h : tryEnds values inner stops = .ok (some found)) :
    0 < found.length := by
  induction stops with
  | nil => cases h
  | cons stop stops ih =>
      rw [tryEnds] at h
      obtain ⟨tail, -, h⟩ := exists_of_bind_eq_ok h
      split at h
      case isTrue =>
        obtain ⟨key, -, h⟩ := exists_of_bind_eq_ok h
        split at h
        case h_1 value _ =>
          cases h
          exact Nat.add_pos_right _ (by decide)
        case h_2 => exact ih h
      case isFalse => exact ih h

theorem step_shorter {values : Values} {state next : State}
    (h : step values state = .ok (some next)) : next.rest.length < state.rest.length := by
  rw [step] at h
  split at h
  case h_1 => cases h
  case h_2 start _ =>
    obtain ⟨before, -, h⟩ := exists_of_bind_eq_ok h
    obtain ⟨candidate, hcandidate, h⟩ := exists_of_bind_eq_ok h
    obtain ⟨found, hfound, h⟩ := exists_of_bind_eq_ok h
    have hlength := length_of_sliceFrom hcandidate
    cases found with
    | some found =>
        obtain ⟨inner, -, hends⟩ := exists_of_bind_eq_ok hfound
        obtain ⟨rest, hrest, h⟩ := exists_of_bind_eq_ok h
        cases h
        have hpast := length_of_sliceFrom hrest
        have hpos := tryEnds_length hends
        show rest.length < state.rest.length
        omega
    | none =>
        obtain ⟨rest, hrest, h⟩ := exists_of_bind_eq_ok h
        cases h
        have hpast := length_of_sliceFrom hrest
        show rest.length < state.rest.length
        omega

/-- All rounds, and then the bytes that are left. -/
def run (values : Values) (state : State) : Except SliceFault State :=
  match _hstep : step values state with
  | .error fault => .error fault
  | .ok none => .ok ⟨state.output ++ state.rest, state.used, []⟩
  | .ok (some next) => run values next
termination_by state.rest.length
decreasing_by exact step_shorter _hstep

/-- Some rounds lead from one state to the other. -/
def Reaches (values : Values) : State → State → Prop :=
  Relation.ReflTransGen fun before after => step values before = .ok (some after)

theorem lookup_valuesOf (bindings : Bindings) (key : List Char) :
    (valuesOf bindings).lookup (encode key) =
      (bindings.get? (String.ofList key)).map fun value => encode value.toList := by
  rw [valuesOf, Index.get?]
  induction bindings.entries with
  | nil => rfl
  | cons entry entries ih =>
      by_cases hkey : String.ofList key = entry.1
      · simp [valueAt?, ← hkey]
      · have hne : encode key ≠ encode entry.1.toList := fun h =>
          hkey (by rw [encode_injective h, String.ofList_toList])
        simp [List.lookup_cons, valueAt?, hkey, beq_eq_false_iff_ne.mpr hne, ih]

/-- What is found in the bytes of a text that begins with double braces: the piece that begins it,
where that is a placeholder, and otherwise nothing. -/
inductive Finds (bindings : Bindings) (text : List Char) : Option Placeholder → Prop
  | placeholder {key : List Char} {value : String}
      (hvalue : bindings.get? (String.ofList key) = some value)
      (hbegins : (Piece.placeholder key).Begins (isBound bindings) text) :
      Finds bindings text (some
        ⟨encode key, encode value.toList, (encode (Piece.placeholder key).source).length⟩)
  | brace (hbegins : (Piece.character '{').Begins (isBound bindings) text) :
      Finds bindings text none

variable {bindings : Bindings}

theorem length_source (key : List Char) :
    (encode (Piece.placeholder key).source).length =
      opening.length + (encode key).length + closing.length := by
  have hsource : (Piece.placeholder key).source = ['{', '{'] ++ key ++ ['}', '}'] := rfl
  rw [hsource, encode_append, encode_append, List.length_append, List.length_append]
  rfl

theorem tryEnds_cons (done rest : List Char) (stops : List Nat) :
    tryEnds (valuesOf bindings) (encode (done ++ rest)) ((encode done).length :: stops) =
      if ['}', '}'] <+: rest then
        match bindings.get? (String.ofList done) with
        | some value => .ok (some
            ⟨encode done, encode value.toList, (encode (Piece.placeholder done).source).length⟩)
        | none => tryEnds (valuesOf bindings) (encode (done ++ rest)) stops
      else tryEnds (valuesOf bindings) (encode (done ++ rest)) stops := by
  rw [tryEnds, sliceFrom_encode, sliceTo_encode, length_source]
  simp only [bind, Except.bind, closing, encode_prefix_iff, lookup_valuesOf]
  cases bindings.get? (String.ofList done) <;> rfl

/-- No bound key that is closed in a text is shorter than what has been gone past of it. -/
def NoShorter (bindings : Bindings) (past rest : List Char) : Prop :=
  ∀ key, isBound bindings key = true → key ++ ['}', '}'] <+: past ++ rest →
    past.length ≤ key.length

namespace NoShorter

variable {past rest : List Char}

theorem of_nil : NoShorter bindings [] rest := fun _ _ _ => Nat.zero_le _

/-- A key of the same length as what has been gone past would be that text itself. -/
theorem next {c : Char} (h : NoShorter bindings past (c :: rest))
    (hnot : isBound bindings past = true → ¬['}', '}'] <+: c :: rest) :
    NoShorter bindings (past ++ [c]) rest := by
  intro key hkey hclosed
  rw [List.append_assoc, List.singleton_append] at hclosed
  have hle := h key hkey hclosed
  rw [List.length_append, List.length_singleton]
  apply Nat.lt_of_le_of_ne hle
  intro hlength
  obtain ⟨after, hafter⟩ := hclosed
  rw [List.append_assoc] at hafter
  obtain ⟨hsame, hrest⟩ := List.append_inj hafter hlength.symm
  rw [hsame] at hkey
  exact hnot hkey ⟨after, hrest⟩

theorem begins (h : NoShorter bindings past rest) (hbound : isBound bindings past = true)
    (hclosed : ['}', '}'] <+: rest) :
    (Piece.placeholder past).Begins (isBound bindings) ('{' :: '{' :: (past ++ rest)) := by
  have hinner : past ++ ['}', '}'] <+: past ++ rest :=
    (List.prefix_append_right_inj past).mpr hclosed
  refine .placeholder hbound (source_prefix_iff.mpr ⟨_, rfl, hinner⟩) ?_
  intro key hkey hstarts
  obtain ⟨inner, heq, hkeyClosed⟩ := source_prefix_iff.mp hstarts
  cases heq
  exact h key hkey hkeyClosed

theorem brace (h : NoShorter bindings past []) :
    (Piece.character '{').Begins (isBound bindings) ('{' :: '{' :: (past ++ [])) := by
  apply Piece.Begins.character
  intro key hkey hstarts
  obtain ⟨inner, heq, hclosed⟩ := source_prefix_iff.mp hstarts
  cases heq
  have hge := h key hkey hclosed
  have hle := hclosed.length_le
  simp only [List.length_append, List.length_cons, List.length_nil] at hle
  omega

end NoShorter

/-- The ends are tried from the front, so the first key found is the shortest. -/
theorem tryEnds_finds {past rest : List Char} (h : NoShorter bindings past rest) :
    ∃ found, tryEnds (valuesOf bindings) (encode (past ++ rest))
        ((charOffsets (encode rest)).map (· + (encode past).length)) = .ok found ∧
      Finds bindings ('{' :: '{' :: (past ++ rest)) found := by
  -- What has been gone past grows with each offset, and stays without a shorter key.
  induction rest generalizing past with
  | nil => exact ⟨none, by rw [encode_nil, charOffsets_nil]; rfl, .brace h.brace⟩
  | cons c rest ih =>
      have hstops : (charOffsets (encode (c :: rest))).map (· + (encode past).length) =
          (encode past).length ::
            (charOffsets (encode rest)).map (· + (encode (past ++ [c])).length) := by
        rw [charOffsets_encode_cons, List.map_cons, List.map_map, Nat.zero_add, encode_append,
          List.length_append]
        congr 2
        funext offset
        show offset + (encode [c]).length + (encode past).length = _
        omega
      have htext : past ++ c :: rest = past ++ [c] ++ rest := by simp
      rw [hstops, tryEnds_cons]
      by_cases hclosed : ['}', '}'] <+: c :: rest
      · rw [if_pos hclosed]
        cases hvalue : bindings.get? (String.ofList past) with
        | none =>
            have hbound : isBound bindings past = false := by rw [isBound, hvalue]; rfl
            have hnext := h.next (by simp [hbound])
            rw [htext]
            exact ih hnext
        | some value =>
            have hbound : isBound bindings past = true := by rw [isBound, hvalue]; rfl
            exact ⟨_, rfl, .placeholder hvalue (h.begins hbound hclosed)⟩
      · rw [if_neg hclosed, htext]
        exact ih (h.next fun _ => hclosed)

theorem placeholder?_finds (bindings : Bindings) (inner : List Char) :
    ∃ found, placeholder? (valuesOf bindings) (encode ('{' :: '{' :: inner)) = .ok found ∧
      Finds bindings ('{' :: '{' :: inner) found := by
  have hinner : sliceFrom (encode ('{' :: '{' :: inner)) opening.length = .ok (encode inner) :=
    sliceFrom_encode ['{', '{'] inner
  have hstops : (charOffsets (encode inner)).map (· + (encode []).length) =
      charOffsets (encode inner) := List.map_id _
  have hshortest : NoShorter bindings [] inner := .of_nil
  obtain ⟨found, hfound, hfinds⟩ := tryEnds_finds hshortest
  rw [hstops] at hfound
  refine ⟨found, ?_, hfinds⟩
  rw [placeholder?, hinner]
  exact hfound

theorem isCut_character {c : Char} {text : List Char} {pieces : List Piece}
    (hnot : ¬['{', '{'] <+: c :: text) (h : IsCut (isBound bindings) text pieces) :
    IsCut (isBound bindings) (c :: text) (.character c :: pieces) := by
  refine isCut_cons_iff.mpr ⟨.character fun key _ hstarts => hnot ?_, text, rfl, h⟩
  obtain ⟨inner, hinner, -⟩ := source_prefix_iff.mp hstarts
  rw [hinner]
  exact ⟨inner, rfl⟩

theorem isCut_of_find?_none {text : List Char} (h : find? ['{', '{'] text = none) :
    IsCut (isBound bindings) text (text.map .character) := by
  induction text with
  | nil => exact isCut_nil_iff.mpr rfl
  | cons c text ih =>
      rw [find?] at h
      split at h
      case isTrue => cases h
      case isFalse hnot => exact isCut_character hnot (ih (Option.map_eq_none_iff.mp h))

theorem isCut_of_find?_some (bindings : Bindings) {text : List Char} {count : Nat}
    (h : find? ['{', '{'] text = some count) :
    ∃ before inner, text = before ++ '{' :: '{' :: inner ∧ before.length = count ∧
      ∀ pieces, IsCut (isBound bindings) ('{' :: '{' :: inner) pieces →
        IsCut (isBound bindings) text (before.map .character ++ pieces) := by
  induction text generalizing count with
  | nil => cases h
  | cons c text ih =>
      rw [find?] at h
      split at h
      case isTrue hstarts =>
        cases h
        obtain ⟨inner, hinner⟩ := hstarts
        exact ⟨[], inner, hinner.symm, rfl, fun pieces hpieces => hinner ▸ hpieces⟩
      case isFalse hnot =>
        obtain ⟨shorter, hshorter, rfl⟩ := Option.map_eq_some_iff.mp h
        obtain ⟨before, inner, rfl, rfl, hcut⟩ := ih hshorter
        exact ⟨c :: before, inner, rfl, rfl, fun pieces hpieces =>
          isCut_character hnot (hcut pieces hpieces)⟩

def outputOf (bindings : Bindings) (pieces : List Piece) : List Char :=
  pieces.flatMap (Piece.filled bindings)

def usedIn (pieces : List Piece) : List (List UInt8) := (pieces.filterMap Piece.key?).map encode

/-- What a round does with the bytes of a text: it puts out the pieces that the text begins with, or
there is no round as all pieces are characters. -/
inductive Advances (bindings : Bindings) (state : State) (text : List Char) : Option State → Prop
  | past {pieces : List Piece} {rest : List Char}
      (hcut : ∀ after, IsCut (isBound bindings) rest after →
        IsCut (isBound bindings) text (pieces ++ after)) :
      Advances bindings state text (some ⟨state.output ++ encode (outputOf bindings pieces),
        state.used ++ usedIn pieces, encode rest⟩)
  | done (hcut : IsCut (isBound bindings) text (text.map .character)) :
      Advances bindings state text none

theorem outputOf_append (first second : List Piece) :
    outputOf bindings (first ++ second) = outputOf bindings first ++ outputOf bindings second :=
  List.flatMap_append

theorem usedIn_append (first second : List Piece) :
    usedIn (first ++ second) = usedIn first ++ usedIn second := by
  rw [usedIn, List.filterMap_append, List.map_append]
  rfl

theorem outputOf_characters (text : List Char) :
    outputOf bindings (text.map .character) = text := by
  rw [outputOf, List.flatMap_map]
  exact List.flatMap_singleton' text

theorem usedIn_characters (text : List Char) : usedIn (text.map .character) = [] := by
  rw [usedIn, List.filterMap_map]
  simp [Function.comp_def, Piece.key?]

/-- A round goes past some characters and one more piece. -/
theorem Advances.of_begins (state : State) {before text rest : List Char} {piece : Piece}
    (hbegins : piece.Begins (isBound bindings) (piece.source ++ rest))
    (hcut : ∀ pieces, IsCut (isBound bindings) (piece.source ++ rest) pieces →
      IsCut (isBound bindings) text (before.map .character ++ pieces)) :
    Advances bindings state text (some
      ⟨state.output ++ encode before ++ encode (piece.filled bindings),
        state.used ++ usedIn [piece], encode rest⟩) := by
  have hpast : Advances bindings state text (some
      ⟨state.output ++ encode (outputOf bindings (before.map .character ++ [piece])),
        state.used ++ usedIn (before.map .character ++ [piece]), encode rest⟩) := by
    apply Advances.past
    intro after hafter
    rw [List.append_assoc]
    exact hcut _ (isCut_cons_iff.mpr ⟨hbegins, rest, rfl, hafter⟩)
  have houtput : outputOf bindings (before.map .character ++ [piece]) =
      before ++ piece.filled bindings := by
    rw [outputOf_append, outputOf_characters, outputOf, List.flatMap_singleton]
  have hused : usedIn (before.map .character ++ [piece]) = usedIn [piece] := by
    rw [usedIn_append, usedIn_characters, List.nil_append]
  rwa [houtput, hused, encode_append, ← List.append_assoc] at hpast

theorem step_advances (bindings : Bindings) {state : State} {text : List Char}
    (hrest : state.rest = encode text) :
    ∃ next, step (valuesOf bindings) state = .ok next ∧ Advances bindings state text next := by
  have hfind := find?_encode (List.cons_ne_nil '{' ['{']) text
  cases hcount : find? ['{', '{'] text with
  | none =>
      rw [hcount] at hfind
      refine ⟨none, ?_, .done (isCut_of_find?_none hcount)⟩
      rw [step, hrest, opening, hfind]
      rfl
  | some count =>
      obtain ⟨before, inner, rfl, rfl, hcut⟩ := isCut_of_find?_some bindings hcount
      obtain ⟨found, hfound, hfinds⟩ := placeholder?_finds bindings inner
      rw [hcount, Option.map_some, List.take_left] at hfind
      rw [step, hrest, opening, hfind]
      simp only [sliceTo_encode, sliceFrom_encode, hfound, bind, Except.bind]
      cases hfinds with
      | @placeholder key value hvalue hbegins =>
          obtain ⟨rest, hsource⟩ := hbegins.source_prefix
          rw [← hsource] at hbegins hcut
          have hfilled : (Piece.placeholder key).filled bindings = value.toList := by
            rw [Piece.filled, Piece.fill, hvalue, Option.getD_some]
          have hround := Advances.of_begins state hbegins hcut
          rw [hfilled] at hround
          rw [← hsource]
          dsimp only
          rw [sliceFrom_encode]
          exact ⟨_, rfl, hround⟩
      | brace hbegins =>
          -- The second brace is left, since a placeholder may begin with it.
          have hrest : sliceFrom (encode ('{' :: '{' :: inner)) 1 = .ok (encode ('{' :: inner)) :=
            sliceFrom_encode ['{'] ('{' :: inner)
          have hsource : '{' :: '{' :: inner = (Piece.character '{').source ++ '{' :: inner := rfl
          rw [hsource] at hbegins hcut
          have hround := Advances.of_begins state hbegins hcut
          have hused : state.used ++ usedIn [.character '{'] = state.used := List.append_nil _
          rw [hused] at hround
          dsimp only
          rw [hrest]
          exact ⟨_, rfl, hround⟩

theorem run_eq (bindings : Bindings) {state : State} {text : List Char}
    (hrest : state.rest = encode text) :
    ∃ pieces, IsCut (isBound bindings) text pieces ∧
      run (valuesOf bindings) state = .ok ⟨state.output ++ encode (outputOf bindings pieces),
        state.used ++ usedIn pieces, []⟩ := by
  fun_induction run (valuesOf bindings) state generalizing text with
  | case1 state fault hfault =>
      obtain ⟨next, hnext, -⟩ := step_advances bindings hrest
      rw [hfault] at hnext
      cases hnext
  | case2 state hlast =>
      obtain ⟨next, hnext, hadvances⟩ := step_advances bindings hrest
      rw [hlast] at hnext
      cases hnext
      cases hadvances with
      | done hcut =>
          refine ⟨_, hcut, ?_⟩
          rw [outputOf_characters, usedIn_characters, List.append_nil, hrest]
  | case3 state next hstep ih =>
      obtain ⟨next, hnext, hadvances⟩ := step_advances bindings hrest
      rw [hstep] at hnext
      cases hnext
      cases hadvances with
      | past hcut =>
          obtain ⟨after, hafter, hrun⟩ := ih rfl
          refine ⟨_, hcut after hafter, ?_⟩
          rw [hrun, outputOf_append, usedIn_append, encode_append, List.append_assoc,
            List.append_assoc]

theorem reaches_encode {start state : State} {template : List Char}
    (hstart : start.rest = encode template)
    (h : Reaches (valuesOf bindings) start state) :
    ∃ text, state.rest = encode text := by
  induction h with
  | refl => exact ⟨template, hstart⟩
  | tail _ hstep ih =>
      obtain ⟨text, htext⟩ := ih
      obtain ⟨next, hnext, hadvances⟩ := step_advances bindings htext
      rw [hstep] at hnext
      cases hnext
      cases hadvances with
      | past hcut => exact ⟨_, rfl⟩

/-- Whatever state the scan of a template gets to, its next round cuts out no part that is out of
bounds or splits a character, and if there is one leaves fewer bytes. All rounds together put out
the bytes of the filled template, and use the keys that filling it does. -/
theorem run_fills_template (bindings : Bindings) (template : String) :
    let values := valuesOf bindings
    let start := State.start (encode template.toList)
    (∀ state, Reaches values start state →
      ∃ next, step values state = .ok next ∧
        ∀ after, next = some after → after.rest.length < state.rest.length) ∧
      run values start = .ok ⟨encode (substitute bindings template).toList,
        (used bindings template).map fun key => encode key.toList, []⟩ := by
  intro values start
  have hstart : start.rest = encode template.toList := rfl
  constructor
  · intro state hreaches
    obtain ⟨text, htext⟩ := reaches_encode hstart hreaches
    obtain ⟨next, hnext, -⟩ := step_advances bindings htext
    refine ⟨next, hnext, ?_⟩
    rintro after rfl
    exact step_shorter hnext
  · obtain ⟨cut, hcut, hrun⟩ := run_eq bindings hstart
    obtain rfl := isCut_iff.mp hcut
    have hused : usedIn (pieces bindings template) =
        (used bindings template).map fun key => encode key.toList := by
      rw [usedIn, used, List.map_filterMap, List.map_filterMap]
      simp [Option.map_map, Function.comp_def]
    rw [hrun, hused, substitute_toList, outputOf, List.flatMap_def]
    rfl

theorem run_fills_accented_template :
    let values := valuesOf (Index.ofList [("é", "мир")])
    let start := State.start (encode "¡\x7b\x7b\x7bé\x7d\x7d✓".toList)
    let braced : State := ⟨encode "¡\x7b".toList, [], encode "\x7b\x7bé\x7d\x7d✓".toList⟩
    let filled : State := ⟨encode "¡\x7bмир".toList, [encode "é".toList], encode "✓".toList⟩
    step values start = .ok (some braced) ∧ step values braced = .ok (some filled) ∧
      filled.rest.length < braced.rest.length ∧
      run values start = .ok ⟨encode "¡\x7bмир✓".toList, [encode "é".toList], []⟩ := by
  intro values start braced filled
  have hbraced : step values start = .ok (some braced) := by decide +kernel
  have hfilled : step values braced = .ok (some filled) := by decide +kernel
  obtain ⟨hrounds, hrun⟩ := run_fills_template (Index.ofList [("é", "мир")])
    "¡\x7b\x7b\x7bé\x7d\x7d✓"
  obtain ⟨next, hnext, hshorter⟩ := hrounds braced (Relation.ReflTransGen.single hbraced)
  rw [hfilled] at hnext
  cases hnext
  refine ⟨hbraced, hfilled, hshorter filled rfl, ?_⟩
  rw [hrun]
  decide +kernel

end PromptRegistry.ByteScan

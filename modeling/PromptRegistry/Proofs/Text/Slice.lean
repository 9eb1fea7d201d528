import Mathlib.Data.List.Infix
import PromptRegistry.Proofs.Text.Utf8

/-! # Slices of UTF-8 bytes -/

namespace PromptRegistry.Utf8

/-- Whether no character is split at an offset: a byte there must not continue one. -/
def isBoundary (bytes : List UInt8) (offset : Nat) : Bool :=
  offset == 0 ||
    match bytes[offset]? with
    | some byte => !isContinuation byte
    | none => offset == bytes.length

inductive SliceFault where
  | outOfBounds
  | insideCharacter
  deriving DecidableEq, Repr

def slice (bytes : List UInt8) (start stop : Nat) : Except SliceFault (List UInt8) :=
  if stop < start ∨ bytes.length < stop then .error .outOfBounds
  else if isBoundary bytes start && isBoundary bytes stop then
    .ok ((bytes.drop start).take (stop - start))
  else .error .insideCharacter

def sliceTo (bytes : List UInt8) (stop : Nat) : Except SliceFault (List UInt8) :=
  slice bytes 0 stop

def sliceFrom (bytes : List UInt8) (start : Nat) : Except SliceFault (List UInt8) :=
  slice bytes start bytes.length

theorem slice_eq_ok_iff {bytes part : List UInt8} {start stop : Nat} :
    slice bytes start stop = .ok part ↔
      start ≤ stop ∧ stop ≤ bytes.length ∧ isBoundary bytes start = true ∧
        isBoundary bytes stop = true ∧ part = (bytes.drop start).take (stop - start) := by
  unfold slice
  split
  case isTrue hbounds =>
    simp only [reduceCtorEq, false_iff]
    intro h
    omega
  case isFalse hbounds =>
    have hstart : start ≤ stop := by omega
    have hstop : stop ≤ bytes.length := by omega
    split
    case isTrue hboundaries =>
      obtain ⟨hfirst, hlast⟩ := Bool.and_eq_true_iff.mp hboundaries
      simp [hstart, hstop, hfirst, hlast, eq_comm]
    case isFalse hboundaries =>
      simp only [reduceCtorEq, false_iff]
      intro h
      exact hboundaries (Bool.and_eq_true_iff.mpr ⟨h.2.2.1, h.2.2.2.1⟩)

/-- How many bytes a character has, by the first of them. -/
def width (lead : UInt8) : Nat :=
  if lead < 0x80 then 1 else if lead < 0xE0 then 2 else if lead < 0xF0 then 3 else 4

/-- The bytes of a character behind the first one continue it. -/
structure IsCharacter (lead : UInt8) (tail : List UInt8) : Prop where
  begins : isContinuation lead = false
  continues : ∀ byte ∈ tail, isContinuation byte = true
  width : width lead = tail.length + 1

theorem exists_isCharacter (c : Char) :
    ∃ lead tail, String.utf8EncodeChar c = lead :: tail ∧ IsCharacter lead tail := by
  have hvalid := c.valid
  simp only [UInt32.isValidChar, Nat.isValidChar] at hvalid
  have hcontinues (n : Nat) : isContinuation (UInt8.ofNat (n % 64 + 128)) = true := by
    rw [isContinuation_iff, toNat_ofNat_of_lt (by omega)]
    omega
  have hlead {n : Nat} (hn : n < 256) (h : n < 128 ∨ 192 ≤ n) :
      isContinuation (UInt8.ofNat n) = false := by
    rw [← Bool.not_eq_true, isContinuation_iff, toNat_ofNat_of_lt hn]
    omega
  have hwidth {n : Nat} (hn : n < 256) : width (UInt8.ofNat n) =
      if n < 128 then 1 else if n < 224 then 2 else if n < 240 then 3 else 4 := by
    simp only [width, UInt8.lt_iff_toNat_lt, toNat_ofNat_of_lt hn, UInt8.reduceToNat]
  unfold String.utf8EncodeChar
  generalize c.val.toNat = v at *
  dsimp only
  split
  case isTrue hone =>
    refine ⟨_, _, rfl, hlead (by omega) (by omega), by simp, ?_⟩
    rw [hwidth (by omega), if_pos (by omega)]
    rfl
  case isFalse hone =>
    split
    case isTrue htwo =>
      refine ⟨_, _, rfl, hlead (by omega) (by omega),
        List.forall_mem_singleton.mpr (hcontinues _), ?_⟩
      rw [hwidth (by omega), if_neg (by omega), if_pos (by omega)]
      rfl
    case isFalse htwo =>
      split
      case isTrue hthree =>
        refine ⟨_, _, rfl, hlead (by omega) (by omega), List.forall_mem_cons.mpr
          ⟨hcontinues _, List.forall_mem_singleton.mpr (hcontinues _)⟩, ?_⟩
        rw [hwidth (by omega), if_neg (by omega), if_neg (by omega), if_pos (by omega)]
        rfl
      case isFalse hthree =>
        refine ⟨_, _, rfl, hlead (by omega) (by omega), List.forall_mem_cons.mpr ⟨hcontinues _,
          List.forall_mem_cons.mpr ⟨hcontinues _,
            List.forall_mem_singleton.mpr (hcontinues _)⟩⟩, ?_⟩
        rw [hwidth (by omega), if_neg (by omega), if_neg (by omega), if_neg (by omega)]
        rfl

@[simp] theorem encode_nil : encode [] = [] := rfl

theorem encode_cons (c : Char) (text : List Char) :
    encode (c :: text) = String.utf8EncodeChar c ++ encode text :=
  List.flatMap_cons

theorem encode_append (first second : List Char) :
    encode (first ++ second) = encode first ++ encode second :=
  List.flatMap_append

theorem decode_encode_append (text : List Char) (rest : List UInt8) :
    decode (encode text ++ rest) = text ++ decode rest := by
  induction text with
  | nil => rfl
  | cons c text ih =>
      rw [encode_cons, List.append_assoc, decode_utf8EncodeChar, ih, List.cons_append]

theorem encode_prefix_iff {first second : List Char} :
    encode first <+: encode second ↔ first <+: second := by
  constructor
  · intro h
    obtain ⟨rest, hrest⟩ := h
    have hdecode := congrArg decode hrest
    rw [decode_encode_append, decode_encode] at hdecode
    exact ⟨decode rest, hdecode⟩
  · intro h
    obtain ⟨rest, rfl⟩ := h
    rw [encode_append]
    exact List.prefix_append _ _

theorem isBoundary_encode (before after : List Char) :
    isBoundary (encode (before ++ after)) (encode before).length = true := by
  rw [isBoundary, encode_append, List.getElem?_append_right (Nat.le_refl _), Nat.sub_self]
  cases after with
  | nil => simp
  | cons c after =>
      obtain ⟨lead, tail, hbytes, hcharacter⟩ := exists_isCharacter c
      rw [encode_cons, hbytes]
      simp [hcharacter.begins]

theorem slice_encode (before part after : List Char) :
    slice (encode (before ++ part ++ after)) (encode before).length
      (encode (before ++ part)).length = .ok (encode part) := by
  rw [slice_eq_ok_iff]
  refine ⟨?_, ?_, ?_, isBoundary_encode (before ++ part) after, ?_⟩
  · simp [encode_append]
  · simp [encode_append]
  · rw [List.append_assoc]
    exact isBoundary_encode before (part ++ after)
  · simp [encode_append, List.append_assoc]

theorem sliceTo_encode (before after : List Char) :
    sliceTo (encode (before ++ after)) (encode before).length = .ok (encode before) :=
  slice_encode [] before after

theorem sliceFrom_encode (before after : List Char) :
    sliceFrom (encode (before ++ after)) (encode before).length = .ok (encode after) := by
  have hslice := slice_encode before after []
  rwa [List.append_nil] at hslice

theorem length_of_sliceFrom {bytes rest : List UInt8} {start : Nat}
    (h : sliceFrom bytes start = .ok rest) : rest.length + start = bytes.length := by
  obtain ⟨hstart, -, -, -, rfl⟩ := slice_eq_ok_iff.mp h
  rw [List.length_take, List.length_drop]
  omega

/-- The offset at which a pattern stands first. -/
def find? {α : Type} [DecidableEq α] (pattern : List α) : List α → Option Nat
  | [] => if pattern = [] then some 0 else none
  | a :: rest => if pattern <+: a :: rest then some 0 else (find? pattern rest).map (· + 1)

/-- A pattern that begins a character is not found inside of one. -/
theorem find?_continuation_append {lead : UInt8} {pattern tail rest : List UInt8}
    (hlead : isContinuation lead = false) (htail : ∀ byte ∈ tail, isContinuation byte = true) :
    find? (lead :: pattern) (tail ++ rest) =
      (find? (lead :: pattern) rest).map (· + tail.length) := by
  induction tail with
  | nil => simp
  | cons byte tail ih =>
      have hbyte : isContinuation byte = true := htail byte List.mem_cons_self
      have hne : lead ≠ byte := by
        rintro rfl
        rw [hlead] at hbyte
        cases hbyte
      have hnot : ¬lead :: pattern <+: byte :: (tail ++ rest) := fun h =>
        hne (List.cons_prefix_cons.mp h).1
      rw [List.cons_append, find?, if_neg hnot, ih fun b hb => htail b (List.mem_cons_of_mem _ hb),
        Option.map_map]
      rfl

/-- A search among the bytes finds the place that a search among the characters does. -/
theorem find?_encode {pattern : List Char} (hpattern : pattern ≠ []) (text : List Char) :
    find? (encode pattern) (encode text) =
      (find? pattern text).map fun count => (encode (text.take count)).length := by
  obtain ⟨p, ps, rfl⟩ := List.exists_cons_of_ne_nil hpattern
  obtain ⟨lead, more, hlead, hbegins, -, -⟩ := exists_isCharacter p
  have hbytes : encode (p :: ps) = lead :: (more ++ encode ps) := by
    rw [encode_cons, hlead, List.cons_append]
  induction text with
  | nil => simp [find?, hbytes]
  | cons c text ih =>
      obtain ⟨first, tail, hc, hcharacter⟩ := exists_isCharacter c
      have htext : encode (c :: text) = first :: (tail ++ encode text) := by
        rw [encode_cons, hc, List.cons_append]
      by_cases hstarts : p :: ps <+: c :: text
      · have hstarts' := encode_prefix_iff.mpr hstarts
        rw [htext] at hstarts' ⊢
        rw [find?, find?, if_pos hstarts, if_pos hstarts']
        rfl
      · have hstarts' : ¬encode (p :: ps) <+: encode (c :: text) := fun h =>
          hstarts (encode_prefix_iff.mp h)
        rw [htext] at hstarts' ⊢
        -- Of the bytes of the character only the first can begin the pattern, and it does not.
        rw [find?, find?, if_neg hstarts, if_neg hstarts', hbytes,
          find?_continuation_append hbegins hcharacter.continues, ← hbytes, ih, Option.map_map,
          Option.map_map, Option.map_map]
        congr 1
        funext count
        simp [encode_cons, hc]
        omega

/-- The offsets at which characters begin, from the front, each by the width of the one before. -/
def charOffsets : List UInt8 → List Nat
  | [] => []
  | lead :: bytes => 0 :: (charOffsets (bytes.drop (width lead - 1))).map (· + width lead)
termination_by bytes => bytes.length
decreasing_by
  simp only [List.length_cons, List.length_drop]
  omega

@[simp] theorem charOffsets_nil : charOffsets [] = [] := by
  rw [charOffsets]

theorem charOffsets_encode_cons (c : Char) (text : List Char) :
    charOffsets (encode (c :: text)) =
      0 :: (charOffsets (encode text)).map (· + (encode [c]).length) := by
  obtain ⟨lead, tail, hc, hcharacter⟩ := exists_isCharacter c
  have hlength : (encode [c]).length = tail.length + 1 := by simp [encode_cons, hc]
  rw [encode_cons, hc, List.cons_append, charOffsets, hcharacter.width, hlength,
    Nat.add_sub_cancel, List.drop_left]

end PromptRegistry.Utf8

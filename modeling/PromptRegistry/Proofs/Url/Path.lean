import Mathlib.Tactic.SplitIfs
import PromptRegistry.Proofs.Text.Utf8
import PromptRegistry.Text.Basic
import PromptRegistry.Url.Basic
import PromptRegistry.Url.Parser

namespace PromptRegistry

namespace Url

variable {set : EncodeSet}

theorem hexDigit?_upperHexChar : ∀ n < 16, hexDigit? (upperHexChar n) = some n := by decide

theorem percentDecode_percentByte (byte : UInt8) (rest : List Char) :
    percentDecode (percentByte byte ++ rest) = byte :: percentDecode rest := by
  have hbyte : byte.toNat < 256 := byte.toNat_lt
  have hsplit : byte.toNat / 16 * 16 + byte.toNat % 16 = byte.toNat := Nat.div_add_mod' _ _
  rw [percentByte, List.cons_append, List.cons_append, List.cons_append, percentDecode,
    hexDigit?_upperHexChar _ (by omega), hexDigit?_upperHexChar _ (by omega)]
  simp only [hsplit, UInt8.ofNat_toNat, List.nil_append]

theorem percentDecode_percentBytes (bytes : List UInt8) (rest : List Char) :
    percentDecode (bytes.flatMap percentByte ++ rest) = bytes ++ percentDecode rest := by
  induction bytes with
  | nil => rfl
  | cons byte bytes ih =>
      rw [List.flatMap_cons, List.append_assoc, percentDecode_percentByte, ih, List.cons_append]

theorem percentDecode_cons {c : Char} (h : c ≠ '%') (cs : List Char) :
    percentDecode (c :: cs) = String.utf8EncodeChar c ++ percentDecode cs := by
  rw [percentDecode]
  rintro high low rest rfl
  exact absurd rfl h

theorem percentDecode_encode (hset : set '%' = true) (text : List Char) :
    percentDecode (encode set text) = Utf8.encode text := by
  induction text with
  | nil => simp [encode, Utf8.encode, percentDecode]
  | cons c cs ih =>
      have hencode : encode set (c :: cs) = encodeChar set c ++ encode set cs := rfl
      have hutf8 : Utf8.encode (c :: cs) = String.utf8EncodeChar c ++ Utf8.encode cs := rfl
      rw [hencode, hutf8, ← ih, encodeChar]
      split
      case isTrue => exact percentDecode_percentBytes _ _
      case isFalse hc =>
        have hne : c ≠ '%' := by
          rintro rfl
          exact hc hset
        exact percentDecode_cons hne _

theorem mem_encode_cases {text : List Char} {d : Char} (h : d ∈ encode set text) :
    d ∈ text ∧ set d = false ∨ d = '%' ∨ ∃ n < 16, upperHexChar n = d := by
  obtain ⟨c, hc, hd⟩ := List.mem_flatMap.mp h
  rw [encodeChar] at hd
  split at hd
  case isTrue =>
    obtain ⟨byte, -, hd⟩ := List.mem_flatMap.mp hd
    have hbyte : byte.toNat < 256 := byte.toNat_lt
    rcases List.mem_cons.mp hd with rfl | hd
    · exact .inr (.inl rfl)
    rcases List.mem_cons.mp hd with rfl | hd
    · exact .inr (.inr ⟨_, by omega, rfl⟩)
    · exact .inr (.inr ⟨_, by omega, (List.mem_singleton.mp hd).symm⟩)
  case isFalse hset =>
    obtain rfl := List.mem_singleton.mp hd
    exact .inl ⟨hc, eq_false_of_ne_true hset⟩

/-- A character that is encoded does not occur, unless encoded characters are written with it. -/
theorem not_mem_encode {d : Char} (hset : set d = true) (hpercent : d ≠ '%')
    (hdigit : ∀ n < 16, upperHexChar n ≠ d) (text : List Char) : d ∉ encode set text := by
  intro hmem
  rcases mem_encode_cases hmem with ⟨-, hfree⟩ | heq | ⟨n, hn, heq⟩
  · exact absurd (hset.symm.trans hfree) (by decide)
  · exact hpercent heq
  · exact hdigit n hn heq

theorem encode_of_free {text : List Char} (h : ∀ c ∈ text, set c = false) :
    encode set text = text := by
  induction text with
  | nil => rfl
  | cons c cs ih =>
      obtain ⟨hc, hcs⟩ := List.forall_mem_cons.mp h
      have hencode : encode set (c :: cs) = encodeChar set c ++ encode set cs := rfl
      rw [hencode, ih hcs, encodeChar, hc]
      rfl


theorem toLower_eq_cases {c d : Char} (h : c.toLower = d) :
    c = d ∨ 'A'.toNat ≤ c.toNat ∧ c.toNat ≤ 'Z'.toNat ∧ d.toNat = c.toNat + 32 := by
  unfold Char.toLower at h
  split at h
  case isTrue hupper =>
    have hlow : 'A'.toNat ≤ c.toNat := UInt32.le_iff_toNat_le.mp hupper.1
    have hhigh : c.toNat ≤ 'Z'.toNat := UInt32.le_iff_toNat_le.mp hupper.2
    have hbound : c.val.toNat ≤ 90 := hhigh
    refine .inr ⟨hlow, hhigh, ?_⟩
    rw [← h]
    change (c.val.toNat + 32) % 2 ^ 32 = c.val.toNat + 32
    omega
  case isFalse => exact .inl h

theorem eq_of_toLower_eq {c d : Char} (h : c.toLower = d) (hd : d.toNat < 'a'.toNat) : c = d := by
  rcases toLower_eq_cases h with h | ⟨hlow, -, h⟩
  · exact h
  · have hcase : 'a'.toNat = 'A'.toNat + 32 := rfl
    omega

theorem eq_of_toLower_eq_e {c : Char} (h : c.toLower = 'e') : c = 'e' ∨ c = 'E' := by
  rcases toLower_eq_cases h with h | ⟨-, -, h⟩
  · exact .inl h
  · have hcase : 'e'.toNat = 'E'.toNat + 32 := rfl
    exact .inr (Char.toNat_inj.mp (by omega))

theorem percentDecode_dot {a b c : Char} (ha : a.toLower = '%') (hb : b.toLower = '2')
    (hc : c.toLower = 'e') (rest : List Char) :
    percentDecode (a :: b :: c :: rest) = Utf8.encode ['.'] ++ percentDecode rest := by
  obtain rfl := eq_of_toLower_eq ha (by decide)
  obtain rfl := eq_of_toLower_eq hb (by decide)
  rcases eq_of_toLower_eq_e hc with rfl | rfl <;> rfl

theorem percentDecode_of_isSingleDot {segment : List Char} (h : isSingleDot segment = true) :
    percentDecode segment = Utf8.encode ['.'] := by
  simp only [isSingleDot, Bool.or_eq_true, beq_iff_eq, List.map_eq_cons_iff,
    List.map_eq_nil_iff] at h
  rcases h with rfl | ⟨a, _, rfl, ha, b, _, rfl, hb, c, _, rfl, hc, rfl⟩
  · rfl
  · exact percentDecode_dot ha hb hc []

theorem percentDecode_of_isDoubleDot {segment : List Char} (h : isDoubleDot segment = true) :
    percentDecode segment = Utf8.encode ['.', '.'] := by
  simp only [isDoubleDot, Bool.or_eq_true, beq_iff_eq, List.any_cons, List.any_nil,
    String.reduceToList, Bool.or_false, List.map_eq_cons_iff, List.map_eq_nil_iff] at h
  rcases h with rfl | ⟨a, _, rfl, ha, b, _, rfl, hb, c, _, rfl, hc, d, _, rfl, hd, rfl⟩ |
    ⟨d, _, rfl, hd, a, _, rfl, ha, b, _, rfl, hb, c, _, rfl, hc, rfl⟩ |
    ⟨a, _, rfl, ha, b, _, rfl, hb, c, _, rfl, hc, a', _, rfl, ha', b', _, rfl, hb', c', _, rfl, hc',
      rfl⟩
  · rfl
  · obtain rfl := eq_of_toLower_eq hd (by decide)
    exact percentDecode_dot ha hb hc ['.']
  · obtain rfl := eq_of_toLower_eq hd (by decide)
    rw [percentDecode_cons (by decide), percentDecode_dot ha hb hc]
    rfl
  · rw [percentDecode_dot ha hb hc, percentDecode_dot ha' hb' hc']
    rfl

theorem isSingleDot_encode {set : EncodeSet} (hset : set '%' = true) (hdot : set '.' = false)
    (text : List Char) : isSingleDot (encode set text) = true ↔ text = ['.'] := by
  constructor
  · intro h
    apply Utf8.encode_injective
    rw [← percentDecode_encode hset, percentDecode_of_isSingleDot h]
  · rintro rfl
    simp [encode, encodeChar, hdot, isSingleDot]

theorem isDoubleDot_encode {set : EncodeSet} (hset : set '%' = true) (hdot : set '.' = false)
    (text : List Char) : isDoubleDot (encode set text) = true ↔ text = ['.', '.'] := by
  constructor
  · intro h
    apply Utf8.encode_injective
    rw [← percentDecode_encode hset, percentDecode_of_isDoubleDot h]
  · rintro rfl
    simp [encode, encodeChar, hdot, isDoubleDot]

/-- How the segments of a URL are encoded. -/
def nameSet (url : Url) : EncodeSet := if url.isSpecial then specialSegmentSet else segmentSet

theorem addSegments_of_names {segments : List (List Char)}
    (h : ∀ segment ∈ segments, isSingleDot segment = false ∧ isDoubleDot segment = false)
    (reversed : List (List Char)) :
    addSegments reversed segments = segments.reverse ++ reversed := by
  induction segments generalizing reversed with
  | nil => rfl
  | cons segment segments ih =>
      obtain ⟨⟨hsingle, hdouble⟩, hrest⟩ := List.forall_mem_cons.mp h
      have hadd (last : Bool) : addSegment reversed segment last = segment :: reversed := by
        simp [addSegment, hsingle, hdouble]
      cases segments with
      | nil => exact hadd true
      | cons next segments =>
          rw [addSegments, hadd, ih hrest]
          · simp
          · simp

theorem extendPath_of_names {segments : List (List Char)}
    (h : ∀ segment ∈ segments, isSingleDot segment = false ∧ isDoubleDot segment = false)
    (path : List (List Char)) : extendPath path segments = path ++ segments := by
  rw [extendPath, addSegments_of_names h, List.reverse_append, List.reverse_reverse,
    List.reverse_reverse]

theorem addSegment_encode {set : EncodeSet} (hset : set '%' = true) (hdot : set '.' = false)
    {last : List Char} (hlast : isAnchored last = false) (reversed : List (List Char))
    (text : List Char) :
    addSegment (last :: reversed) (encode set text) true =
      if text = ['.', '.'] then [] :: reversed
      else if text = ['.'] then [] :: last :: reversed
      else encode set text :: last :: reversed := by
  simp only [addSegment, isDoubleDot_encode hset hdot, isSingleDot_encode hset hdot, parentPath,
    hlast, if_true, Bool.false_eq_true, if_false]

/-- What pushing a name does to a path whose last segment may be taken away. -/
theorem push_eq {url : Url} {path : List (List Char)} {last : List Char}
    (hpath : url.path = .segments (path ++ [last])) (hlast : last ≠ [])
    (hanchor : isAnchored last = false) (name : List Char) :
    url.push name =
      if name = ['.'] ∨ name = ['.', '.'] then url
      else if withoutBreaks name = ['.', '.'] then { url with path := .segments (path ++ [[]]) }
      else if withoutBreaks name = ['.'] then
        { url with path := .segments (path ++ [last] ++ [[]]) }
      else
        { url with
          path := .segments (path ++ [last] ++ [encode url.nameSet (withoutBreaks name)]) } := by
  have hset : url.nameSet '%' = true ∧ url.nameSet '.' = false := by
    unfold nameSet
    split <;> exact ⟨by decide, by decide⟩
  have hroot : path ++ [last] ≠ [[]] := by
    cases path with
    | nil => simpa using hlast
    | cons segment path => simp
  have hextend (segment : List Char) : extendPath (path ++ [last]) [segment] =
      (addSegment (last :: path.reverse) segment true).reverse := by
    simp [extendPath, addSegments]
  simp only [push, hpath, if_neg hroot]
  rw [← nameSet, hextend, addSegment_encode hset.1 hset.2 hanchor]
  split_ifs <;> simp

variable {toAscii : ToAscii}

theorem readAuthority_eq_ok {scheme text : List Char} {url : Url}
    (h : readAuthority toAscii scheme text = .ok url) :
    url.scheme = scheme ∧ (∃ host, url.host = some host) ∧
      ∃ pathText, url.path = .segments (readPath scheme pathText) := by
  unfold readAuthority at h
  simp only [bind, Except.bind, pure, Except.pure] at h
  repeat' split at h
  all_goals first
    | (cases h; exact ⟨rfl, ⟨_, rfl⟩, _, rfl⟩)
    | cases h

theorem readFile_scheme {text : List Char} {url : Url} (h : readFile toAscii text = .ok url) :
    url.scheme = fileScheme := by
  unfold readFile at h
  simp only [bind, Except.bind, pure, Except.pure] at h
  repeat' split at h
  all_goals first
    | (cases h; rfl)
    | cases h

theorem parse_authority_eq_ok {text : String} {url : Url} (h : parse text toAscii = .ok url)
    (hspecial : url.isSpecial = true) (hfile : url.scheme ≠ fileScheme) :
    (∃ host, url.host = some host) ∧
      ∃ pathText, url.path = .segments (readPath url.scheme pathText) := by
  unfold parse at h
  dsimp only at h
  split at h
  case h_1 => cases h
  case h_2 scheme rest hread =>
    split at h
    case isTrue => exact absurd (readFile_scheme h) hfile
    case isFalse =>
      split at h
      case isTrue =>
        obtain ⟨hscheme, hauthority⟩ := readAuthority_eq_ok h
        exact hscheme ▸ hauthority
      case isFalse hother =>
        split at h
        case h_1 =>
          obtain ⟨hscheme, hauthority⟩ := readAuthority_eq_ok h
          exact hscheme ▸ hauthority
        case h_2 =>
          obtain rfl := Except.ok.inj h
          exact absurd hspecial hother

theorem parse_eq_ok {text : String} {url : Url} (h : parse text toAscii = .ok url)
    (hspecial : url.isSpecial = true) (hfile : url.scheme ≠ fileScheme) :
    (∃ host, url.host = some host) ∧ ∃ path, url.path = .segments path := by
  obtain ⟨hhost, pathText, hpath⟩ := parse_authority_eq_ok h hspecial hfile
  exact ⟨hhost, _, hpath⟩

theorem asDirectory_eq {url : Url} {path : List (List Char)} (h : url.path = .segments path) :
    ∃ path, url.asDirectory = { url with path := .segments path } := by
  unfold asDirectory
  split
  · exact ⟨path, by rw [← h]⟩
  · exact ⟨readPath url.scheme (url.path.text ++ ['/']), by simp [setPath, h]⟩

theorem join_eq {url : Url} {path : List (List Char)} (h : url.path = .segments path)
    {reference : List (List Char)}
    (hnames : ∀ segment ∈ reference, isSingleDot segment = false ∧ isDoubleDot segment = false) :
    url.join reference = .ok { url with
      path := .segments (path.dropLast ++ reference), query := none, fragment := none } := by
  simp only [join, h, extendPath_of_names hnames]

end Url

end PromptRegistry

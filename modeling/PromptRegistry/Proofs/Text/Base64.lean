import PromptRegistry.Text.Basic

namespace PromptRegistry.Base64

/-- The letters in the order of the numbers that they stand for. -/
def alphabet : List Char :=
  "ABCDEFGHIJKLMNOPQRSTUVWXYZabcdefghijklmnopqrstuvwxyz0123456789+/".toList

/-- The number that a letter stands for. -/
def sextet? (c : Char) : Option Nat := alphabet.idxOf? c

def firstByte (x y : Nat) : UInt8 := UInt8.ofNat (x * 4 + y / 16)

def secondByte (y z : Nat) : UInt8 := UInt8.ofNat (y % 16 * 16 + z / 4)

def thirdByte (z w : Nat) : UInt8 := UInt8.ofNat (z % 4 * 64 + w)

/-- The bytes that a text is written for. -/
def decode? : List Char → Option (List UInt8)
  | [] => some []
  | [a, b, '=', '='] => do
      let x ← sextet? a
      let y ← sextet? b
      if y % 16 = 0 then some [firstByte x y] else none
  | [a, b, c, '='] => do
      let x ← sextet? a
      let y ← sextet? b
      let z ← sextet? c
      if z % 4 = 0 then some [firstByte x y, secondByte y z] else none
  | a :: b :: c :: d :: rest => do
      let x ← sextet? a
      let y ← sextet? b
      let z ← sextet? c
      let w ← sextet? d
      let bytes ← decode? rest
      some (firstByte x y :: secondByte y z :: thirdByte z w :: bytes)
  | _ => none

theorem alphabet_eq : alphabet = (List.range 64).map letter := by decide +kernel

theorem sextet?_letter {n : Nat} (h : n < 64) : sextet? (letter n) = some n := by
  have hall : ∀ n < 64, sextet? (letter n) = some n := by decide +kernel
  exact hall n h

theorem letter_ne_equals {n : Nat} (h : n < 64) : letter n ≠ '=' := by
  have hall : ∀ n < 64, letter n ≠ '=' := by decide
  exact hall n h

theorem sextet?_eq_some_iff {c : Char} {n : Nat} :
    sextet? c = some n ↔ n < 64 ∧ letter n = c := by
  constructor
  · intro h
    obtain ⟨hn, hc, -⟩ := List.idxOf?_eq_some_iff.mp h
    have hlength : alphabet.length = 64 := by simp [alphabet_eq]
    simp only [alphabet_eq, List.getElem_map, List.getElem_range] at hc
    exact ⟨hlength ▸ hn, hc⟩
  · rintro ⟨hn, rfl⟩
    exact sextet?_letter hn

theorem firstByte_digits (a : UInt8) {low : Nat} (h : low < 16) :
    firstByte (a.toNat / 4) (a.toNat % 4 * 16 + low) = a := by
  rw [firstByte, show a.toNat / 4 * 4 + (a.toNat % 4 * 16 + low) / 16 = a.toNat by omega,
    UInt8.ofNat_toNat]

theorem secondByte_digits (b : UInt8) {high low : Nat} (h : low < 4) :
    secondByte (high * 16 + b.toNat / 16) (b.toNat % 16 * 4 + low) = b := by
  have hb : b.toNat < 256 := b.toNat_lt
  rw [secondByte,
    show (high * 16 + b.toNat / 16) % 16 * 16 + (b.toNat % 16 * 4 + low) / 4 = b.toNat by omega,
    UInt8.ofNat_toNat]

theorem thirdByte_digits (c : UInt8) {high : Nat} :
    thirdByte (high * 4 + c.toNat / 64) (c.toNat % 64) = c := by
  have hc : c.toNat < 256 := c.toNat_lt
  rw [thirdByte, show (high * 4 + c.toNat / 64) % 4 * 64 + c.toNat % 64 = c.toNat by omega,
    UInt8.ofNat_toNat]

theorem toNat_firstByte {x y : Nat} (hx : x < 64) (hy : y < 64) :
    (firstByte x y).toNat = x * 4 + y / 16 :=
  UInt8.toNat_ofNat_of_lt' (by change _ < 256; omega)

theorem toNat_secondByte {y z : Nat} (hz : z < 64) :
    (secondByte y z).toNat = y % 16 * 16 + z / 4 :=
  UInt8.toNat_ofNat_of_lt' (by change _ < 256; omega)

theorem toNat_thirdByte {z w : Nat} (hw : w < 64) : (thirdByte z w).toNat = z % 4 * 64 + w :=
  UInt8.toNat_ofNat_of_lt' (by change _ < 256; omega)

theorem decode?_encode (bytes : List UInt8) : decode? (encode bytes) = some bytes := by
  have hbyte (byte : UInt8) : byte.toNat < 256 := byte.toNat_lt
  induction bytes using encode.induct with
  | case1 => rfl
  | case2 a =>
      have ha := hbyte a
      rw [encode, decode?, sextet?_letter (by omega), sextet?_letter (by omega)]
      simp only [Option.bind_eq_bind, Option.bind_some]
      rw [if_pos (by omega), ← Nat.add_zero (a.toNat % 4 * 16), firstByte_digits a (by decide)]
  | case3 a b =>
      have ha := hbyte a
      have hb := hbyte b
      rw [encode, decode?, sextet?_letter (by omega), sextet?_letter (by omega),
        sextet?_letter (by omega)]
      · simp only [Option.bind_eq_bind, Option.bind_some]
        rw [if_pos (by omega), firstByte_digits a (by omega), ← Nat.add_zero (b.toNat % 16 * 4),
          secondByte_digits b (by decide)]
      · exact letter_ne_equals (by omega)
  | case4 a b c rest ih =>
      have ha := hbyte a
      have hb := hbyte b
      have hc := hbyte c
      rw [encode, decode?, sextet?_letter (by omega), sextet?_letter (by omega),
        sextet?_letter (by omega), sextet?_letter (by omega), ih]
      · simp only [Option.bind_eq_bind, Option.bind_some]
        rw [firstByte_digits a (by omega), secondByte_digits b (by omega), thirdByte_digits c]
      · exact fun hequals _ _ => letter_ne_equals (by omega) hequals
      · exact fun hequals _ => letter_ne_equals (by omega) hequals

/-- No two texts are read as the same bytes. -/
theorem encode_of_decode? {text : List Char} {bytes : List UInt8} (h : decode? text = some bytes) :
    encode bytes = text := by
  induction text using decode?.induct generalizing bytes with
  | case1 =>
      obtain rfl := Option.some.inj h
      rfl
  | case2 a b =>
      simp only [decode?, Option.bind_eq_bind, Option.bind_eq_some_iff, Option.ite_none_right_eq_some,
        Option.some.injEq, sextet?_eq_some_iff] at h
      obtain ⟨x, ⟨hx, rfl⟩, y, ⟨hy, rfl⟩, hzero, rfl⟩ := h
      rw [encode, toNat_firstByte hx hy, show (x * 4 + y / 16) / 4 = x by omega,
        show (x * 4 + y / 16) % 4 * 16 = y by omega]
  | case3 a b c hc =>
      simp only [decode?, Option.bind_eq_bind, Option.bind_eq_some_iff, Option.ite_none_right_eq_some,
        Option.some.injEq, sextet?_eq_some_iff] at h
      obtain ⟨x, ⟨hx, rfl⟩, y, ⟨hy, rfl⟩, z, ⟨hz, rfl⟩, hzero, rfl⟩ := h
      rw [encode, toNat_firstByte hx hy, toNat_secondByte hz,
        show (x * 4 + y / 16) / 4 = x by omega,
        show (x * 4 + y / 16) % 4 * 16 + (y % 16 * 16 + z / 4) / 16 = y by omega,
        show (y % 16 * 16 + z / 4) % 16 * 4 = z by omega]
  | case4 a b c d rest h₁ h₂ ih =>
      simp only [decode?, Option.bind_eq_bind, Option.bind_eq_some_iff, Option.some.injEq,
        sextet?_eq_some_iff] at h
      obtain ⟨x, ⟨hx, rfl⟩, y, ⟨hy, rfl⟩, z, ⟨hz, rfl⟩, w, ⟨hw, rfl⟩, tail, htail, rfl⟩ := h
      rw [encode, ih htail, toNat_firstByte hx hy, toNat_secondByte hz, toNat_thirdByte hw,
        show (x * 4 + y / 16) / 4 = x by omega,
        show (x * 4 + y / 16) % 4 * 16 + (y % 16 * 16 + z / 4) / 16 = y by omega,
        show (y % 16 * 16 + z / 4) % 16 * 4 + (z % 4 * 64 + w) / 64 = z by omega,
        show (z % 4 * 64 + w) % 64 = w by omega]
  | case5 => simp [decode?] at h

theorem decode?_eq_some_iff {text : List Char} {bytes : List UInt8} :
    decode? text = some bytes ↔ encode bytes = text :=
  ⟨encode_of_decode?, fun h => h ▸ decode?_encode bytes⟩

end PromptRegistry.Base64

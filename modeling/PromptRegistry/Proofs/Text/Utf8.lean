import Mathlib.Tactic.ByContra
import Mathlib.Tactic.SplitIfs
import PromptRegistry.Text.Basic

namespace PromptRegistry.Utf8

private theorem decode_one {a : UInt8} (rest : List UInt8) (ha : a.toNat ≤ 0x7F) :
    decode (a :: rest) = Char.ofNat a.toNat :: decode rest := by
  have hone : a ≤ 0x7F := by simpa [UInt8.le_iff_toNat_le] using ha
  rw [decode.eq_def]
  simp [hone]

private theorem decode_two {a b : UInt8} (rest : List UInt8) (hlow : 0xC2 ≤ a.toNat)
    (hhigh : a.toNat ≤ 0xDF) (hb : isContinuation b = true) :
    decode (a :: b :: rest) = join (a.toNat % 32) [b] :: decode rest := by
  have hone : ¬a ≤ 0x7F := by simp [UInt8.le_iff_toNat_le]; omega
  have htwo : 0xC2 ≤ a ∧ a ≤ 0xDF := by simp [UInt8.le_iff_toNat_le]; omega
  rw [decode.eq_def]
  simp [hone, htwo, hb]

private theorem decode_three {a b c : UInt8} (rest : List UInt8) (hlow : 0xE0 ≤ a.toNat)
    (hhigh : a.toNat ≤ 0xEF) (hb : isSecond a b = true) (hc : isContinuation c = true) :
    decode (a :: b :: c :: rest) = join (a.toNat % 16) [b, c] :: decode rest := by
  have hone : ¬a ≤ 0x7F := by simp [UInt8.le_iff_toNat_le]; omega
  have htwo : ¬(0xC2 ≤ a ∧ a ≤ 0xDF) := by simp [UInt8.le_iff_toNat_le]; omega
  have hthree : 0xE0 ≤ a ∧ a ≤ 0xEF := by simp [UInt8.le_iff_toNat_le]; omega
  rw [decode.eq_def]
  simp [hone, htwo, hthree, hb, hc]

private theorem decode_four {a b c d : UInt8} (rest : List UInt8) (hlow : 0xF0 ≤ a.toNat)
    (hhigh : a.toNat ≤ 0xF4) (hb : isSecond a b = true) (hc : isContinuation c = true)
    (hd : isContinuation d = true) :
    decode (a :: b :: c :: d :: rest) = join (a.toNat % 8) [b, c, d] :: decode rest := by
  have hone : ¬a ≤ 0x7F := by simp [UInt8.le_iff_toNat_le]; omega
  have htwo : ¬(0xC2 ≤ a ∧ a ≤ 0xDF) := by simp [UInt8.le_iff_toNat_le]; omega
  have hthree : ¬(0xE0 ≤ a ∧ a ≤ 0xEF) := by simp [UInt8.le_iff_toNat_le]; omega
  have hfour : 0xF0 ≤ a ∧ a ≤ 0xF4 := by simp [UInt8.le_iff_toNat_le]; omega
  rw [decode.eq_def]
  simp [hone, htwo, hthree, hfour, hb, hc, hd]

theorem isContinuation_iff {byte : UInt8} :
    isContinuation byte = true ↔ 0x80 ≤ byte.toNat ∧ byte.toNat ≤ 0xBF := by
  simp [isContinuation, UInt8.le_iff_toNat_le]

private theorem isSecond_iff {first second : UInt8} :
    isSecond first second = true ↔ 0x80 ≤ second.toNat ∧ second.toNat ≤ 0xBF ∧
      (first.toNat = 0xE0 → 0xA0 ≤ second.toNat) ∧ (first.toNat = 0xED → second.toNat ≤ 0x9F) ∧
      (first.toNat = 0xF0 → 0x90 ≤ second.toNat) ∧ (first.toNat = 0xF4 → second.toNat ≤ 0x8F) := by
  simp only [isSecond, isContinuation, UInt8.le_iff_toNat_le, UInt8.toNat_inj.symm,
    UInt8.reduceToNat]
  grind

theorem toNat_ofNat_of_lt {n : Nat} (h : n < 256) : (UInt8.ofNat n).toNat = n := by
  rw [UInt8.toNat_ofNat']
  omega

theorem decode_utf8EncodeChar (c : Char) (rest : List UInt8) :
    decode (String.utf8EncodeChar c ++ rest) = c :: decode rest := by
  -- neither surrogates nor values from 0x110000 on are characters
  have hvalid := c.valid
  simp only [UInt32.isValidChar, Nat.isValidChar] at hvalid
  have hchar : Char.ofNat c.val.toNat = c := Char.ofNat_toNat c
  have htail (n : Nat) : (UInt8.ofNat (n % 64 + 128)).toNat = n % 64 + 128 :=
    toNat_ofNat_of_lt (by omega)
  have hcontinues (n : Nat) : isContinuation (UInt8.ofNat (n % 64 + 128)) = true := by
    rw [isContinuation_iff, htail]
    omega
  unfold String.utf8EncodeChar
  generalize c.val.toNat = v at *
  dsimp only
  split
  case isTrue hone =>
    rw [List.singleton_append, decode_one] <;> rw [toNat_ofNat_of_lt (by omega)]
    · rw [hchar]
    · omega
  case isFalse hone =>
    split
    case isTrue htwo =>
      have ha : (UInt8.ofNat (v / 64 % 32 + 192)).toNat = v / 64 % 32 + 192 :=
        toNat_ofNat_of_lt (by omega)
      rw [List.cons_append, List.singleton_append,
        decode_two _ (by omega) (by omega) (hcontinues v)]
      simp only [join, List.foldl_cons, List.foldl_nil, ha, htail]
      rw [show (v / 64 % 32 + 192) % 32 * 64 + (v % 64 + 128) % 64 = v by omega, hchar]
    case isFalse htwo =>
      split
      case isTrue hthree =>
        have ha : (UInt8.ofNat (v / 4096 % 16 + 224)).toNat = v / 4096 % 16 + 224 :=
          toNat_ofNat_of_lt (by omega)
        have hb : isSecond (UInt8.ofNat (v / 4096 % 16 + 224)) (UInt8.ofNat (v / 64 % 64 + 128)) =
            true := by
          rw [isSecond_iff, ha, htail]
          omega
        rw [List.cons_append, List.cons_append, List.singleton_append,
          decode_three _ (by omega) (by omega) hb (hcontinues v)]
        simp only [join, List.foldl_cons, List.foldl_nil, ha, htail]
        rw [show ((v / 4096 % 16 + 224) % 16 * 64 + (v / 64 % 64 + 128) % 64) * 64 +
          (v % 64 + 128) % 64 = v by omega, hchar]
      case isFalse hthree =>
        have ha : (UInt8.ofNat (v / 262144 % 8 + 240)).toNat = v / 262144 % 8 + 240 :=
          toNat_ofNat_of_lt (by omega)
        have hb : isSecond (UInt8.ofNat (v / 262144 % 8 + 240))
            (UInt8.ofNat (v / 4096 % 64 + 128)) = true := by
          rw [isSecond_iff, ha, htail]
          omega
        rw [List.cons_append, List.cons_append, List.cons_append, List.singleton_append,
          decode_four _ (by omega) (by omega) hb (hcontinues (v / 64)) (hcontinues v)]
        simp only [join, List.foldl_cons, List.foldl_nil, ha, htail]
        rw [show (((v / 262144 % 8 + 240) % 8 * 64 + (v / 4096 % 64 + 128) % 64) * 64 +
          (v / 64 % 64 + 128) % 64) * 64 + (v % 64 + 128) % 64 = v by omega, hchar]

@[simp] theorem decode_encode (text : List Char) : decode (encode text) = text := by
  induction text with
  | nil => simp [encode, decode]
  | cons c text ih =>
      have hcons : encode (c :: text) = String.utf8EncodeChar c ++ encode text :=
        List.flatMap_cons
      rw [hcons, decode_utf8EncodeChar, ih]

theorem encode_injective {first second : List Char} (h : encode first = encode second) :
    first = second := by
  rw [← decode_encode first, h, decode_encode]

private theorem cons_ofNat_lt_iff {m n : Nat} (hm : m < 256) (hn : n < 256)
    (first second : List UInt8) :
    UInt8.ofNat m :: first < UInt8.ofNat n :: second ↔ m < n ∨ m = n ∧ first < second := by
  rw [List.cons_lt_cons_iff, UInt8.lt_iff_toNat_lt, ← UInt8.toNat_inj, toNat_ofNat_of_lt hm,
    toNat_ofNat_of_lt hn]

private theorem digits_lt {v w : Nat} (h : v < w) :
    v / 262144 < w / 262144 ∨ v / 262144 = w / 262144 ∧
      (v / 4096 % 64 < w / 4096 % 64 ∨ v / 4096 % 64 = w / 4096 % 64 ∧
        (v / 64 % 64 < w / 64 % 64 ∨ v / 64 % 64 = w / 64 % 64 ∧ v % 64 < w % 64)) := by
  have hdigits (n : Nat) :
      n = ((n / 262144 * 64 + n / 4096 % 64) * 64 + n / 64 % 64) * 64 + n % 64 := by omega
  have hmod (n : Nat) : n % 64 < 64 := Nat.mod_lt n (by decide)
  have hv := hdigits v
  have hw := hdigits w
  have hv' := And.intro (hmod (v / 4096)) (And.intro (hmod (v / 64)) (hmod v))
  have hw' := And.intro (hmod (w / 4096)) (And.intro (hmod (w / 64)) (hmod w))
  generalize v / 262144 = v₁, v / 4096 % 64 = v₂, v / 64 % 64 = v₃, v % 64 = v₄ at *
  generalize w / 262144 = w₁, w / 4096 % 64 = w₂, w / 64 % 64 = w₃, w % 64 = w₄ at *
  omega

/-- The bytes of a smaller character come first, whatever follows. A longer character begins with
a greater byte, and equally long ones are compared from their highest bits on. -/
theorem utf8EncodeChar_lt {c d : Char} (h : c < d) (rest other : List UInt8) :
    String.utf8EncodeChar c ++ rest < String.utf8EncodeChar d ++ other := by
  have hlt : c.val.toNat < d.val.toNat := h
  have hdigits := digits_lt hlt
  have hd := d.valid
  simp only [UInt32.isValidChar, Nat.isValidChar] at hd
  unfold String.utf8EncodeChar
  generalize c.val.toNat = v at *
  generalize d.val.toNat = w at *
  have hv : v / 262144 % 8 = v / 262144 := by omega
  have hw : w / 262144 % 8 = w / 262144 := by omega
  dsimp only
  rw [hv, hw]
  split_ifs <;> simp (disch := omega) only [List.cons_append, List.nil_append, cons_ofNat_lt_iff]
  all_goals omega

theorem encode_lt {first second : List Char} (h : first < second) :
    encode first < encode second := by
  induction h with
  | @nil c second =>
      have hne : String.utf8EncodeChar c ≠ [] := String.utf8EncodeChar_ne_nil
      obtain ⟨byte, bytes, hbytes⟩ := List.exists_cons_of_ne_nil hne
      rw [encode, encode, List.flatMap_cons, hbytes]
      exact .nil
  | rel h => exact utf8EncodeChar_lt h _ _
  | cons h ih => exact List.append_left_lt ih

/-- Bytes are ordered as the texts they stand for. -/
theorem encode_lt_iff {first second : List Char} :
    encode first < encode second ↔ first < second := by
  constructor
  · intro h
    by_contra hle
    by_cases heq : first = second
    · exact List.lt_irrefl _ (heq ▸ h)
    · have hlt : second < first :=
        List.not_le.mp fun hge => heq (List.le_antisymm hge (List.not_lt.mp hle))
      exact List.lt_asymm h (encode_lt hlt)
  · exact encode_lt

end PromptRegistry.Utf8

import Mathlib.Tactic.IntervalCases
import PromptRegistry.Json.Token
import PromptRegistry.Json.Value
import PromptRegistry.Proofs.Number.Decimal

namespace PromptRegistry

namespace Json

theorem leadingDigits_append {text rest : List Char} (h : ∀ c ∈ text, ∃ d, digit? c = some d) :
    leadingDigits (text ++ rest) = text.filterMap digit? ++ leadingDigits rest := by
  induction text with
  | nil => simp
  | cons c text ih =>
      obtain ⟨d, hd⟩ := h c List.mem_cons_self
      rw [List.cons_append, leadingDigits, hd]
      simp [hd, ih fun c hc => h c (List.mem_cons_of_mem _ hc)]

theorem appendDigits_append {value result last : Nat} {digits : List Nat}
    (h : appendDigits value digits = (result, digits.length))
    (hlast : result * 10 + last ≤ maxWord) :
    appendDigits value (digits ++ [last]) = (result * 10 + last, digits.length + 1) := by
  induction digits generalizing value with
  | nil =>
      obtain rfl : value = result := (Prod.mk.inj h).1
      simp [appendDigits, Nat.not_lt.mpr hlast]
  | cons d digits ih =>
      rw [appendDigits] at h
      split at h
      case isTrue => simp at h
      case isFalse hd =>
        have htail : appendDigits (value * 10 + d) digits = (result, digits.length) := by
          simpa [Prod.ext_iff] using h
        rw [List.cons_append, appendDigits, if_neg hd, ih htail]
        rfl

theorem appendDigits_decimalDigits {n : Nat} (h : n ≤ maxWord) :
    appendDigits 0 (decimalDigits n) = (n, (decimalDigits n).length) := by
  induction n using Nat.strongRecOn with
  | ind n ih =>
      rcases Nat.lt_or_ge n 10 with hn | hn
      · simp [decimalDigits_of_lt hn, appendDigits, Nat.not_lt.mpr h]
      · have hdiv := ih (n / 10) (Nat.div_lt_self (by omega) (by decide)) (by omega)
        have hn' : n / 10 * 10 + n % 10 = n := by omega
        rw [decimalDigits_of_le hn, appendDigits_append hdiv (by omega), hn']
        simp

/-- A text does not go on with a number. -/
def EndsNumber (rest : List Char) : Prop :=
  ∀ c ∈ rest.head?, digit? c = none ∧ c ≠ '.' ∧ c ≠ 'e' ∧ c ≠ 'E'

theorem EndsNumber.leadingDigits {rest : List Char} (h : EndsNumber rest) :
    leadingDigits rest = [] := by
  cases rest with
  | nil => rfl
  | cons c rest => rw [Json.leadingDigits, (h c rfl).1]

namespace Literal

theorem readWhole?_decimalText {n : Nat} {rest : List Char} (h : EndsNumber rest) :
    readWhole? (decimalText n ++ rest) = some (decimalDigits n) := by
  have hdigits : leadingDigits (decimalText n ++ rest) = decimalDigits n := by
    rw [leadingDigits_append fun c hc => digit?_of_mem_decimalText hc, h.leadingDigits,
      List.append_nil, decimalDigits]
  rw [readWhole?, hdigits]
  rcases Nat.eq_zero_or_pos n with rfl | hn
  · rfl
  · obtain ⟨d, ds, hd, hpos⟩ := decimalDigits_head hn
    obtain ⟨k, rfl⟩ := Nat.exists_eq_succ_of_ne_zero (Nat.pos_iff_ne_zero.mp hpos)
    rw [hd]
    cases ds <;> rfl

theorem readUnsigned?_decimalText {n : Nat} {rest : List Char} (negative : Bool) (sign : Nat)
    (h : EndsNumber rest) :
    readUnsigned? negative sign (decimalText n ++ rest) =
      some (⟨negative, decimalDigits n, none, none⟩, sign + (decimalText n).length) := by
  have hfraction : readFraction? rest = some (none, 0) := by
    cases rest with
    | nil => rfl
    | cons c rest => simp [readFraction?, (h c rfl).2.1]
  have hexponent : readExponent? rest = some (none, 0) := by
    cases rest with
    | nil => rfl
    | cons c rest => simp [readExponent?, (h c rfl).2.2]
  rw [readUnsigned?, readWhole?_decimalText h]
  simp [decimalDigits_length, hfraction, hexponent]

theorem value?_natural {n : Nat} (h : n ≤ maxWord) :
    value? ⟨false, decimalDigits n, none, none⟩ = some (.integer n) := by
  simp [value?, appendDigits_decimalDigits h]

theorem value?_negative {n : Nat} (hpos : 0 < n) (h : n ≤ maxWord / 2 + 1) :
    value? ⟨true, decimalDigits n, none, none⟩ = some (.integer (-n)) := by
  have hword : n ≤ maxWord := Nat.le_trans h (by decide)
  simp [value?, appendDigits_decimalDigits hword, hpos, h]

end Literal

/-- The integers that are exact when written: those of 64 bits, with or without a sign. -/
def IsWord (value : Int) : Prop := -(maxWord / 2 + 1 : Nat) ≤ value ∧ value ≤ maxWord

instance (value : Int) : Decidable (IsWord value) := inferInstanceAs (Decidable (_ ∧ _))

theorem Literal.read?_digit {d : Nat} (cs : List Char) (h : d < 10) :
    Literal.read? (Nat.digitChar d :: cs) =
      Literal.readUnsigned? false 0 (Nat.digitChar d :: cs) := by
  interval_cases d <;> rfl

theorem Literal.read?_integerText {value : Int} {rest : List Char} (hvalue : IsWord value)
    (h : EndsNumber rest) :
    ∃ literal, Literal.read? (integerText value ++ rest) =
        some (literal, (integerText value).length) ∧ literal.value? = some (.integer value) := by
  cases value with
  | ofNat n =>
      have hword : n ≤ maxWord := Int.ofNat_le.mp hvalue.2
      refine ⟨_, ?_, Literal.value?_natural hword⟩
      have hread := Literal.readUnsigned?_decimalText false 0 h (n := n)
      obtain ⟨d, cs, hd, htext⟩ := decimalText_eq_cons n
      rw [Nat.zero_add, htext, List.cons_append] at hread
      rw [integerText, htext, List.cons_append, Literal.read?_digit _ hd, hread]
  | negSucc n =>
      have hword : n + 1 ≤ maxWord / 2 + 1 := by
        have hlow := hvalue.1
        omega
      refine ⟨_, ?_, Literal.value?_negative (Nat.succ_pos n) hword⟩
      have hread := Literal.readUnsigned?_decimalText true 1 h (n := n + 1)
      rw [Nat.add_comm 1] at hread
      rw [integerText, List.cons_append, Literal.read?, hread, List.length_cons]

theorem Token.read?_integerText {value : Int} {rest : List Char} (hvalue : IsWord value)
    (h : EndsNumber rest) :
    Token.read? (integerText value ++ rest) =
      some (.number (some (.integer value)), (integerText value).length) := by
  obtain ⟨literal, hread, hliteral⟩ := Literal.read?_integerText hvalue h
  have htoken : Token.read? (integerText value ++ rest) =
      (Literal.read? (integerText value ++ rest)).map
        fun read => (Token.number read.1.value?, read.2) := by
    cases value with
    | ofNat n =>
        obtain ⟨d, cs, hd, htext⟩ := decimalText_eq_cons n
        rw [integerText, htext, List.cons_append]
        interval_cases d <;> rfl
    | negSucc n => rfl
  simp [htoken, hread, hliteral]


private theorem hexUnit?_control {n : Nat} (h : n < 32) :
    hexUnit? '0' '0' (hexChar (n / 16)) (hexChar (n % 16)) = some n := by
  have hall : ∀ n < 32, hexUnit? '0' '0' (hexChar (n / 16)) (hexChar (n % 16)) = some n := by
    decide
  exact hall n h

/-- A character is written as a letter behind a backslash, as the hexadecimal code of a control, or
as itself. -/
theorem escape_cases (c : Char) :
    (∃ letter, letter ≠ 'u' ∧ escapedChar? letter = some c ∧ escape c = ['\\', letter]) ∨
      (c.toNat < 0x20 ∧ escape c =
        ['\\', 'u', '0', '0', hexChar (c.toNat / 16), hexChar (c.toNat % 16)]) ∨
      (c ≠ '"' ∧ c ≠ '\\' ∧ ¬c.toNat < 0x20 ∧ escape c = [c]) := by
  by_cases hquote : c = '"'
  · exact .inl ⟨'"', by decide, by rw [hquote]; rfl, by rw [hquote]; rfl⟩
  by_cases hbackslash : c = '\\'
  · exact .inl ⟨'\\', by decide, by rw [hbackslash]; rfl, by rw [hbackslash]; rfl⟩
  by_cases hline : c = '\n'
  · exact .inl ⟨'n', by decide, by rw [hline]; rfl, by rw [hline]; rfl⟩
  by_cases hreturn : c = '\r'
  · exact .inl ⟨'r', by decide, by rw [hreturn]; rfl, by rw [hreturn]; rfl⟩
  by_cases htab : c = '\t'
  · exact .inl ⟨'t', by decide, by rw [htab]; rfl, by rw [htab]; rfl⟩
  by_cases hback : c = '\x08'
  · exact .inl ⟨'b', by decide, by rw [hback]; rfl, by rw [hback]; rfl⟩
  by_cases hfeed : c = '\x0c'
  · exact .inl ⟨'f', by decide, by rw [hfeed]; rfl, by rw [hfeed]; rfl⟩
  right
  by_cases hcontrol : c.toNat < 0x20
  · exact .inl ⟨hcontrol, by
      simp [escape, hquote, hbackslash, hline, hreturn, htab, hback, hfeed, hcontrol]⟩
  · exact .inr ⟨hquote, hbackslash, hcontrol, by
      simp [escape, hquote, hbackslash, hline, hreturn, htab, hback, hfeed, hcontrol]⟩

theorem readQuoted?_escape (c : Char) {rest : List Char} {units : List Nat} {length : Nat}
    (h : readQuoted? rest = some (units, length)) :
    readQuoted? (escape c ++ rest) = some (c.toNat :: units, length + (escape c).length) := by
  rcases escape_cases c with ⟨letter, hletter, hc, hescape⟩ | ⟨hcontrol, hescape⟩ |
    ⟨hquote, hbackslash, hcontrol, hescape⟩
  · simp [hescape, readQuoted?, hletter, hc, h]
  · simp [hescape, readQuoted?, hexUnit?_control hcontrol, h]
  · simp [hescape, readQuoted?, hbackslash, hcontrol, h]

theorem readQuoted?_escapes (text rest : List Char) :
    readQuoted? (text.flatMap escape ++ '"' :: rest) =
      some (text.map Char.toNat, (text.flatMap escape).length + 1) := by
  induction text with
  | nil => simp [readQuoted?]
  | cons c text ih =>
      rw [List.flatMap_cons, List.append_assoc, readQuoted?_escape c ih]
      simp only [List.map_cons, List.length_append]
      congr 2
      omega

theorem pairUnits?_toNat (text : List Char) : pairUnits? (text.map Char.toNat) = some text := by
  induction text with
  | nil => rfl
  | cons c text ih =>
      have hvalid : c.toNat < 0xD800 ∨ 0xDFFF < c.toNat ∧ c.toNat < 0x110000 := c.valid
      have hhigh : isHighSurrogate c.toNat = false := by
        simp [isHighSurrogate]
        omega
      have hlow : isLowSurrogate c.toNat = false := by
        simp [isLowSurrogate]
        omega
      rw [List.map_cons, pairUnits?.eq_def]
      simp [hhigh, hlow, ih]

theorem Token.read?_quote (text : String) (rest : List Char) :
    Token.read? (quote text ++ rest) = some (.string (some text), (quote text).length) := by
  have hread := readQuoted?_escapes text.toList rest
  simp [quote, Token.read?, hread, pairUnits?_toNat]

end Json

end PromptRegistry

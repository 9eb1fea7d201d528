import PromptRegistry.Text.Basic

namespace PromptRegistry

theorem digit?_digitChar {d : Nat} (h : d < 10) : digit? (Nat.digitChar d) = some d := by
  have hall : ∀ d < 10, digit? (Nat.digitChar d) = some d := by decide
  exact hall d h

theorem decimalText_of_lt {n : Nat} (h : n < 10) : decimalText n = [Nat.digitChar n] :=
  Nat.toDigits_of_lt_base h

theorem decimalText_of_le {n : Nat} (h : 10 ≤ n) :
    decimalText n = decimalText (n / 10) ++ [Nat.digitChar (n % 10)] :=
  Nat.toDigits_of_base_le (by decide) h

theorem decimalText_eq_cons (n : Nat) :
    ∃ d cs, d < 10 ∧ decimalText n = Nat.digitChar d :: cs := by
  induction n using Nat.strongRecOn with
  | ind n ih =>
      rcases Nat.lt_or_ge n 10 with hn | hn
      · exact ⟨n, [], hn, decimalText_of_lt hn⟩
      · obtain ⟨d, cs, hd, htext⟩ := ih (n / 10) (Nat.div_lt_self (by omega) (by decide))
        refine ⟨d, cs ++ [Nat.digitChar (n % 10)], hd, ?_⟩
        rw [decimalText_of_le hn, htext, List.cons_append]

def decimalDigits (n : Nat) : List Nat := (decimalText n).filterMap digit?

theorem decimalDigits_of_lt {n : Nat} (h : n < 10) : decimalDigits n = [n] := by
  simp [decimalDigits, decimalText_of_lt h, digit?_digitChar h]

theorem decimalDigits_of_le {n : Nat} (h : 10 ≤ n) :
    decimalDigits n = decimalDigits (n / 10) ++ [n % 10] := by
  have hlast : n % 10 < 10 := Nat.mod_lt n (by decide)
  simp [decimalDigits, decimalText_of_le h, digit?_digitChar hlast]

theorem digit?_of_mem_decimalText {n : Nat} {c : Char} (h : c ∈ decimalText n) :
    ∃ d, digit? c = some d := by
  induction n using Nat.strongRecOn with
  | ind n ih =>
      rcases Nat.lt_or_ge n 10 with hn | hn
      · rw [decimalText_of_lt hn, List.mem_singleton] at h
        exact ⟨n, h ▸ digit?_digitChar hn⟩
      · rw [decimalText_of_le hn, List.mem_append, List.mem_singleton] at h
        rcases h with h | h
        · exact ih (n / 10) (Nat.div_lt_self (by omega) (by decide)) h
        · exact ⟨n % 10, h ▸ digit?_digitChar (Nat.mod_lt n (by decide))⟩

theorem decimalDigits_length (n : Nat) : (decimalDigits n).length = (decimalText n).length := by
  induction n using Nat.strongRecOn with
  | ind n ih =>
      rcases Nat.lt_or_ge n 10 with hn | hn
      · simp [decimalDigits_of_lt hn, decimalText_of_lt hn]
      · simp [decimalDigits_of_le hn, decimalText_of_le hn,
          ih (n / 10) (Nat.div_lt_self (by omega) (by decide))]

theorem decimalDigits_head {n : Nat} (h : 0 < n) : ∃ d ds, decimalDigits n = d :: ds ∧ 0 < d := by
  induction n using Nat.strongRecOn with
  | ind n ih =>
      rcases Nat.lt_or_ge n 10 with hn | hn
      · exact ⟨n, [], decimalDigits_of_lt hn, h⟩
      · obtain ⟨d, ds, hdigits, hd⟩ :=
          ih (n / 10) (Nat.div_lt_self (by omega) (by decide)) (by omega)
        exact ⟨d, ds ++ [n % 10], by rw [decimalDigits_of_le hn, hdigits, List.cons_append], hd⟩

/-- A text of digits, behind a plus sign or not, that stands for a number. -/
def IsCount (text : List Char) (n : Nat) : Prop :=
  ∃ digits, (text = digits ∨ text = '+' :: digits) ∧ digits ≠ [] ∧
    (∀ c ∈ digits, c.isDigit = true) ∧ Nat.ofDigitChars 10 digits 0 = n

/-- The digits at the front of a text stand for a number over a limit. -/
def Overruns (limit : Nat) (text : List Char) : Prop :=
  ∃ digits rest, (text = digits ++ rest ∨ text = '+' :: (digits ++ rest)) ∧
    (∀ c ∈ digits, c.isDigit = true) ∧ limit < Nat.ofDigitChars 10 digits 0

variable {limit value n : Nat} {text : List Char}

theorem digit?_eq_some_iff {c : Char} {d : Nat} :
    digit? c = some d ↔ c.isDigit = true ∧ c.toNat - '0'.toNat = d := by
  simp [digit?, Char.isDigit, Char.le_def]

theorem le_ofDigitChars (text : List Char) (value : Nat) :
    value ≤ Nat.ofDigitChars 10 text value := by
  induction text generalizing value with
  | nil => exact Nat.le_refl _
  | cons c cs ih =>
      calc
        value ≤ 10 * value + (c.toNat - '0'.toNat) := by omega
        _ ≤ Nat.ofDigitChars 10 cs (10 * value + (c.toNat - '0'.toNat)) := ih _

theorem digit?_eq_none_iff {c : Char} : digit? c = none ↔ c.isDigit = false := by
  simp [digit?, Char.isDigit, Char.le_def]

theorem ofDigitChars_cons (c : Char) (text : List Char) (value : Nat) :
    Nat.ofDigitChars 10 (c :: text) value =
      Nat.ofDigitChars 10 text (value * 10 + (c.toNat - '0'.toNat)) := by
  rw [Nat.mul_comm value 10]
  rfl

theorem readDigits_of_digit {c : Char} (hc : c.isDigit = true) (text : List Char) :
    readDigits limit value (c :: text) =
      if limit < value * 10 + (c.toNat - '0'.toNat) then .error .tooLarge
      else readDigits limit (value * 10 + (c.toNat - '0'.toNat)) text := by
  rw [readDigits, digit?_eq_some_iff.mpr ⟨hc, rfl⟩]

theorem readDigits_of_not_digit {c : Char} (hc : c.isDigit = false) (text : List Char) :
    readDigits limit value (c :: text) = .error .invalidDigit := by
  rw [readDigits, digit?_eq_none_iff.mpr hc]

/-- What has been read is below the limit, and digits can only add to it. -/
theorem readDigits_eq_ok_iff (hvalue : value ≤ limit) : readDigits limit value text = .ok n ↔
    (∀ c ∈ text, c.isDigit = true) ∧ Nat.ofDigitChars 10 text value = n ∧ n ≤ limit := by
  induction text generalizing value with
  | nil =>
      simp only [readDigits, Nat.ofDigitChars_nil, Except.ok.injEq, List.not_mem_nil,
        false_implies, implies_true, true_and]
      exact ⟨fun h => ⟨h, h ▸ hvalue⟩, fun h => h.1⟩
  | cons c cs ih =>
      cases hc : c.isDigit with
      | false => simp [readDigits_of_not_digit hc, hc]
      | true =>
          rw [readDigits_of_digit hc, ofDigitChars_cons, List.forall_mem_cons]
          split
          case isTrue hover =>
            have hle := le_ofDigitChars cs (value * 10 + (c.toNat - '0'.toNat))
            simp only [reduceCtorEq, false_iff, not_and]
            intro _ heq
            omega
          case isFalse hwithin =>
            rw [ih (Nat.not_lt.mp hwithin)]
            simp only [hc, true_and]

theorem readDigits_tooLarge_iff (hvalue : value ≤ limit) :
    readDigits limit value text = .error .tooLarge ↔
      ∃ digits rest, text = digits ++ rest ∧ (∀ c ∈ digits, c.isDigit = true) ∧
        limit < Nat.ofDigitChars 10 digits value := by
  induction text generalizing value with
  | nil =>
      simp only [readDigits, reduceCtorEq, List.nil_eq, List.append_eq_nil_iff, false_iff]
      rintro ⟨_, _, ⟨rfl, rfl⟩, -, hover⟩
      exact Nat.not_lt.mpr hvalue hover
  | cons c cs ih =>
      have hfront : (∃ digits rest, c :: cs = digits ++ rest ∧
            (∀ c ∈ digits, c.isDigit = true) ∧ limit < Nat.ofDigitChars 10 digits value) ↔
          c.isDigit = true ∧ ∃ digits rest, cs = digits ++ rest ∧
            (∀ c ∈ digits, c.isDigit = true) ∧
              limit < Nat.ofDigitChars 10 digits (value * 10 + (c.toNat - '0'.toNat)) := by
        constructor
        · rintro ⟨digits, rest, htext, hdigits, hover⟩
          cases digits with
          | nil => exact absurd hover (Nat.not_lt.mpr hvalue)
          | cons d digits =>
              obtain ⟨rfl, rfl⟩ := List.cons.inj htext
              obtain ⟨hc, hdigits⟩ := List.forall_mem_cons.mp hdigits
              exact ⟨hc, digits, rest, rfl, hdigits, ofDigitChars_cons c digits value ▸ hover⟩
        · rintro ⟨hc, digits, rest, rfl, hdigits, hover⟩
          exact ⟨c :: digits, rest, rfl, List.forall_mem_cons.mpr ⟨hc, hdigits⟩,
            ofDigitChars_cons c digits value ▸ hover⟩
      rw [hfront]
      cases hc : c.isDigit with
      | false => simp [readDigits_of_not_digit hc]
      | true =>
          rw [readDigits_of_digit hc]
          split
          case isTrue hover => exact iff_of_true rfl ⟨rfl, [], cs, rfl, by simp, hover⟩
          case isFalse hwithin => rw [ih (Nat.not_lt.mp hwithin), eq_self, true_and]

/-- A plus sign is no digit, so that a text is read in at most one of the two ways. -/
theorem readCount_eq_iff {outcome : Except CountFault Nat}
    (houtcome : outcome ≠ .error .invalidDigit) : readCount limit text = outcome ↔
      ∃ digits, (text = digits ∨ text = '+' :: digits) ∧ digits ≠ [] ∧
        readDigits limit 0 digits = outcome := by
  constructor
  · intro h
    unfold readCount at h
    split at h
    case h_1 c cs => exact ⟨c :: cs, .inr rfl, by simp, h⟩
    case h_2 => exact absurd h.symm houtcome
    case h_3 hnil => exact ⟨text, .inl rfl, fun heq => hnil heq, h⟩
  · rintro ⟨digits, rfl | rfl, hne, hread⟩
    · unfold readCount
      split
      case h_1 c cs =>
        rw [readDigits_of_not_digit (by decide)] at hread
        exact absurd hread.symm houtcome
      case h_2 => exact absurd rfl hne
      case h_3 => exact hread
    · obtain ⟨c, cs, rfl⟩ := List.exists_cons_of_ne_nil hne
      exact hread

theorem readCount_eq_ok_iff : readCount limit text = .ok n ↔ IsCount text n ∧ n ≤ limit := by
  rw [readCount_eq_iff (by simp), IsCount]
  simp only [readDigits_eq_ok_iff (Nat.zero_le limit)]
  constructor
  · rintro ⟨digits, htext, hne, hdigits, hvalue, hn⟩
    exact ⟨⟨digits, htext, hne, hdigits, hvalue⟩, hn⟩
  · rintro ⟨⟨digits, htext, hne, hdigits, hvalue⟩, hn⟩
    exact ⟨digits, htext, hne, hdigits, hvalue, hn⟩

theorem readCount_tooLarge_iff :
    readCount limit text = .error .tooLarge ↔ Overruns limit text := by
  rw [readCount_eq_iff (by simp), Overruns]
  simp only [readDigits_tooLarge_iff (Nat.zero_le limit)]
  constructor
  · rintro ⟨_, htext, -, digits, rest, rfl, hdigits, hover⟩
    exact ⟨digits, rest, htext, hdigits, hover⟩
  · rintro ⟨digits, rest, htext, hdigits, hover⟩
    refine ⟨_, htext, ?_, digits, rest, rfl, hdigits, hover⟩
    rintro hnil
    obtain ⟨rfl, -⟩ := List.append_eq_nil_iff.mp hnil
    exact absurd hover (Nat.not_lt_zero limit)

theorem IsCount.ne_nil (h : IsCount text n) : text ≠ [] := by
  obtain ⟨digits, rfl | rfl, hne, -⟩ := h
  · exact hne
  · exact List.cons_ne_nil _ _

theorem Overruns.not_isCount (h : Overruns limit text) (hn : n ≤ limit) : ¬IsCount text n := by
  intro hcount
  have hread := (readCount_eq_ok_iff.mpr ⟨hcount, hn⟩).symm.trans (readCount_tooLarge_iff.mpr h)
  cases hread

theorem CountFault.eq_of_tooLarge_iff {fault other : CountFault}
    (h : fault = .tooLarge ↔ other = .tooLarge) : fault = other := by
  cases fault <;> cases other <;> simp_all

theorem IsCount.overruns (h : IsCount text n) (hn : limit < n) : Overruns limit text := by
  obtain ⟨digits, htext, -, hdigits, rfl⟩ := h
  exact ⟨digits, [], by simpa using htext, hdigits, hn⟩

end PromptRegistry

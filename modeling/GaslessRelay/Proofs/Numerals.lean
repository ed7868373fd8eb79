import GaslessRelay.Proofs.Outcome
import GaslessRelay.Text.Numeral
import Mathlib.Data.Bool.AllAny
import Mathlib.Tactic.SplitIfs

/-!
What rows of digits spell, and which numerals are read. Main statements: the digits of a number in
base ten spell it (`spells_toDigits`), and a bounded numeral is read just if it is a row of decimal
digits, perhaps behind a plus sign, that spells a number in range (`readDecimal?_eq_some`).
-/

namespace GaslessRelay.Text

open Numeral (digitValue? readDigits)

/-- Digits of a base, the highest one first, take one number to another as they are read. -/
inductive Appends (base : Nat) : (start : Nat) → (digits : List Char) → (number : Nat) → Prop
  | nil {start : Nat} : Appends base start [] start
  | cons {start value number : Nat} {char : Char} {rest : List Char}
      (valued : digitValue? char = some value) (small : value < base)
      (others : Appends base (start * base + value) rest number) :
      Appends base start (char :: rest) number

/-- The number that digits of a base spell. No digits spell zero. -/
abbrev Spells (base : Nat) (digits : List Char) (number : Nat) : Prop := Appends base 0 digits number

namespace Appends

variable {base start number : Nat} {char : Char} {digits rest : List Char}

theorem nil_iff : Appends base start [] number ↔ number = start := by
  constructor
  · rintro ⟨⟩
    rfl
  · rintro rfl
    exact .nil

theorem cons_iff : Appends base start (char :: rest) number ↔
    ∃ value, digitValue? char = some value ∧ value < base ∧
      Appends base (start * base + value) rest number := by
  constructor
  · intro appends
    cases appends with
    | cons valued small others => exact ⟨_, valued, small, others⟩
  · rintro ⟨value, valued, small, others⟩
    exact .cons valued small others

theorem append_iff {more : List Char} : Appends base start (digits ++ more) number ↔
    ∃ middle, Appends base start digits middle ∧ Appends base middle more number := by
  induction digits generalizing start with
  | nil => simp [nil_iff]
  | cons char rest ih =>
    simp only [List.cons_append, cons_iff, ih]
    constructor
    · rintro ⟨value, valued, small, middle, first, second⟩
      exact ⟨middle, ⟨value, valued, small, first⟩, second⟩
    · rintro ⟨middle, ⟨value, valued, small, first⟩, second⟩
      exact ⟨value, valued, small, middle, first, second⟩

theorem snoc_iff : Appends base start (digits ++ [char]) number ↔
    ∃ middle value, Appends base start digits middle ∧ digitValue? char = some value ∧
      value < base ∧ number = middle * base + value := by
  simp only [append_iff, cons_iff, nil_iff]
  constructor
  · rintro ⟨middle, first, value, valued, small, same⟩
    exact ⟨middle, value, first, valued, small, same⟩
  · rintro ⟨middle, value, first, valued, small, same⟩
    exact ⟨middle, first, value, valued, small, same⟩

/-- Digits never make a number smaller. -/
theorem le (appends : Appends base start digits number) (positive : 0 < base) : start ≤ number := by
  induction appends with
  | nil => exact Nat.le_refl _
  | cons _ _ _ ih => exact Nat.le_trans (Nat.le_trans (Nat.le_mul_of_pos_right _ positive)
      (Nat.le_add_right _ _)) ih

/-- Each of the digits has a value. -/
theorem valued_of_mem (appends : Appends base start digits number) (member : char ∈ digits) :
    ∃ value, digitValue? char = some value := by
  induction appends with
  | nil => cases member
  | cons valued _ _ ih =>
    rcases List.mem_cons.1 member with rfl | member
    · exact ⟨_, valued⟩
    · exact ih member

end Appends

/-- A character with the value of a digit is one of `0` to `9`, `a` to `z` and `A` to `Z`. -/
theorem alphanumeric_of_valued {char : Char} {value : Nat}
    (valued : digitValue? char = some value) :
    48 ≤ char.toNat ∧ char.toNat ≤ 57 ∨ 97 ≤ char.toNat ∧ char.toNat ≤ 122 ∨
      65 ≤ char.toNat ∧ char.toNat ≤ 90 := by
  have bounds : ∀ {low high : Char}, low ≤ char ∧ char ≤ high →
      low.toNat ≤ char.toNat ∧ char.toNat ≤ high.toNat := fun range => range
  unfold digitValue? at valued
  split_ifs at valued with digit lower upper
  · exact .inl (bounds digit)
  · exact .inr (.inl (bounds lower))
  · exact .inr (.inr (bounds upper))

theorem digitValue?_decimal {char : Char} (decimal : char.isDigit = true) :
    digitValue? char = some (char.toNat - 48) ∧ char.toNat - 48 < 10 := by
  have bounds : 48 ≤ char.toNat ∧ char.toNat ≤ 57 := Char.isDigit_iff_toNat.1 decimal
  obtain ⟨low, high⟩ := bounds
  have range : '0' ≤ char ∧ char ≤ '9' :=
    ⟨Char.le_def.2 (UInt32.le_iff_toNat_le.2 low), Char.le_def.2 (UInt32.le_iff_toNat_le.2 high)⟩
  unfold digitValue?
  rw [if_pos range]
  exact ⟨rfl, by omega⟩

theorem appends_ofDigitChars {digits : List Char} (decimal : ∀ char ∈ digits, char.isDigit = true)
    (start : Nat) : Appends 10 start digits (Nat.ofDigitChars 10 digits start) := by
  induction digits generalizing start with
  | nil => exact .nil
  | cons char rest ih =>
    obtain ⟨valued, small⟩ := digitValue?_decimal (decimal char List.mem_cons_self)
    have step : Nat.ofDigitChars 10 (char :: rest) start
        = Nat.ofDigitChars 10 rest (start * 10 + (char.toNat - 48)) := by
      rw [Nat.ofDigitChars_cons, Nat.mul_comm]
      rfl
    rw [step]
    exact .cons valued small
      (ih (fun other member => decimal other (List.mem_cons_of_mem _ member)) _)

theorem isDigit_toDigits (number : Nat) : ∀ char ∈ Nat.toDigits 10 number, char.isDigit = true :=
  fun _ member => Nat.isDigit_of_mem_toDigits (by decide) (by decide) member

theorem not_mem_toDigits {char : Char} (other : char.isDigit = false) (number : Nat) :
    char ∉ Nat.toDigits 10 number := by
  intro member
  have digit := isDigit_toDigits number char member
  rw [other] at digit
  cases digit

/-- The digits of a number spell it. -/
theorem spells_toDigits (number : Nat) : Spells 10 (Nat.toDigits 10 number) number := by
  have appends := appends_ofDigitChars (isDigit_toDigits number) 0
  rwa [Nat.ofDigitChars_ten_toDigits] at appends

/-- Digits are read up to the limit, which only the last number needs to keep. -/
theorem readDigits_eq_ok {base limit : Nat} (positive : 0 < base) {digits : List Char}
    {total number : Nat} : readDigits base limit total digits = .ok number ↔
      Appends base total digits number ∧ (digits = [] ∨ number < limit) := by
  induction digits generalizing total with
  | nil =>
    rw [readDigits, Appends.nil_iff]
    simp [eq_comm]
  | cons char rest ih =>
    rw [readDigits, Appends.cons_iff]
    cases valued : digitValue? char with
    | none => simp
    | some value =>
      by_cases small : value < base
      · by_cases room : total * base + value < limit
        · simp [small, room, ih]
          rintro appends rfl
          rw [Appends.nil_iff] at appends
          rwa [appends]
        · simp [small, room]
          intro appends
          exact Nat.le_trans (Nat.le_of_not_lt room) (appends.le positive)
      · simp [small]

/-- A numeral of at most 64 bits: decimal digits, perhaps behind a plus sign. -/
def IsBounded (text : List Char) (number : Nat) : Prop :=
  ∃ digits, (text = digits ∨ text = '+' :: digits) ∧ digits ≠ [] ∧ Spells 10 digits number ∧
    number < wordLimit

theorem IsBounded.ne_nil {text : List Char} {number : Nat} (bounded : IsBounded text number) :
    text ≠ [] := by
  obtain ⟨digits, rfl | rfl, some, -⟩ := bounded
  · exact some
  · exact List.cons_ne_nil _ _

theorem IsBounded.sign_or_valued {text : List Char} {number : Nat} (bounded : IsBounded text number)
    {char : Char} (member : char ∈ text) :
    char = '+' ∨ ∃ value, digitValue? char = some value := by
  obtain ⟨digits, rfl | rfl, -, spells, -⟩ := bounded
  · exact .inr (spells.valued_of_mem member)
  · rcases List.mem_cons.1 member with same | member
    · exact .inl same
    · exact .inr (spells.valued_of_mem member)

theorem IsBounded.small {text : List Char} {number : Nat} (bounded : IsBounded text number) :
    number < wordLimit := by
  obtain ⟨digits, -, -, -, small⟩ := bounded
  exact small

theorem isBounded_toDigits {number : Nat} (small : number < wordLimit) :
    IsBounded (Nat.toDigits 10 number) number :=
  ⟨_, .inl rfl, Nat.toDigits_ne_nil, spells_toDigits number, small⟩

theorem readDigits_eq_ok_of_ne_nil {digits : List Char} (some : digits ≠ []) {number : Nat} :
    readDigits 10 wordLimit 0 digits = .ok number ↔
      Spells 10 digits number ∧ number < wordLimit := by
  rw [readDigits_eq_ok (by decide), or_iff_right some]

theorem readDecimal?_eq_some {text : List Char} {number : Nat} :
    readDecimal? text = some number ↔ IsBounded text number := by
  rw [readDecimal?, Outcome.toOption_eq_some]
  unfold Numeral.read
  split
  · simp [IsBounded]
  · rename_i digits
    -- A plus sign is no digit, so the digits stand behind it.
    have only : IsBounded ('+' :: digits) number ↔
        digits ≠ [] ∧ Spells 10 digits number ∧ number < wordLimit := by
      constructor
      · rintro ⟨all, rfl | same, some, spells, small⟩
        · obtain ⟨value, valued, -⟩ := Appends.cons_iff.1 spells
          cases valued
        · cases same
          exact ⟨some, spells, small⟩
      · rintro ⟨some, spells, small⟩
        exact ⟨digits, .inr rfl, some, spells, small⟩
    rw [only]
    by_cases none : digits = []
    · simp [none]
    · rw [if_neg (by simpa using none), readDigits_eq_ok_of_ne_nil none]
      simp [none]
  · rename_i some unsigned
    rw [readDigits_eq_ok_of_ne_nil some]
    constructor
    · rintro ⟨spells, small⟩
      exact ⟨text, .inl rfl, some, spells, small⟩
    · rintro ⟨digits, rfl | rfl, -, spells, small⟩
      · exact ⟨spells, small⟩
      · exact absurd rfl (unsigned digits)

end GaslessRelay.Text

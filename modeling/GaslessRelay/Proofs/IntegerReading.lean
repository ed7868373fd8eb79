import GaslessRelay.Proofs.Numerals
import GaslessRelay.Text.Hex
import GaslessRelay.Text.Integer

/-!
Which bytes are read as integers of payloads. The texts are given as two languages (`IsUnsigned` and
`IsSigned`). Main statements: bytes are read as an unsigned or as a signed integer just if they are a
text of the language, for a number of 256 bits (`readUnsigned_eq_ok`, `readSigned_eq_ok`).
-/

namespace GaslessRelay.Text

open Integer (digit readGroups appendGroup groupSize readDecimal readBits readUnsigned readSigned)

/-- A text without its underscores. -/
def unseparated (text : List Char) : List Char := text.filter (· ≠ '_')

theorem unseparated_cons_underscore (rest : List Char) :
    unseparated ('_' :: rest) = unseparated rest := rfl

theorem unseparated_cons {char : Char} (plain : char ≠ '_') (rest : List Char) :
    unseparated (char :: rest) = char :: unseparated rest :=
  List.filter_cons_of_pos (by simpa using plain)

theorem unseparated_append (front behind : List Char) :
    unseparated (front ++ behind) = unseparated front ++ unseparated behind :=
  List.filter_append ..

theorem unseparated_eq_self {text : List Char} (plain : '_' ∉ text) : unseparated text = text := by
  refine List.filter_eq_self.2 fun char member => ?_
  have different : char ≠ '_' := fun same => plain (same ▸ member)
  simpa using different

theorem latin1_eq_underscore (byte : UInt8) : latin1 byte = '_' ↔ byte = 95 := by
  revert byte
  exact Hex.byteInduction (by decide +kernel)

/-- A digit as a byte has the value that it has as a character. -/
theorem digit_eq_ok {base value : Nat} {byte : UInt8} :
    digit base byte = .ok value ↔ Numeral.digitValue? (latin1 byte) = some value ∧ value < base := by
  have same : ∀ byte, Integer.digitValue? byte = Numeral.digitValue? (latin1 byte) :=
    Hex.byteInduction (by decide +kernel)
  unfold digit
  rw [same]
  cases Numeral.digitValue? (latin1 byte) with
  | none => simp
  | some other =>
    by_cases small : other < base
    · simp only [small, if_true, Except.ok.injEq, Option.some.injEq]
      constructor
      · rintro rfl
        exact ⟨rfl, small⟩
      · exact And.left
    · simp only [small, if_false, Option.some.injEq, reduceCtorEq, false_iff, not_and]
      rintro rfl
      exact small

theorem appendGroup_eq_ok {total group count number : Nat} :
    appendGroup total group count = .ok number ↔
      total * Nat.pow 10 count + group = number ∧ number < Integer.limit := by
  unfold appendGroup
  dsimp only
  split
  · rename_i small
    simp only [Except.ok.injEq]
    constructor
    · rintro rfl
      exact ⟨rfl, small⟩
    · exact And.left
  · rename_i large
    simp only [reduceCtorEq, false_iff, not_and]
    rintro rfl
    exact large

/-- Decimal digits are read in groups, but only their whole number needs to be in range. -/
theorem readGroups_eq_ok_iff {text : Bytes} {total group count number : Nat}
    (room : count < groupSize) : readGroups total group count text = .ok number ↔
      Appends 10 (total * Nat.pow 10 count + group) (unseparated (text.map latin1)) number ∧
        number < Integer.limit := by
  induction text generalizing total group count with
  | nil =>
    rw [readGroups, appendGroup_eq_ok, List.map_nil, unseparated, List.filter_nil, Appends.nil_iff]
    rw [eq_comm]
  | cons byte rest ih =>
    rw [readGroups, List.map_cons]
    by_cases separator : byte = 95
    · rw [if_pos separator, (latin1_eq_underscore byte).2 separator, unseparated_cons_underscore]
      exact ih room
    · rw [if_neg separator,
        unseparated_cons fun same => separator ((latin1_eq_underscore byte).1 same),
        Appends.cons_iff, Outcome.bind_eq_ok]
      -- One digit more: it ends a group, or the group goes on.
      have step : ∀ value,
          (if count + 1 = groupSize then
            appendGroup total (group * 10 + value) groupSize >>= fun next => readGroups next 0 0 rest
          else readGroups total (group * 10 + value) (count + 1) rest) = .ok number ↔
          Appends 10 ((total * Nat.pow 10 count + group) * 10 + value)
            (unseparated (rest.map latin1)) number ∧ number < Integer.limit := by
        intro value
        have shifted : (total * Nat.pow 10 count + group) * 10 + value
            = total * Nat.pow 10 (count + 1) + (group * 10 + value) := by
          rw [Nat.pow_eq, Nat.pow_eq, Nat.pow_succ, Nat.add_mul, Nat.mul_assoc, Nat.add_assoc]
        rw [shifted]
        by_cases full : count + 1 = groupSize
        · rw [if_pos full, full, Outcome.bind_eq_ok]
          simp only [appendGroup_eq_ok, ih (show 0 < groupSize by decide)]
          constructor
          · rintro ⟨next, ⟨rfl, -⟩, others, small⟩
            exact ⟨by simpa using others, small⟩
          · rintro ⟨others, small⟩
            exact ⟨_, ⟨rfl, Nat.lt_of_le_of_lt (others.le (by decide)) small⟩,
              by simpa using others, small⟩
        · rw [if_neg full]
          exact ih (by omega)
      constructor
      · rintro ⟨value, isDigit, read⟩
        obtain ⟨valued, small⟩ := digit_eq_ok.1 isDigit
        obtain ⟨others, inRange⟩ := (step value).1 read
        exact ⟨⟨value, valued, small, others⟩, inRange⟩
      · rintro ⟨⟨value, valued, small, others⟩, inRange⟩
        exact ⟨value, digit_eq_ok.2 ⟨valued, small⟩, (step value).2 ⟨others, inRange⟩⟩

theorem readDecimal_eq_ok {text : Bytes} {number : Nat} :
    readDecimal text = .ok number ↔
      Spells 10 (unseparated (text.map latin1)) number ∧ number < Integer.limit := by
  have whole : readGroups 0 0 0 text = .ok number ↔ _ := readGroups_eq_ok_iff (by decide)
  simpa [readDecimal] using whole

theorem shifted_eq (width shift middle value : Nat) :
    (middle * Nat.pow 2 width + value) * Nat.pow 2 shift
      = middle * Nat.pow 2 (shift + width) + value * Nat.pow 2 shift := by
  simp only [Nat.pow_eq]
  rw [Nat.add_mul, Nat.mul_assoc, ← Nat.pow_add, Nat.add_comm width shift]

/-- With another digit a number stays in range if what stands before the digit does, and the digit
itself. -/
theorem shifted_lt_limit {width shift middle value : Nat} (small : value < Nat.pow 2 width) :
    (middle * Nat.pow 2 width + value) * Nat.pow 2 shift < Integer.limit ↔
      middle * Nat.pow 2 (shift + width) < Integer.limit ∧
        value * Nat.pow 2 shift < Integer.limit := by
  have limit_eq : Integer.limit = 2 ^ 256 := rfl
  rw [shifted_eq]
  simp only [Nat.pow_eq] at small ⊢
  have digitSmall : value * 2 ^ shift < 2 ^ (shift + width) := by
    rw [Nat.pow_add, Nat.mul_comm (2 ^ shift)]
    exact Nat.mul_lt_mul_of_pos_right small (Nat.two_pow_pos shift)
  constructor
  · intro whole
    omega
  · rintro ⟨front, digit⟩
    by_cases none : middle = 0
    · simpa [none] using digit
    · have below : 2 ^ (shift + width) < 2 ^ 256 :=
        Nat.lt_of_le_of_lt (Nat.le_mul_of_pos_left _ (Nat.pos_of_ne_zero none)) (limit_eq ▸ front)
      have shallow : shift + width ≤ 256 :=
        Nat.le_of_lt ((Nat.pow_lt_pow_iff_right (by decide)).1 below)
      obtain ⟨count, total⟩ := Nat.pow_dvd_pow 2 shallow
      have room : middle < count := by
        rw [limit_eq, total, Nat.mul_comm] at front
        exact Nat.lt_of_mul_lt_mul_left front
      calc middle * 2 ^ (shift + width) + value * 2 ^ shift
          < middle * 2 ^ (shift + width) + 2 ^ (shift + width) := Nat.add_lt_add_left digitSmall _
        _ = (middle + 1) * 2 ^ (shift + width) := by rw [Nat.add_mul, Nat.one_mul]
        _ ≤ count * 2 ^ (shift + width) := Nat.mul_le_mul_right _ room
        _ = Integer.limit := by rw [limit_eq, total, Nat.mul_comm]

/-- Digits of a power of two are read from the right, and each of them needs to be in range. -/
theorem readBits_eq_ok {width : Nat} {reversed : Bytes} {shift total result : Nat} :
    readBits width shift total reversed = .ok result ↔
      ∃ number, Spells (Nat.pow 2 width) (unseparated (reversed.reverse.map latin1)) number ∧
        number * Nat.pow 2 shift < Integer.limit ∧ total + number * Nat.pow 2 shift = result := by
  induction reversed generalizing shift total with
  | nil =>
    have limit_pos : 0 < Integer.limit := by decide
    simp [readBits, unseparated, Appends.nil_iff, limit_pos]
  | cons byte rest ih =>
    rw [readBits, List.reverse_cons, List.map_append, List.map_singleton, unseparated_append]
    by_cases separator : byte = 95
    · have dropped : unseparated ['_'] = [] := rfl
      rw [if_pos separator, (latin1_eq_underscore byte).2 separator, dropped, List.append_nil]
      exact ih
    · have kept : unseparated [latin1 byte] = [latin1 byte] :=
        unseparated_cons (fun same => separator ((latin1_eq_underscore byte).1 same)) []
      rw [if_neg separator, kept, Outcome.bind_eq_ok]
      -- The last digit is the one that is read first.
      have step : ∀ value, value < Nat.pow 2 width →
          ((if value * Nat.pow 2 shift < Integer.limit then
            readBits width (shift + width) (total + value * Nat.pow 2 shift) rest
          else .error .tooLarge) = .ok result ↔
          ∃ middle, Spells (Nat.pow 2 width) (unseparated (rest.reverse.map latin1)) middle ∧
            (middle * Nat.pow 2 width + value) * Nat.pow 2 shift < Integer.limit ∧
            total + (middle * Nat.pow 2 width + value) * Nat.pow 2 shift = result) := by
        intro value small
        by_cases room : value * Nat.pow 2 shift < Integer.limit
        · rw [if_pos room, ih]
          refine exists_congr fun middle => and_congr_right fun _ => ?_
          rw [shifted_lt_limit small, and_iff_left room, shifted_eq, Nat.add_assoc,
            Nat.add_comm (value * _)]
        · rw [if_neg room]
          simp only [reduceCtorEq, false_iff, not_exists]
          rintro middle ⟨-, inRange, -⟩
          exact room ((shifted_lt_limit small).1 inRange).2
      constructor
      · rintro ⟨value, isDigit, read⟩
        obtain ⟨valued, small⟩ := digit_eq_ok.1 isDigit
        obtain ⟨middle, front, inRange, same⟩ := (step value small).1 read
        exact ⟨_, Appends.snoc_iff.2 ⟨middle, value, front, valued, small, rfl⟩, inRange, same⟩
      · rintro ⟨number, spells, inRange, same⟩
        obtain ⟨middle, value, front, valued, small, rfl⟩ := Appends.snoc_iff.1 spells
        exact ⟨value, digit_eq_ok.2 ⟨valued, small⟩, (step value small).2 ⟨middle, front, inRange, same⟩⟩

/-- The base that a mark behind a zero gives. -/
def radix? (mark : Char) : Option Nat :=
  if mark = 'x' ∨ mark = 'X' then some 16
  else if mark = 'o' ∨ mark = 'O' then some 8
  else if mark = 'b' ∨ mark = 'B' then some 2
  else none

/-- The texts that are read as unsigned integers: digits of base ten, or of the base that a mark
gives. Underscores may stand among the digits, and there may be none. -/
inductive IsUnsigned : List Char → Nat → Prop
  | decimal {digits : List Char} {number : Nat} (spells : Spells 10 (unseparated digits) number) :
      IsUnsigned digits number
  | marked {mark : Char} {base : Nat} {digits : List Char} {number : Nat}
      (radix : radix? mark = some base) (spells : Spells base (unseparated digits) number) :
      IsUnsigned ('0' :: mark :: digits) number

/-- The texts that are read as signed integers: digits of base ten, perhaps behind a sign.
Underscores may stand among the digits, and there may be none. -/
inductive IsSigned : List Char → Int → Prop
  | bare {digits : List Char} {number : Nat} (spells : Spells 10 (unseparated digits) number) :
      IsSigned digits number
  | plus {digits : List Char} {number : Nat} (spells : Spells 10 (unseparated digits) number) :
      IsSigned ('+' :: digits) number
  | minus {digits : List Char} {number : Nat} (spells : Spells 10 (unseparated digits) number) :
      IsSigned ('-' :: digits) (-number)

theorem mark_of_radix {mark : Char} {base : Nat} (radix : radix? mark = some base) :
    mark ∈ ['x', 'X', 'o', 'O', 'b', 'B'] := by
  unfold radix? at radix
  split_ifs at radix with hexadecimal octal binary
  · rcases hexadecimal with rfl | rfl <;> decide
  · rcases octal with rfl | rfl <;> decide
  · rcases binary with rfl | rfl <;> decide

theorem notDecimal_of_radix {mark : Char} {base : Nat} (radix : radix? mark = some base) :
    mark ≠ '_' ∧ ∀ value, Numeral.digitValue? mark = some value → ¬value < 10 := by
  have each : ∀ mark ∈ ['x', 'X', 'o', 'O', 'b', 'B'], mark ≠ '_' ∧
      ∀ value ∈ Numeral.digitValue? mark, ¬value < 10 :=
    List.all_iff_forall_prop.1 (by decide)
  exact each mark (mark_of_radix radix)

/-- No mark is a decimal digit, so a text with a mark is no decimal numeral. -/
theorem isUnsigned_marked {mark : Char} {base : Nat} (radix : radix? mark = some base)
    {digits : List Char} {number : Nat} :
    IsUnsigned ('0' :: mark :: digits) number ↔ Spells base (unseparated digits) number := by
  constructor
  · intro unsigned
    cases unsigned with
    | decimal spells =>
      obtain ⟨plain, notDecimal⟩ := notDecimal_of_radix radix
      rw [unseparated_cons (by decide), unseparated_cons plain] at spells
      obtain ⟨_, _, _, others⟩ := Appends.cons_iff.1 spells
      obtain ⟨value, valued, small, -⟩ := Appends.cons_iff.1 others
      exact absurd small (notDecimal value valued)
    | marked radix' spells =>
      cases radix.symm.trans radix'
      exact spells
  · exact .marked radix

theorem readBits_marked {mark : UInt8} {width : Nat}
    (radix : radix? (latin1 mark) = some (Nat.pow 2 width)) {digits : Bytes} {number : Nat} :
    readBits width 0 0 digits.reverse = .ok number ↔
      IsUnsigned ((48 :: mark :: digits).map latin1) number ∧ number < Integer.limit := by
  have zero : latin1 48 = '0' := by decide
  rw [readBits_eq_ok, List.reverse_reverse, List.map_cons, List.map_cons, zero,
    isUnsigned_marked radix]
  simp

theorem readUnsigned_eq_ok {text : Bytes} {number : Nat} :
    readUnsigned text = .ok number ↔
      IsUnsigned (text.map latin1) number ∧ number < Integer.limit := by
  unfold readUnsigned
  split
  iterate 6 exact readBits_marked rfl
  rename_i noLowerX noUpperX noLowerO noUpperO noLowerB noUpperB
  rw [readDecimal_eq_ok]
  refine and_congr_left fun _ => ⟨.decimal, fun unsigned => ?_⟩
  generalize chars : text.map latin1 = characters at unsigned
  cases unsigned with
  | decimal spells => exact spells
  | marked radix spells =>
    have zeros : ∀ byte : UInt8, latin1 byte = '0' → byte = 48 :=
      Hex.byteInduction (by decide +kernel)
    have marks : ∀ byte : UInt8, (radix? (latin1 byte)).isSome = true →
        byte = 120 ∨ byte = 88 ∨ byte = 111 ∨ byte = 79 ∨ byte = 98 ∨ byte = 66 :=
      Hex.byteInduction (by decide +kernel)
    obtain ⟨zero, others, rfl, isZero, behind⟩ := List.map_eq_cons_iff.1 chars
    obtain ⟨mark, digits, rfl, isMark, -⟩ := List.map_eq_cons_iff.1 behind
    rw [← isMark] at radix
    rw [zeros zero isZero] at noLowerX noUpperX noLowerO noUpperO noLowerB noUpperB
    rcases marks mark (by rw [radix]; rfl) with rfl | rfl | rfl | rfl | rfl | rfl
    · exact absurd rfl (noLowerX digits)
    · exact absurd rfl (noUpperX digits)
    · exact absurd rfl (noLowerO digits)
    · exact absurd rfl (noUpperO digits)
    · exact absurd rfl (noLowerB digits)
    · exact absurd rfl (noUpperB digits)

theorem not_spells_sign {sign : Char} (plain : sign ≠ '_')
    (valueless : Numeral.digitValue? sign = none) {base number : Nat} {digits : List Char} :
    ¬Spells base (unseparated (sign :: digits)) number := by
  intro spells
  rw [unseparated_cons plain] at spells
  obtain ⟨value, valued, -⟩ := Appends.cons_iff.1 spells
  rw [valueless] at valued
  cases valued

theorem positive_eq_ok {digits : Bytes} {number : Int} :
    readSigned.positive digits = .ok number ↔ ∃ size : Nat,
      Spells 10 (unseparated (digits.map latin1)) size ∧ (size : Int) = number ∧
        2 * number < Integer.limit := by
  unfold readSigned.positive
  rw [Outcome.bind_eq_ok]
  refine exists_congr fun size => ?_
  rw [readDecimal_eq_ok]
  constructor
  · rintro ⟨⟨spells, -⟩, read⟩
    split at read <;> cases read
    exact ⟨spells, rfl, by omega⟩
  · rintro ⟨spells, rfl, room⟩
    exact ⟨⟨spells, by omega⟩, if_pos (by omega)⟩

theorem readSigned_eq_ok {text : Bytes} {number : Int} :
    readSigned text = .ok number ↔ IsSigned (text.map latin1) number ∧
      -(Integer.limit : Int) ≤ 2 * number ∧ 2 * number < Integer.limit := by
  unfold readSigned
  split
  · rename_i digits
    have minus : latin1 45 = '-' := by decide
    have limit_pos : 0 < Integer.limit := by decide
    rw [Outcome.bind_eq_ok, List.map_cons, minus]
    constructor
    · rintro ⟨size, read, rest⟩
      obtain ⟨spells, -⟩ := readDecimal_eq_ok.1 read
      split at rest <;> cases rest
      exact ⟨.minus spells, by omega, by omega⟩
    · rintro ⟨signed, lower, -⟩
      cases signed with
      | bare spells => exact absurd spells (not_spells_sign (by decide) rfl)
      | minus spells =>
        rename_i size
        exact ⟨size, readDecimal_eq_ok.2 ⟨spells, by omega⟩, if_pos (by omega)⟩
  · rename_i digits
    have plus : latin1 43 = '+' := by decide
    rw [positive_eq_ok, List.map_cons, plus]
    constructor
    · rintro ⟨size, spells, rfl, room⟩
      exact ⟨.plus spells, by omega, room⟩
    · rintro ⟨signed, -, room⟩
      cases signed with
      | bare spells => exact absurd spells (not_spells_sign (by decide) rfl)
      | plus spells => exact ⟨_, spells, rfl, room⟩
  · rename_i noMinus noPlus
    rw [positive_eq_ok]
    constructor
    · rintro ⟨size, spells, rfl, room⟩
      exact ⟨.bare spells, by omega, room⟩
    · rintro ⟨signed, -, room⟩
      generalize chars : text.map latin1 = characters at signed
      have signs : ∀ byte : UInt8, (latin1 byte = '-' → byte = 45) ∧ (latin1 byte = '+' → byte = 43) :=
        Hex.byteInduction (by decide +kernel)
      cases signed with
      | bare spells => exact ⟨_, spells, rfl, room⟩
      | plus spells =>
        obtain ⟨sign, digits, rfl, isSign, -⟩ := List.map_eq_cons_iff.1 chars
        exact absurd (congrArg (· :: digits) ((signs sign).2 isSign)) (noPlus digits)
      | minus spells =>
        obtain ⟨sign, digits, rfl, isSign, -⟩ := List.map_eq_cons_iff.1 chars
        exact absurd (congrArg (· :: digits) ((signs sign).1 isSign)) (noMinus digits)

theorem ascii_of_spells {base number : Nat} {digits : List Char}
    (spells : Spells base (unseparated digits) number) : ∀ char ∈ digits, char.val ≤ 127 := by
  intro char member
  by_cases separator : char = '_'
  · rw [separator]
    decide
  · have kept : char ∈ unseparated digits :=
      List.mem_filter.2 ⟨member, by simpa using separator⟩
    obtain ⟨value, valued⟩ := spells.valued_of_mem kept
    have alphanumeric := alphanumeric_of_valued valued
    have small : char.toNat ≤ 127 := by omega
    exact UInt32.le_iff_toNat_le.2 small

theorem IsUnsigned.ascii {text : List Char} {number : Nat} (unsigned : IsUnsigned text number) :
    ∀ char ∈ text, char.val ≤ 127 := by
  cases unsigned with
  | decimal spells => exact ascii_of_spells spells
  | marked radix spells =>
    have marks : ∀ mark ∈ ['x', 'X', 'o', 'O', 'b', 'B'], mark.val ≤ 127 :=
      List.all_iff_forall_prop.1 (by decide)
    simpa using ⟨marks _ (mark_of_radix radix), ascii_of_spells spells⟩

theorem IsSigned.ascii {text : List Char} {number : Int} (signed : IsSigned text number) :
    ∀ char ∈ text, char.val ≤ 127 := by
  cases signed with
  | bare spells => exact ascii_of_spells spells
  | plus spells | minus spells =>
    simpa using ascii_of_spells spells

end GaslessRelay.Text

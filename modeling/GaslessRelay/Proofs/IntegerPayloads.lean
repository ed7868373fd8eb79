import GaslessRelay.Proofs.DigestBinding
import GaslessRelay.Proofs.IntegerReading
import GaslessRelay.Proofs.PayloadSpelling

/-!
Integers in payloads. A text is coerced to an integer type by the number that it is read as, and a
JSON integer like its numeral. The numerals that are meant (`Text.IsNumeral`, `Text.IsSignedNumeral`)
are the texts that are read, but for underscores, other marks of a base, texts without digits, and
hexadecimal numerals for signed types (`Abi.integer_texts_coerced_but_loosely`).
-/

namespace GaslessRelay

namespace Text

/-- The bytes of a text stand for its characters, if they are ASCII. -/
theorem latin1_bytes {text : String}
    (ascii : ∀ char ∈ (Bytes.ofString text).map latin1, char.val ≤ 127) :
    (Bytes.ofString text).map latin1 = text.toList := by
  have byteBack : ∀ byte : UInt8, (latin1 byte).val.toUInt8 = byte :=
    Hex.byteInduction (by decide +kernel)
  have same : Bytes.ofString (String.ofList ((Bytes.ofString text).map latin1))
      = Bytes.ofString text := by
    rw [Bytes.ofString_ofList ascii, List.map_map]
    exact (List.map_congr_left fun byte _ => byteBack byte).trans (List.map_id _)
  rw [← String.toList_ofList (l := (Bytes.ofString text).map latin1), Bytes.ofString_injective same]

open Integer (readUnsigned readSigned)

theorem readUnsigned_ofString {text : String} {number : Nat} :
    readUnsigned (Bytes.ofString text) = .ok number ↔
      IsUnsigned text.toList number ∧ number < Integer.limit := by
  rw [readUnsigned_eq_ok]
  refine and_congr_left fun _ => ⟨fun unsigned => ?_, fun unsigned => ?_⟩
  · exact latin1_bytes unsigned.ascii ▸ unsigned
  · exact (latin1_ofString unsigned.ascii).symm ▸ unsigned

theorem readSigned_ofString {text : String} {number : Int} :
    readSigned (Bytes.ofString text) = .ok number ↔ IsSigned text.toList number ∧
      -(Integer.limit : Int) ≤ 2 * number ∧ 2 * number < Integer.limit := by
  rw [readSigned_eq_ok]
  refine and_congr_left fun _ => ⟨fun signed => ?_, fun signed => ?_⟩
  · exact latin1_bytes signed.ascii ▸ signed
  · exact (latin1_ofString signed.ascii).symm ▸ signed

/-- A numeral: decimal digits, or hexadecimal digits behind `0x`. -/
inductive IsNumeral : List Char → Nat → Prop
  | decimal {digits : List Char} {number : Nat} (some : digits ≠ [])
      (spells : Spells 10 digits number) : IsNumeral digits number
  | hexadecimal {digits : List Char} {number : Nat} (some : digits ≠ [])
      (spells : Spells 16 digits number) : IsNumeral ('0' :: 'x' :: digits) number

/-- A signed numeral: a numeral, or decimal digits behind a sign. -/
inductive IsSignedNumeral : List Char → Int → Prop
  | bare {text : List Char} {number : Nat} (numeral : IsNumeral text number) :
      IsSignedNumeral text number
  | plus {digits : List Char} {number : Nat} (some : digits ≠ [])
      (spells : Spells 10 digits number) : IsSignedNumeral ('+' :: digits) number
  | minus {digits : List Char} {number : Nat} (some : digits ≠ [])
      (spells : Spells 10 digits number) : IsSignedNumeral ('-' :: digits) (-number)

/-- A text without what is read beyond numerals: underscores, other marks of a base than `0x`, and
marks and signs without digits. -/
structure Plain (text : List Char) : Prop where
  noUnderscore : '_' ∉ text
  noMark : ∀ mark ∈ ['X', 'o', 'O', 'b', 'B'], ¬['0', mark] <+: text
  notBare : text ∉ [[], ['0', 'x'], ['+'], ['-']]

namespace Plain

variable {text : List Char}

theorem spells_iff (plain : Plain text) {digits : List Char} (within : digits <:+ text)
    {base number : Nat} : Spells base (unseparated digits) number ↔ Spells base digits number := by
  rw [unseparated_eq_self fun member => plain.noUnderscore (within.subset member)]

theorem isUnsigned_iff (plain : Plain text) {number : Nat} :
    IsUnsigned text number ↔ IsNumeral text number := by
  constructor
  · intro unsigned
    cases unsigned with
    | decimal spells =>
      refine .decimal ?_ ((plain.spells_iff List.suffix_rfl).1 spells)
      rintro rfl
      exact plain.notBare (by decide)
    | marked radix spells =>
      rename_i mark base digits
      rcases List.mem_cons.1 (mark_of_radix radix) with rfl | other
      · cases radix
        refine .hexadecimal ?_ ((plain.spells_iff ⟨['0', 'x'], rfl⟩).1 spells)
        rintro rfl
        exact plain.notBare (by decide)
      · exact absurd ⟨digits, rfl⟩ (plain.noMark mark other)
  · intro numeral
    cases numeral with
    | decimal _ spells => exact .decimal ((plain.spells_iff List.suffix_rfl).2 spells)
    | hexadecimal _ spells => exact .marked rfl ((plain.spells_iff ⟨['0', 'x'], rfl⟩).2 spells)

theorem isSigned_iff (plain : Plain text) (decimal : ¬['0', 'x'] <+: text) {number : Int} :
    IsSigned text number ↔ IsSignedNumeral text number := by
  constructor
  · intro signed
    cases signed with
    | bare spells => exact .bare (plain.isUnsigned_iff.1 (.decimal spells))
    | plus spells =>
      refine .plus ?_ ((plain.spells_iff ⟨['+'], rfl⟩).1 spells)
      rintro rfl
      exact plain.notBare (by decide)
    | minus spells =>
      refine .minus ?_ ((plain.spells_iff ⟨['-'], rfl⟩).1 spells)
      rintro rfl
      exact plain.notBare (by decide)
  · intro numeral
    cases numeral with
    | bare numeral =>
      cases numeral with
      | decimal _ spells => exact .bare ((plain.spells_iff List.suffix_rfl).2 spells)
      | hexadecimal _ _ => exact absurd ⟨_, rfl⟩ decimal
    | plus _ spells => exact .plus ((plain.spells_iff ⟨['+'], rfl⟩).2 spells)
    | minus _ spells => exact .minus ((plain.spells_iff ⟨['-'], rfl⟩).2 spells)

end Plain

end Text

namespace Abi

open Text (IsUnsigned IsSigned IsNumeral IsSignedNumeral Plain)
open Text.Integer (decimalText signedText)

/-- A text is coerced to an unsigned type by what a language takes it for. -/
def UnsignedBy (language : List Char → Nat → Prop) (bits : Nat) (field text : String) : Prop :=
  ∀ value, fromPayload field (.uint bits) (.string text) = .ok value ↔
    ∃ number, language text.toList number ∧ number < Nat.pow 2 bits ∧
      value = .uint (BitVec.ofNat 256 number)

/-- A text is coerced to a signed type by what a language takes it for. -/
def SignedBy (language : List Char → Int → Prop) (bits : Nat) (field text : String) : Prop :=
  ∀ value, fromPayload field (.int bits) (.string text) = .ok value ↔
    ∃ number, language text.toList number ∧
      (-(Nat.pow 2 (bits - 1) : Int) ≤ number ∧ number < (Nat.pow 2 (bits - 1) : Int)) ∧
      value = .int (BitVec.ofInt 256 number)

theorem UnsignedBy.congr {language other : List Char → Nat → Prop} {bits : Nat}
    {field text : String} (coerced : UnsignedBy language bits field text)
    (same : ∀ number, language text.toList number ↔ other text.toList number) :
    UnsignedBy other bits field text := by
  intro value
  simp only [coerced value, same]

theorem SignedBy.congr {language other : List Char → Int → Prop} {bits : Nat}
    {field text : String} (coerced : SignedBy language bits field text)
    (same : ∀ number, language text.toList number ↔ other text.toList number) :
    SignedBy other bits field text := by
  intro value
  simp only [coerced value, same]

theorem coerceNat_string {text : String} {number : Nat} :
    coerceNat (.string text) = .ok number ↔
      Text.Integer.readUnsigned (Bytes.ofString text) = .ok number := by
  cases read : Text.Integer.readUnsigned (Bytes.ofString text) <;> simp [coerceNat, read]

theorem coerceInt_string {text : String} {number : Int} :
    coerceInt (.string text) = .ok number ↔
      Text.Integer.readSigned (Bytes.ofString text) = .ok number := by
  cases read : Text.Integer.readSigned (Bytes.ofString text) <;> simp [coerceInt, read]

theorem coerce_uint_eq_ok {bits : Nat} {json : Json} {value : AbiValue} :
    coerce (.uint bits) json = .ok value ↔ ∃ number, coerceNat json = .ok number ∧
      number < Nat.pow 2 bits ∧ value = .uint (BitVec.ofNat 256 number) := by
  unfold coerce
  rw [Outcome.bind_eq_ok]
  exact exists_congr fun number => and_congr_right fun _ => Outcome.check_eq_ok

theorem coerce_int_eq_ok {bits : Nat} {json : Json} {value : AbiValue} :
    coerce (.int bits) json = .ok value ↔ ∃ number, coerceInt json = .ok number ∧
      (-(Nat.pow 2 (bits - 1) : Int) ≤ number ∧ number < (Nat.pow 2 (bits - 1) : Int)) ∧
      value = .int (BitVec.ofInt 256 number) := by
  unfold coerce
  rw [Outcome.bind_eq_ok]
  exact exists_congr fun number => and_congr_right fun _ => Outcome.check_eq_ok

/-- What fits an integer type fits a word. -/
theorem twice_half_le_limit {bits : Nat} (small : bits ≤ 256) :
    2 * Nat.pow 2 (bits - 1) ≤ Text.Integer.limit := by
  have half : Nat.pow 2 (bits - 1) ≤ 2 ^ 255 := Nat.pow_le_pow_right (by decide) (by omega)
  have limit_eq : Text.Integer.limit = 2 ^ 256 := rfl
  omega

theorem unsignedBy_isUnsigned {bits : Nat} (small : bits ≤ 256) (field text : String) :
    UnsignedBy IsUnsigned bits field text := by
  intro value
  rw [fromPayload_eq_ok, coerce_uint_eq_ok]
  refine exists_congr fun number => ?_
  rw [coerceNat_string, Text.readUnsigned_ofString, and_assoc]
  refine and_congr_right fun _ => and_iff_right_of_imp ?_
  rintro ⟨fits, -⟩
  exact Nat.lt_of_lt_of_le fits (Nat.pow_le_pow_right (by decide) small)

theorem signedBy_isSigned {bits : Nat} (small : bits ≤ 256) (field text : String) :
    SignedBy IsSigned bits field text := by
  intro value
  rw [fromPayload_eq_ok, coerce_int_eq_ok]
  refine exists_congr fun number => ?_
  rw [coerceInt_string, Text.readSigned_ofString, and_assoc]
  refine and_congr_right fun _ => and_iff_right_of_imp ?_
  rintro ⟨⟨lower, upper⟩, -⟩
  have room := twice_half_le_limit small
  omega

/-- Texts are coerced to integers by what they are read as, which is the number of the numeral
unless they have underscores, other marks of a base or no digits, or are hexadecimal and the type
is signed. A JSON integer is coerced like its numeral. -/
theorem integer_texts_coerced_but_loosely {bits : Nat} (valid : (AbiType.uint bits).Valid)
    (field : String) :
    (∀ text, UnsignedBy IsUnsigned bits field text ∧ SignedBy IsSigned bits field text) ∧
    (∀ text, Plain text.toList → UnsignedBy IsNumeral bits field text) ∧
    (∀ text, Plain text.toList → ¬['0', 'x'] <+: text.toList →
      SignedBy IsSignedNumeral bits field text) ∧
    (∀ number : Nat, number < Nat.pow 2 bits →
      fromPayload field (.uint bits) (.integer number) = .ok (.uint (BitVec.ofNat 256 number)) ∧
      fromPayload field (.uint bits) (.string (decimalText number))
        = .ok (.uint (BitVec.ofNat 256 number))) ∧
    ∀ number : Int, -(Nat.pow 2 (bits - 1) : Int) ≤ number → number < (Nat.pow 2 (bits - 1) : Int) →
      fromPayload field (.int bits) (.integer number) = .ok (.int (BitVec.ofInt 256 number)) ∧
      fromPayload field (.int bits) (.string (signedText number))
        = .ok (.int (BitVec.ofInt 256 number)) := by
  have small : bits ≤ 256 := valid.2.1
  refine ⟨fun text => ⟨?_, ?_⟩, ?_, ?_, ?_, ?_⟩
  · exact unsignedBy_isUnsigned small field text
  · exact signedBy_isSigned small field text
  · intro text plain
    exact (unsignedBy_isUnsigned small field text).congr fun _ => plain.isUnsigned_iff
  · intro text plain decimal
    exact (signedBy_isSigned small field text).congr fun _ => plain.isSigned_iff decimal
  · intro number fits
    have room : number < Text.Integer.limit :=
      Nat.lt_of_lt_of_le fits (Nat.pow_le_pow_right (by decide) small)
    have read : coerceNat (.string (decimalText number)) = .ok number :=
      coerceNat_string.2 (Text.Integer.readUnsigned_decimalText room)
    exact ⟨fromPayload_eq_ok.2 (coerce_uint_eq_ok.2 ⟨number, rfl, fits, rfl⟩),
      fromPayload_eq_ok.2 (coerce_uint_eq_ok.2 ⟨number, read, fits, rfl⟩)⟩
  · intro number lower upper
    have room := twice_half_le_limit small
    have read : coerceInt (.string (signedText number)) = .ok number :=
      coerceInt_string.2 (Text.Integer.readSigned_signedText (by omega) (by omega))
    exact ⟨fromPayload_eq_ok.2 (coerce_int_eq_ok.2 ⟨number, rfl, ⟨lower, upper⟩, rfl⟩),
      fromPayload_eq_ok.2 (coerce_int_eq_ok.2 ⟨number, read, ⟨lower, upper⟩, rfl⟩)⟩

/-- The ends of the range of a byte, without a sign and with one. -/
theorem integer_texts_coerced_but_loosely_byte :
    (AbiType.uint 8).Valid ∧ Plain "0xff".toList ∧ IsNumeral "0xff".toList 255 ∧
      fromPayload "amount" (.uint 8) (.string "0xff") = .ok (.uint 255) ∧
      Plain "-128".toList ∧ ¬['0', 'x'] <+: "-128".toList ∧
      IsSignedNumeral "-128".toList (-128) ∧
      fromPayload "amount" (.int 8) (.string "-128") = .ok (.int (BitVec.ofInt 256 (-128))) ∧
      fromPayload "amount" (.int 8) (.integer (-128)) = .ok (.int (BitVec.ofInt 256 (-128))) := by
  have valid : (AbiType.uint 8).Valid := ⟨by decide, by decide, by decide⟩
  have plain : Plain "0xff".toList :=
    ⟨by decide, List.all_iff_forall_prop.1 (by decide), by decide⟩
  have plain' : Plain "-128".toList :=
    ⟨by decide, List.all_iff_forall_prop.1 (by decide), by decide⟩
  have numeral : IsNumeral "0xff".toList 255 :=
    .hexadecimal (List.cons_ne_nil _ _) (.cons rfl (by decide) (.cons rfl (by decide) .nil))
  have numeral' : IsSignedNumeral "-128".toList (-128) :=
    .minus (List.cons_ne_nil _ _)
      (.cons rfl (by decide) (.cons rfl (by decide) (.cons rfl (by decide) .nil)))
  obtain ⟨-, unsigned, signed, -, numbers⟩ := integer_texts_coerced_but_loosely valid "amount"
  refine ⟨valid, plain, numeral, ?_, plain', by decide, numeral', ?_, ?_⟩
  · exact (unsigned "0xff" plain _).2 ⟨255, numeral, by decide, rfl⟩
  · exact (signed "-128" plain' (by decide) _).2 ⟨-128, numeral', by decide, rfl⟩
  · exact (numbers (-128) (by decide) (by decide)).1

/-- No digits are coerced to zero, and a hexadecimal numeral is refused for a signed type. -/
theorem empty_text_coerced_to_zero :
    fromPayload "amount" (.uint 256) (.string "") = .ok (.uint 0) ∧
      ¬UnsignedBy IsNumeral 256 "amount" "" ∧
      fromPayload "amount" (.int 256) (.string "0x10")
        = .error (.invalidValue "amount" (.badSigned (.badDigit 120))) ∧
      ¬SignedBy IsSignedNumeral 256 "amount" "0x10" := by
  have zero : coerceNat (.string "") = .ok 0 := by decide +kernel
  have refused : coerceInt (.string "0x10") = .error (.badSigned (.badDigit 120)) := by
    decide +kernel
  have accepted : fromPayload "amount" (.uint 256) (.string "") = .ok (.uint 0) :=
    fromPayload_eq_ok.2 (coerce_uint_eq_ok.2 ⟨0, zero, by decide, rfl⟩)
  have failed : fromPayload "amount" (.int 256) (.string "0x10")
      = .error (.invalidValue "amount" (.badSigned (.badDigit 120))) := by
    unfold fromPayload coerce
    rw [refused]
    rfl
  refine ⟨accepted, fun claimed => ?_, failed, fun claimed => ?_⟩
  · obtain ⟨number, numeral, -⟩ := (claimed _).1 accepted
    cases numeral with
    | decimal some => exact some rfl
  · have numeral : IsSignedNumeral "0x10".toList (16 : Nat) :=
      .bare (.hexadecimal (List.cons_ne_nil _ _)
        (.cons rfl (by decide) (.cons rfl (by decide) .nil)))
    have succeeded := (claimed _).2 ⟨_, numeral, by decide, rfl⟩
    rw [failed] at succeeded
    cases succeeded

end Abi

end GaslessRelay

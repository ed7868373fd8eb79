import GaslessRelay.Proofs.AbiPlacement
import GaslessRelay.Proofs.AbiTyping
import GaslessRelay.Proofs.IntegerReading
import Mathlib.Data.List.Basic

/-!
How a payload spells the values of a type: byte strings in hexadecimal, integers in decimal. The
coercion takes each spelling back to its value, so the values of a type are exactly those that
payloads can give it.
-/

namespace GaslessRelay

namespace Bytes

/-- ASCII text has one byte for each character. -/
theorem ofString_ofList {text : List Char} (ascii : ∀ char ∈ text, char.val ≤ 127) :
    ofString (String.ofList text) = text.map (·.val.toUInt8) := by
  rw [ofString_eq, String.toUTF8_eq_toByteArray, String.toByteArray_ofList]
  induction text with
  | nil => rfl
  | cons char rest ih =>
    have single : String.utf8EncodeChar char = [char.val.toUInt8] :=
      String.utf8EncodeChar_eq_singleton
        (Char.utf8Size_eq_one_iff.2 (ascii char List.mem_cons_self))
    have restBytes := ih fun other member => ascii other (List.mem_cons_of_mem _ member)
    rw [List.utf8Encode_cons, ByteArray.data_append, Array.toList_append, restBytes,
      List.utf8Encode_singleton, single, List.map_cons]
    rfl

theorem ofString_append (first second : String) :
    ofString (first ++ second) = ofString first ++ ofString second := by
  simp only [ofString_eq, String.toUTF8_eq_toByteArray, String.toByteArray_append,
    ByteArray.data_append, Array.toList_append]

end Bytes

namespace Text

namespace Hex

theorem ascii_digitByte (byte : UInt8) :
    ((latin1 (digitByte (byte / 16))).val ≤ 127 ∧
        (latin1 (digitByte (byte / 16))).val.toUInt8 = digitByte (byte / 16)) ∧
      (latin1 (digitByte (byte % 16))).val ≤ 127 ∧
        (latin1 (digitByte (byte % 16))).val.toUInt8 = digitByte (byte % 16) := by
  revert byte
  exact byteInduction (by decide +kernel)

theorem ascii_encodeBytes {bytes : Bytes} {digit : UInt8} (member : digit ∈ encodeBytes bytes) :
    (latin1 digit).val ≤ 127 ∧ (latin1 digit).val.toUInt8 = digit := by
  obtain ⟨byte, -, member⟩ := List.mem_flatMap.1 member
  rcases List.mem_cons.1 member with rfl | member
  · exact (ascii_digitByte byte).1
  · rw [List.mem_singleton.1 member]
    exact (ascii_digitByte byte).2

theorem ofString_encode (bytes : Bytes) : Bytes.ofString (encode bytes) = encodeBytes bytes := by
  have ascii : ∀ char ∈ (encodeBytes bytes).map latin1, char.val ≤ 127 := by
    intro char member
    obtain ⟨digit, inDigits, rfl⟩ := List.mem_map.1 member
    exact (ascii_encodeBytes inDigits).1
  rw [encode, Bytes.ofString_ofList ascii, List.map_map]
  exact (List.map_congr_left fun digit member => (ascii_encodeBytes member).2).trans
    (List.map_id _)

theorem ofString_encodePrefixed (bytes : Bytes) :
    Bytes.ofString (encodePrefixed bytes) = 48 :: 120 :: encodeBytes bytes := by
  have start : Bytes.ofString "0x" = [48, 120] := by
    rw [Bytes.ofString_eq]
    rfl
  rw [encodePrefixed, Bytes.ofString_append, ofString_encode, start]
  rfl

theorem decodeFixed_encodePrefixed (bytes : Bytes) :
    decodeFixed bytes.length (Bytes.ofString (encodePrefixed bytes)) = .ok bytes := by
  have even : ¬(48 :: 120 :: encodeBytes bytes).length % 2 = 1 := by
    rw [List.length_cons, List.length_cons, length_encodeBytes]
    omega
  rw [ofString_encodePrefixed, decodeFixed, if_neg even]
  simp only [dropPrefix, if_pos (length_encodeBytes bytes), decodePairs_encodeBytes]

end Hex

/-- The bytes of ASCII text stand for its characters. -/
theorem latin1_ofString {text : String} (ascii : ∀ char ∈ text.toList, char.val ≤ 127) :
    (Bytes.ofString text).map latin1 = text.toList := by
  have back : ∀ char ∈ text.toList, latin1 char.val.toUInt8 = char := by
    intro char member
    have small : char.toNat ≤ 127 := UInt32.le_iff_toNat_le.1 (ascii char member)
    have code : char.val.toUInt8.toNat = char.toNat := by
      rw [UInt32.toNat_toUInt8]
      exact Nat.mod_eq_of_lt (Nat.lt_of_le_of_lt small (by decide))
    rw [latin1, code, Char.ofNat_toNat]
  have bytes : Bytes.ofString text = text.toList.map (·.val.toUInt8) := by
    rw [← Bytes.ofString_ofList ascii, String.ofList_toList]
  rw [bytes, List.map_map]
  exact (List.map_congr_left back).trans (List.map_id _)

namespace Integer

/-- A number in decimal. -/
def decimalText (number : Nat) : String := String.ofList (Nat.toDigits 10 number)

/-- A signed number in decimal. -/
def signedText : Int → String
  | .ofNat number => decimalText number
  | .negSucc number => "-" ++ decimalText (number + 1)

theorem spells_decimalText (number : Nat) :
    Spells 10 (unseparated (decimalText number).toList) number := by
  rw [decimalText, String.toList_ofList, unseparated_eq_self (not_mem_toDigits rfl number)]
  exact spells_toDigits number

theorem isSigned_signedText (number : Int) : IsSigned (signedText number).toList number := by
  cases number with
  | ofNat number => exact .bare (spells_decimalText number)
  | negSucc number =>
    rw [signedText, String.toList_append]
    exact .minus (spells_decimalText (number + 1))

theorem readUnsigned_decimalText {number : Nat} (small : number < limit) :
    readUnsigned (Bytes.ofString (decimalText number)) = .ok number := by
  have unsigned : IsUnsigned (decimalText number).toList number :=
    .decimal (spells_decimalText number)
  rw [readUnsigned_eq_ok, latin1_ofString unsigned.ascii]
  exact ⟨unsigned, small⟩

theorem readSigned_signedText {number : Int} (lower : -(limit : Int) ≤ 2 * number)
    (upper : 2 * number < limit) :
    readSigned (Bytes.ofString (signedText number)) = .ok number := by
  have signed := isSigned_signedText number
  rw [readSigned_eq_ok, latin1_ofString signed.ascii]
  exact ⟨signed, lower, upper⟩

end Integer

end Text

namespace Abi

open Text.Integer (decimalText signedText)

/-- The payload value that spells a value of a type. -/
def spelling : AbiType → AbiValue → Json
  | .address, .address value => .string (Text.Hex.encodePrefixed (addressBytes value))
  | .bool, .bool value => .bool value
  | .uint _, .uint value => .string (decimalText value.toNat)
  | .int _, .int value => .string (signedText value.toInt)
  | .fixedBytes size, .fixedBytes value =>
    .string (Text.Hex.encodePrefixed ((wordBytes value).take size))
  | .bytes, .bytes value => .string (Text.Hex.encodePrefixed value)
  | .string, .string text => .string text
  | .array item, .array items => .array (items.map (spelling item))
  | .fixedArray item _, .fixedArray items => .array (items.map (spelling item))
  | _, _ => .null

theorem coerceBytes_encodePrefixed (bytes : Bytes) :
    coerceBytes (.string (Text.Hex.encodePrefixed bytes)) = .ok bytes := by
  simp only [coerceBytes, Text.Hex.ofString_encodePrefixed, Text.Hex.decode_encodeBytes]

theorem coerceAddress_encodePrefixed (address : Address) :
    coerceAddress (.string (Text.Hex.encodePrefixed (addressBytes address))) = .ok address := by
  have decoded := Text.Hex.decodeFixed_encodePrefixed (addressBytes address)
  rw [length_addressBytes] at decoded
  simp only [coerceAddress, decoded, addressOfBytes_addressBytes]

/-- The zeros that fill up a word are left out of its spelling and put back. -/
theorem wordOfBytes_take {word : Word} {size : Nat}
    (padded : word.toNat % Nat.pow 256 (32 - size) = 0) :
    wordOfBytes ((wordBytes word).take size ++ Bytes.zeros (32 - size)) = word := by
  have rest : Bytes.isZero ((wordBytes word).drop size) = true := by
    rw [Bytes.isZero_drop_iff (length_wordBytes word), toNat_wordBytes]
    exact padded
  have zeros : (wordBytes word).drop size = Bytes.zeros (32 - size) := by
    rw [(Bytes.isZero_iff _).1 rest, List.length_drop, length_wordBytes]
  rw [← zeros, List.take_append_drop, wordOfBytes_wordBytes]

theorem coerceItems_map {coerceOne : Json → Except ValueFault AbiValue} {spell : AbiValue → Json}
    {items : List AbiValue} (each : ∀ item ∈ items, coerceOne (spell item) = .ok item) :
    coerceItems coerceOne (items.map spell) = .ok items := by
  induction items with
  | nil => rfl
  | cons item rest ih =>
    rw [List.map_cons, coerceItems, each item List.mem_cons_self,
      ih fun other member => each other (List.mem_cons_of_mem _ member)]
    rfl

/-- Every value of a type is what its spelling is coerced to. -/
theorem coerce_spelling {type : AbiType} (valid : type.Valid) {value : AbiValue}
    (typed : value.HasType type) : coerce type (spelling type value) = .ok value := by
  induction type generalizing value with
  | address =>
    cases value with
    | address value => rw [spelling, coerce, coerceAddress_encodePrefixed, Outcome.map_ok]
    | _ => exact typed.elim
  | bool =>
    cases value with
    | bool value => rfl
    | _ => exact typed.elim
  | string =>
    cases value with
    | string text => rfl
    | _ => exact typed.elim
  | bytes =>
    cases value with
    | bytes content => rw [spelling, coerce, coerceBytes_encodePrefixed, Outcome.map_ok]
    | _ => exact typed.elim
  | fixedBytes size =>
    cases value with
    | fixedBytes word =>
      have length : ((wordBytes word).take size).length = size := by
        rw [List.length_take, length_wordBytes, Nat.min_eq_left valid.2]
      rw [spelling, coerce, coerceBytes_encodePrefixed, Outcome.ok_bind, if_pos length,
        wordOfBytes_take typed]
      rfl
    | _ => exact typed.elim
  | uint bits =>
    cases value with
    | uint word =>
      have fits : word.toNat < Nat.pow 2 bits := typed
      rw [spelling, coerce, coerceNat, Text.Integer.readUnsigned_decimalText word.isLt]
      simp only [Outcome.ok_bind, if_pos fits, BitVec.ofNat_toNat, BitVec.setWidth_eq]
      rfl
    | _ => exact typed.elim
  | int bits =>
    cases value with
    | int word =>
      have fits : -(Nat.pow 2 (bits - 1) : Int) ≤ word.toInt
        ∧ word.toInt < (Nat.pow 2 (bits - 1) : Int) := typed
      have read : Text.Integer.readSigned (Bytes.ofString (signedText word.toInt))
          = .ok word.toInt :=
        Text.Integer.readSigned_signedText BitVec.le_two_mul_toInt BitVec.two_mul_toInt_lt
      rw [spelling, coerce, coerceInt, read]
      simp only [Outcome.ok_bind, if_pos fits, BitVec.ofInt_toInt]
      rfl
    | _ => exact typed.elim
  | array item ih =>
    cases value with
    | array items =>
      have each : ∀ entry ∈ items, coerce item (spelling item entry) = .ok entry :=
        fun entry member => ih valid (AbiValue.allHaveType_iff.1 typed entry member)
      rw [spelling, coerce, coerceItems_map each, Outcome.map_ok]
    | _ => exact typed.elim
  | fixedArray item length ih =>
    cases value with
    | fixedArray items =>
      have each : ∀ entry ∈ items, coerce item (spelling item entry) = .ok entry :=
        fun entry member => ih valid.2 (AbiValue.allHaveType_iff.1 typed.2 entry member)
      have count : (items.map (spelling item)).length = length := by
        rw [List.length_map]
        exact typed.1
      rw [spelling, coerce]
      simp only [if_pos count, coerceItems_map each, Outcome.map_ok]
    | _ => exact typed.elim

/-- The values of a type are those that payload values are coerced to. -/
theorem hasType_iff_coerce {type : AbiType} (valid : type.Valid) {value : AbiValue} :
    value.HasType type ↔ ∃ json, coerce type json = .ok value :=
  ⟨fun typed => ⟨spelling type value, coerce_spelling valid typed⟩,
    fun ⟨_, coerced⟩ => hasType_of_coerce valid coerced⟩

end Abi

end GaslessRelay

import GaslessRelay.Proofs.PayloadSpelling
import GaslessRelay.Proofs.RequestBinding

/-!
The values that the reader of encodings lets through. Everything but the range of a signed integer
is checked where it is read, at any depth of arrays: a decoded value is one of its type, and one
that a payload could have given, just when its signed integers are in range.
-/

namespace GaslessRelay

namespace AbiType

/-- The signed integers in a value are in the ranges that the type declares for them. -/
def IntsFit : AbiType → AbiValue → Prop
  | int bits, .int word =>
    -(Nat.pow 2 (bits - 1) : Int) ≤ word.toInt ∧ word.toInt < (Nat.pow 2 (bits - 1) : Int)
  | array item, .array items => ∀ entry ∈ items, item.IntsFit entry
  | fixedArray item _, .fixedArray items => ∀ entry ∈ items, item.IntsFit entry
  | _, _ => True

/-- The signed integers of the type take up the whole word. -/
def WideInts : AbiType → Prop
  | int bits => bits = 256
  | array item | fixedArray item _ => item.WideInts
  | _ => True

theorem WideInts.intsFit {type : AbiType} (wide : type.WideInts) (value : AbiValue) :
    type.IntsFit value := by
  induction type generalizing value with
  | int bits =>
    cases value with
    | int word =>
      cases wide
      have lower : -(2 ^ 256 : Int) ≤ 2 * word.toInt := BitVec.le_two_mul_toInt
      have upper : 2 * word.toInt < (2 ^ 256 : Int) := BitVec.two_mul_toInt_lt
      have half : (Nat.pow 2 (256 - 1) : Int) = 2 ^ 255 := rfl
      rw [IntsFit, half]
      constructor
      · omega
      · omega
    | _ => trivial
  | array item ih =>
    cases value with
    | array items => exact fun entry _ => ih wide entry
    | _ => trivial
  | fixedArray item length ih =>
    cases value with
    | fixedArray items => exact fun entry _ => ih wide entry
    | _ => trivial
  | _ => trivial

end AbiType

namespace Abi

open Outcome (bind_eq_ok map_eq_ok)

variable {data : Bytes}

theorem length_of_readItems {type : AbiType} {read : Nat → Except CodecError AbiValue}
    {base count offset : Nat} {items : List AbiValue}
    (readAll : readItems data type read base count offset = .ok items) :
    items.length = count := by
  induction count generalizing offset items with
  | zero =>
    cases readAll
    rfl
  | succ count ih =>
    obtain ⟨place, -, rest⟩ := bind_eq_ok.1 readAll
    obtain ⟨item, -, rest⟩ := bind_eq_ok.1 rest
    obtain ⟨others, more, same⟩ := bind_eq_ok.1 rest
    cases same
    rw [List.length_cons, ih more]

theorem allHaveType_iff_intsFit {item : AbiType} {items : List AbiValue}
    (each : ∀ entry ∈ items, entry.HasType item ↔ item.IntsFit entry) :
    AbiValue.AllHaveType items item ↔ ∀ entry ∈ items, item.IntsFit entry := by
  rw [AbiValue.allHaveType_iff]
  exact forall₂_congr each

/-- A value that was read is one of its type just when its signed integers are in range. -/
theorem hasType_iff_of_decodeAt {type : AbiType} {place : Nat} {value : AbiValue}
    (decoded : decodeAt data type place = .ok value) :
    value.HasType type ↔ type.IntsFit value := by
  induction type generalizing place value with
  | address | bytes =>
    obtain ⟨content, -, rfl⟩ := map_eq_ok.1 decoded
    exact Iff.rfl
  | int bits =>
    obtain ⟨word, -, rfl⟩ := map_eq_ok.1 decoded
    exact Iff.rfl
  | bool =>
    obtain ⟨word, -, decoded⟩ := bind_eq_ok.1 decoded
    split at decoded
    · cases decoded
      exact Iff.rfl
    · split at decoded <;> cases decoded
      exact Iff.rfl
  | string =>
    obtain ⟨content, -, decoded⟩ := bind_eq_ok.1 decoded
    split at decoded <;> cases decoded
    exact Iff.rfl
  | uint bits =>
    obtain ⟨word, -, decoded⟩ := bind_eq_ok.1 decoded
    split at decoded <;> cases decoded
    rename_i small
    exact iff_of_true small trivial
  | fixedBytes size =>
    obtain ⟨word, -, decoded⟩ := bind_eq_ok.1 decoded
    split at decoded <;> cases decoded
    rename_i padded
    exact iff_of_true padded trivial
  | array item ih =>
    obtain ⟨length, -, decoded⟩ := bind_eq_ok.1 decoded
    split at decoded
    · cases decoded
    · obtain ⟨items, read, rfl⟩ := map_eq_ok.1 decoded
      exact allHaveType_iff_intsFit (forall_of_readItems (fun _ _ => ih) read)
  | fixedArray item length ih =>
    obtain ⟨items, read, rfl⟩ := map_eq_ok.1 decoded
    have each := allHaveType_iff_intsFit (forall_of_readItems (fun _ _ => ih) read)
    exact (and_iff_right (length_of_readItems read)).trans each

/-- What is known of a value that was read for a type. -/
structure ReadAs (type : AbiType) (value : AbiValue) : Prop where
  hasType_iff : value.HasType type ↔ type.IntsFit value
  payload_iff : type.IntsFit value ↔ ∃ json, ∀ field, fromPayload field type json = .ok value
  typed : type.WideInts → value.HasType type

theorem readAs_of_decodeAt {type : AbiType} (valid : type.Valid) {place : Nat} {value : AbiValue}
    (decoded : decodeAt data type place = .ok value) : ReadAs type value where
  hasType_iff := hasType_iff_of_decodeAt decoded
  payload_iff := by
    rw [← hasType_iff_of_decodeAt decoded, hasType_iff_coerce valid]
    constructor
    · rintro ⟨json, coerced⟩
      exact ⟨json, fun field => fromPayload_eq_ok.2 coerced⟩
    · rintro ⟨json, read⟩
      exact ⟨json, fromPayload_eq_ok.1 (read "")⟩
  typed wide := (hasType_iff_of_decodeAt decoded).2 (wide.intsFit value)

theorem readAs_of_decodeTuple {types : List AbiType} (valid : ∀ type ∈ types, type.Valid)
    {base offset : Nat} {values : List AbiValue}
    (decoded : decodeTuple data base types offset = .ok values) :
    List.Forall₂ ReadAs types values := by
  induction types generalizing offset values with
  | nil =>
    cases decoded
    exact .nil
  | cons type rest ih =>
    obtain ⟨place, -, decoded⟩ := bind_eq_ok.1 decoded
    obtain ⟨value, one, decoded⟩ := bind_eq_ok.1 decoded
    obtain ⟨others, more, same⟩ := bind_eq_ok.1 decoded
    cases same
    exact .cons (readAs_of_decodeAt (valid type List.mem_cons_self) one)
      (ih (fun other member => valid other (List.mem_cons_of_mem _ member)) more)

/-- Decoded values are values of their types, and such as payloads give, as far as their signed
integers are in range, which is not looked at; and these values are the ones that a verifier
hashes. -/
theorem decoded_values_typed_but_ints {types : List AbiType}
    (named : ∀ type ∈ types, ∃ text, AbiType.parse text = .ok type) {data : Bytes}
    {values : List AbiValue} (decoded : decode types data = .ok values) :
    List.Forall₂ ReadAs types values ∧
    ∀ (operation : OperationType) (request : WireRequest) (hash : Hash),
      operation.body.map (·.type) = types → request.data = data →
      request.structHash operation = .ok hash →
      hash = messageHash operation request.sender (UInt64.ofNat request.nonce.toNat) data
        values := by
  have valid : ∀ type ∈ types, type.Valid := by
    intro type member
    obtain ⟨text, parsed⟩ := named type member
    exact AbiType.valid_of_parse parsed
  refine ⟨readAs_of_decodeTuple valid decoded, ?_⟩
  rintro operation request hash rfl rfl rebuilt
  obtain ⟨-, -, body, bodyDecoded, rfl⟩ := WireRequest.structHash_eq_ok rebuilt
  rw [decoded] at bodyDecoded
  cases bodyDecoded
  rfl

/-- Two small integers behind one another, and a signed one outside its range. -/
theorem decoded_values_typed_but_ints_pair :
    let types : List AbiType := [.fixedArray (.uint 8) 2, .int 8]
    let data := wordBytes 5 ++ wordBytes 255 ++ wordBytes 128
    let values : List AbiValue := [.fixedArray [.uint 5, .uint 255], .int 128]
    (∀ type ∈ types, ∃ text, AbiType.parse text = .ok type) ∧ decode types data = .ok values ∧
    List.Forall₂ ReadAs types values := by
  intro types data values
  have named : ∀ type ∈ types, ∃ text, AbiType.parse text = .ok type := by
    intro type member
    rcases List.mem_cons.1 member with rfl | member
    · exact ⟨"uint8[2]", by decide⟩
    · exact ⟨"int8", by rw [List.mem_singleton.1 member]; decide⟩
  have decoded : decode types data = .ok values := by rfl
  exact ⟨named, decoded, (decoded_values_typed_but_ints named decoded).1⟩

/-- The number 128 is decoded as an `int8` and hashed, though no payload gives it. -/
theorem decoded_int8_out_of_range :
    let operation : OperationType := ⟨"Shift", [.sender, .nonce, ⟨"by", .int 8⟩], 1, 7⟩
    let request : WireRequest := ⟨operation.typeHash, 9, 4, wordBytes 128⟩
    AbiType.parse "int8" = .ok (.int 8) ∧
    decode [.int 8] (wordBytes 128) = .ok [.int 128] ∧
    ¬(AbiValue.int 128).HasType (.int 8) ∧
    (∀ field json, fromPayload field (.int 8) json ≠ .ok (.int 128)) ∧
    request.structHash operation = .ok (messageHash operation 9 4 (wordBytes 128) [.int 128]) := by
  intro operation request
  have outside : ¬(AbiValue.int 128).HasType (.int 8) := by
    intro typed
    exact absurd typed.2 (by decide)
  have valid : (AbiType.int 8).Valid := ⟨by decide, by decide, by decide⟩
  refine ⟨by decide, by rfl, outside, ?_, ?_⟩
  · intro field json read
    exact outside (hasType_of_fromPayload valid read)
  · exact WireRequest.structHash_of_decode rfl (by decide) (by rfl)

end Abi

end GaslessRelay

import GaslessRelay.Proofs.AbiTyping
import Mathlib.Data.List.Forall2

/-!
Decoding undoes encoding. The values of a tuple are read back from whatever place it stands at: the
head of a dynamic item leads to its tail, and the head of any other item is its encoding.
-/

namespace GaslessRelay.Abi

open Bytes (StandsAt)

variable {data : Bytes}

/-- Wherever the encoding of a value of the type stands, the value is read back. -/
def ReadsBack (data : Bytes) (type : AbiType) : Prop :=
  ∀ (value : AbiValue) (place : Nat), value.HasType type →
    StandsAt (encodeValue value) data place → decodeAt data type place = .ok value

/-- The head of an item is as wide as the type of the item says. -/
theorem width_eq_slotSize {type : AbiType} (valid : type.Valid) {value : AbiValue}
    (typed : value.HasType type) :
    (if value.isDynamic then 32 else value.headSize) = slotSize type := by
  obtain ⟨dynamic, size⟩ := AbiValue.layout_of_hasType valid typed
  rw [slotSize, dynamic, size]

/-- An array of `count` items has at least `count` words of heads. -/
theorem headLength_ge {type : AbiType} (valid : type.Valid) {items : List AbiValue}
    (typed : ∀ item ∈ items, item.HasType type) :
    32 * items.length ≤ headLength (encodeParts items) := by
  induction items with
  | nil => exact Nat.le_refl 0
  | cons item rest ih =>
    have restTyped := ih fun other member => typed other (List.mem_cons_of_mem _ member)
    have width := width_eq_slotSize valid (typed item List.mem_cons_self)
    have wide := valid.slotSize_le
    simp only [encodeParts, headLength_cons, List.length_cons, width]
    omega

/-- The values of a tuple are read back from its heads, and the tails that they lead to. The
induction is on the values; the offset of the next tail moves on with every dynamic one. -/
theorem decodeTuple_of_readsBack (small : data.length < Text.wordLimit) {base : Nat}
    {types : List AbiType} {values : List AbiValue}
    (typed : List.Forall₂ AbiValue.HasType values types)
    (valid : ∀ type ∈ types, type.Valid) (reads : ∀ type ∈ types, ReadsBack data type)
    {offset tailOffset : Nat}
    (headsStand : StandsAt (heads tailOffset (encodeParts values)) data offset)
    (tailsStand : StandsAt (tails (encodeParts values)) data (base + tailOffset)) :
    decodeTuple data base types offset = .ok values := by
  induction typed generalizing offset tailOffset with
  | nil => rfl
  | @cons value type restValues restTypes valueTyped restTyped ih =>
    have typeValid := valid type List.mem_cons_self
    have restValid : ∀ other ∈ restTypes, other.Valid :=
      fun other member => valid other (List.mem_cons_of_mem _ member)
    have restReads : ∀ other ∈ restTypes, ReadsBack data other :=
      fun other member => reads other (List.mem_cons_of_mem _ member)
    obtain ⟨sameKind, sameSize⟩ := AbiValue.layout_of_hasType typeValid valueTyped
    unfold decodeTuple slotSize
    by_cases dynamic : value.isDynamic = true
    · simp only [encodeParts, heads, tails, if_pos dynamic] at headsStand tailsStand
      have typeDynamic : type.isDynamic = true := sameKind ▸ dynamic
      have bodyStands : StandsAt (encodeValue value) data (base + tailOffset) := tailsStand.left
      have placed := bodyStands.length_le
      have restHeads := headsStand.right
      have restTails := tailsStand.right
      rw [length_numberWord] at restHeads
      rw [Nat.add_assoc] at restTails
      rw [itemPlace_dynamic typeDynamic headsStand.left (by omega), if_pos typeDynamic]
      simp only [Outcome.ok_bind, Outcome.pure_eq_ok,
        reads type List.mem_cons_self value _ valueTyped bodyStands,
        ih restValid restReads restHeads restTails]
    · have static : value.isDynamic = false := by simpa using dynamic
      have typeStatic : type.isDynamic = false := sameKind ▸ static
      simp only [encodeParts, heads, tails, if_neg dynamic] at headsStand tailsStand
      have bodyStands : StandsAt (encodeValue value) data offset := headsStand.left
      have restHeads := headsStand.right
      rw [length_encodeValue value static, sameSize] at restHeads
      rw [itemPlace_static typeStatic, typeStatic]
      simp only [Outcome.ok_bind, Outcome.pure_eq_ok, Bool.false_eq_true, if_false,
        reads type List.mem_cons_self value _ valueTyped bodyStands,
        ih restValid restReads restHeads tailsStand]

theorem decodeTuple_assemble (small : data.length < Text.wordLimit) {base : Nat}
    {types : List AbiType} {values : List AbiValue}
    (typed : List.Forall₂ AbiValue.HasType values types)
    (valid : ∀ type ∈ types, type.Valid) (reads : ∀ type ∈ types, ReadsBack data type)
    (stands : StandsAt (assemble (encodeParts values)) data base) :
    decodeTuple data base types base = .ok values := by
  have tailsStand := stands.right
  rw [length_heads_encodeParts] at tailsStand
  exact decodeTuple_of_readsBack small typed valid reads stands.left tailsStand

/-- The items of an array are read like a tuple of that many items of one type. -/
theorem readItems_eq_decodeTuple (data : Bytes) (type : AbiType) (base count offset : Nat) :
    readItems data type (decodeAt data type) base count offset
      = decodeTuple data base (List.replicate count type) offset := by
  induction count generalizing offset with
  | zero => rfl
  | succ count ih =>
    rw [List.replicate_succ, readItems, decodeTuple]
    simp only [ih]

theorem forall₂_replicate {type : AbiType} {items : List AbiValue}
    (typed : ∀ item ∈ items, item.HasType type) :
    List.Forall₂ AbiValue.HasType items (List.replicate items.length type) := by
  induction items with
  | nil => exact .nil
  | cons item rest ih =>
    exact .cons (typed item List.mem_cons_self)
      (ih fun other member => typed other (List.mem_cons_of_mem _ member))

theorem readItems_assemble (small : data.length < Text.wordLimit) {type : AbiType}
    (valid : type.Valid) (reads : ReadsBack data type) {items : List AbiValue}
    (typed : ∀ item ∈ items, item.HasType type) {base : Nat}
    (stands : StandsAt (assemble (encodeParts items)) data base) :
    readItems data type (decodeAt data type) base items.length base = .ok items := by
  rw [readItems_eq_decodeTuple]
  apply decodeTuple_assemble small (forall₂_replicate typed)
  · intro other member
    exact (List.eq_of_mem_replicate member) ▸ valid
  · intro other member
    exact (List.eq_of_mem_replicate member) ▸ reads
  · exact stands

/-- Every value of a valid type is read back, by induction on the type. -/
theorem readsBack (small : data.length < Text.wordLimit) {type : AbiType} (valid : type.Valid) :
    ReadsBack data type := by
  induction type with
  | address =>
    intro value place typed stands
    cases value with
    | address => simp only [decodeAt, addressAt_eq_ok stands, Outcome.map_ok]
    | _ => exact typed.elim
  | bool =>
    intro value place typed stands
    cases value with
    | bool flag =>
      unfold decodeAt
      rw [wordAt_eq_ok stands]
      cases flag <;> rfl
    | _ => exact typed.elim
  | string =>
    intro value place typed stands
    cases value with
    | string text =>
      have bound := stands.length_le
      rw [encodeValue, length_lengthAndBytes] at bound
      unfold decodeAt
      rw [bytesAt_eq_ok stands (by omega)]
      simp only [Outcome.ok_bind, Bytes.toString?_ofString, Outcome.pure_eq_ok]
    | _ => exact typed.elim
  | bytes =>
    intro value place typed stands
    cases value with
    | bytes content =>
      have bound := stands.length_le
      rw [encodeValue, length_lengthAndBytes] at bound
      simp only [decodeAt, bytesAt_eq_ok stands (by omega), Outcome.map_ok]
    | _ => exact typed.elim
  | fixedBytes size =>
    intro value place typed stands
    cases value with
    | fixedBytes word =>
      have padded : word.toNat % Nat.pow 256 (32 - size) = 0 := typed
      unfold decodeAt
      rw [wordAt_eq_ok stands]
      simp only [Outcome.ok_bind, if_pos padded, Outcome.pure_eq_ok]
    | _ => exact typed.elim
  | uint bits =>
    intro value place typed stands
    cases value with
    | uint word =>
      have inRange : word.toNat < Nat.pow 2 bits := typed
      unfold decodeAt
      rw [wordAt_eq_ok stands]
      simp only [Outcome.ok_bind, if_pos inRange, Outcome.pure_eq_ok]
    | _ => exact typed.elim
  | int bits =>
    intro value place typed stands
    cases value with
    | int word => simp only [decodeAt, wordAt_eq_ok stands, Outcome.map_ok]
    | _ => exact typed.elim
  | array item ih =>
    intro value place typed stands
    cases value with
    | array items =>
      have itemValid : item.Valid := valid
      have itemsTyped := AbiValue.allHaveType_iff.1 typed
      have itemsStand := stands.right
      rw [length_numberWord] at itemsStand
      have bound := itemsStand.length_le
      have headsBound := headLength_ge itemValid itemsTyped
      rw [length_assemble_encodeParts] at bound
      have honest : ¬data.length / 32 < items.length := by omega
      unfold decodeAt
      rw [offsetAt_eq_ok stands.left (by omega)]
      simp only [Outcome.ok_bind, if_neg honest,
        readItems_assemble small itemValid (ih itemValid) itemsTyped itemsStand, Outcome.map_ok]
    | _ => exact typed.elim
  | fixedArray item length ih =>
    intro value place typed stands
    cases value with
    | fixedArray items =>
      obtain ⟨count, allTyped⟩ := typed
      have itemsTyped := AbiValue.allHaveType_iff.1 allTyped
      unfold decodeAt
      rw [← count, readItems_assemble small valid.2 (ih valid.2) itemsTyped stands, Outcome.map_ok]
    | _ => exact typed.elim

/-- Values of valid types are read back from their encoding. -/
theorem decode_encode_of_valid {types : List AbiType} (valid : ∀ type ∈ types, type.Valid)
    {values : List AbiValue} (typed : List.Forall₂ AbiValue.HasType values types)
    (small : (encode values).length < Text.wordLimit) : decode types (encode values) = .ok values :=
  decodeTuple_assemble small typed valid (fun type member => readsBack small (valid type member))
    (Bytes.standsAt_self (encode values))

theorem forall₂_hasType_of_fromPayload {types : List AbiType} (valid : ∀ type ∈ types, type.Valid)
    {values : List AbiValue}
    (read : List.Forall₂ (fun value type => ∃ field json, fromPayload field type json = .ok value)
      values types) : List.Forall₂ AbiValue.HasType values types := by
  induction read with
  | nil => exact .nil
  | @cons value type restValues restTypes first rest ih =>
    obtain ⟨field, json, read⟩ := first
    exact .cons (hasType_of_fromPayload (valid type List.mem_cons_self) read)
      (ih fun other member => valid other (List.mem_cons_of_mem _ member))

/-- For types that texts name, decoding undoes the encoding of every list of their values, so also
of every list that payload values are coerced to. -/
theorem decode_encode_of_named (types : List AbiType)
    (named : ∀ type ∈ types, ∃ text, AbiType.parse text = .ok type) :
    (∀ values, List.Forall₂ AbiValue.HasType values types →
      (encode values).length < Text.wordLimit → decode types (encode values) = .ok values) ∧
    (∀ values, List.Forall₂
        (fun value type => ∃ field json, fromPayload field type json = .ok value)
        values types →
      (encode values).length < Text.wordLimit → decode types (encode values) = .ok values) := by
  have valid : ∀ type ∈ types, type.Valid := by
    intro type member
    obtain ⟨text, read⟩ := named type member
    exact AbiType.valid_of_parse read
  constructor
  · intro values typed small
    exact decode_encode_of_valid valid typed small
  · intro values read small
    exact decode_encode_of_valid valid (forall₂_hasType_of_fromPayload valid read) small

theorem decode_encode_of_named_nested :
    AbiType.parse "uint8[2][]" = .ok (.array (.fixedArray (.uint 8) 2)) ∧
    AbiType.parse " string [1]" = .ok (.fixedArray .string 1) ∧
    decode [.array (.fixedArray (.uint 8) 2), .fixedArray .string 1]
        (encode [.array [.fixedArray [.uint 1, .uint 2]], .fixedArray [.string "é"]])
      = .ok [.array [.fixedArray [.uint 1, .uint 2]], .fixedArray [.string "é"]] := by
  have first : AbiType.parse "uint8[2][]" = .ok (.array (.fixedArray (.uint 8) 2)) := by rfl
  have second : AbiType.parse " string [1]" = .ok (.fixedArray .string 1) := by rfl
  refine ⟨first, second, ?_⟩
  refine (decode_encode_of_named _ ?_).1 _ ?_ (by decide +kernel)
  · intro type member
    rcases List.mem_cons.1 member with rfl | member
    · exact ⟨_, first⟩
    · rw [List.mem_singleton.1 member]
      exact ⟨_, second⟩
  · exact .cons (by simp [AbiValue.HasType, AbiValue.AllHaveType])
      (.cons (by simp [AbiValue.HasType, AbiValue.AllHaveType]) .nil)

end GaslessRelay.Abi

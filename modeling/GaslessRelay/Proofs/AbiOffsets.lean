import GaslessRelay.Proofs.AbiLengths
import Mathlib.Algebra.BigOperators.Ring.List
import Mathlib.Algebra.Ring.Nat
import Mathlib.Tactic.SplitIfs

/-!
Encodings as the contract ABI defines them, without an offset that is carried along: a tuple is the
heads of its items and then their tails, and the head of a dynamic item is the number of bytes
before its tail. Main statement: the layout writes these bytes and no others, so every offset is
where the tail starts (`offsets_lead_to_tails`).
-/

namespace GaslessRelay.Abi

open Bytes (StandsAt)

mutual

/-- The bytes that spell a value. -/
inductive Spells : AbiValue → Bytes → Prop where
  | word {value : AbiValue} {word : Word} (single : value.word? = some word) :
      Spells value (wordBytes word)
  | bytes {content : Bytes} {fill : Nat} (least : fill < 32) (whole : 32 ∣ content.length + fill) :
      Spells (.bytes content) (numberWord content.length ++ content ++ Bytes.zeros fill)
  | string {text : String} {data : Bytes} (content : Spells (.bytes (Bytes.ofString text)) data) :
      Spells (.string text) data
  | array {items : List AbiValue} {data : Bytes} (tuple : SpellsTuple items data) :
      Spells (.array items) (numberWord items.length ++ data)
  | fixedArray {items : List AbiValue} {data : Bytes} (tuple : SpellsTuple items data) :
      Spells (.fixedArray items) data
  | tuple {items : List AbiValue} {data : Bytes} (tuple : SpellsTuple items data) :
      Spells (.tuple items) data

/-- The bytes that spell the items of a tuple. A dynamic item has its bytes in its tail, and in its
head the number of bytes before that tail; any other item has its bytes in its head. -/
inductive SpellsTuple : List AbiValue → Bytes → Prop where
  | placed {items : List AbiValue} {heads tails : List Bytes}
      (headCount : heads.length = items.length) (tailCount : tails.length = items.length)
      (inHead : ∀ index (inside : index < items.length), items[index].isDynamic = false →
        Spells items[index] heads[index])
      (noTail : ∀ index (inside : index < items.length), items[index].isDynamic = false →
        tails[index] = [])
      (offset : ∀ index (inside : index < items.length), items[index].isDynamic = true →
        heads[index] = numberWord (heads ++ tails.take index).flatten.length)
      (inTail : ∀ index (inside : index < items.length), items[index].isDynamic = true →
        Spells items[index] tails[index]) :
      SpellsTuple items (heads ++ tails).flatten

end

/-- The tails of items; one that is not dynamic has an empty one. -/
def tailsOf (items : List AbiValue) : List Bytes :=
  items.map fun item => if item.isDynamic then encodeValue item else []

/-- The heads of items, where the first tail starts at `offset`. -/
def headsOf (offset : Nat) (items : List AbiValue) : List Bytes :=
  items.mapIdx fun index item =>
    if item.isDynamic then numberWord (offset + ((tailsOf items).take index).flatten.length)
    else encodeValue item

theorem flatten_tailsOf (items : List AbiValue) :
    (tailsOf items).flatten = tails (encodeParts items) := by
  induction items with
  | nil => rfl
  | cons item rest ih =>
    rw [tailsOf] at ih
    rw [tailsOf, List.map_cons, List.flatten_cons, ih, encodeParts, tails]
    split_ifs <;> rfl

theorem headsOf_cons (offset : Nat) (item : AbiValue) (rest : List AbiValue) :
    headsOf offset (item :: rest)
      = (if item.isDynamic then numberWord offset else encodeValue item) ::
        headsOf (offset + (if item.isDynamic then encodeValue item else []).length) rest := by
  unfold headsOf
  rw [List.mapIdx_cons]
  simp [tailsOf, Nat.add_assoc]

theorem flatten_headsOf (offset : Nat) (items : List AbiValue) :
    (headsOf offset items).flatten = heads offset (encodeParts items) := by
  induction items generalizing offset with
  | nil => rfl
  | cons item rest ih =>
    rw [headsOf_cons, List.flatten_cons, ih, encodeParts, heads]
    split_ifs <;> rfl

section

variable {items : List AbiValue} {index : Nat}

@[simp] theorem length_tailsOf : (tailsOf items).length = items.length := List.length_map _

@[simp] theorem length_headsOf {offset : Nat} : (headsOf offset items).length = items.length :=
  List.length_mapIdx

theorem assemble_eq_flatten (items : List AbiValue) :
    assemble (encodeParts items)
      = (headsOf (headLength (encodeParts items)) items ++ tailsOf items).flatten := by
  rw [List.flatten_append, flatten_headsOf, flatten_tailsOf, assemble]

/-- The offset in a head counts all heads and the tails before its own. -/
theorem headsOf_dynamic {heads : List Bytes}
    (same : heads = headsOf (headLength (encodeParts items)) items) (inside : index < items.length)
    (bound : index < heads.length) (dynamic : items[index].isDynamic = true) :
    heads[index] = numberWord (heads ++ (tailsOf items).take index).flatten.length := by
  subst same
  rw [List.flatten_append, List.length_append, flatten_headsOf, length_heads_encodeParts]
  simp [headsOf, dynamic]

/-- Heads take up the bytes that the offsets assume as soon as each is as long as it should be. -/
theorem length_flatten_heads {heads : List Bytes} (count : heads.length = items.length)
    (each : ∀ index (inside : index < items.length), heads[index].length
      = if items[index].isDynamic then 32 else (encodeValue items[index]).length) :
    heads.flatten.length = headLength (encodeParts items) := by
  rw [← length_heads_encodeParts items 0, ← flatten_headsOf, List.length_flatten,
    List.length_flatten]
  congr 1
  apply List.ext_getElem
  · simp [count]
  · intro index inHeads inside
    have within : index < items.length := by simpa using inside
    simp only [List.getElem_map, each index within, headsOf, List.getElem_mapIdx]
    split_ifs <;> simp

theorem spellsTuple_iff
    (each : ∀ item ∈ items, ∀ data, Spells item data ↔ data = encodeValue item) {data : Bytes} :
    SpellsTuple items data ↔ data = assemble (encodeParts items) := by
  constructor
  · rintro ⟨headCount, tailCount, inHead, noTail, offset, inTail⟩
    rename_i heads tails
    have tailsSame : tails = tailsOf items := by
      apply List.ext_getElem
      · simp [tailCount]
      · intro index inTails inside
        have within : index < items.length := by omega
        simp only [tailsOf, List.getElem_map]
        split_ifs with dynamic
        · exact (each _ (List.getElem_mem within) _).1 (inTail index within dynamic)
        · exact noTail index within (by simpa using dynamic)
    have atHead : ∀ index (inside : index < items.length), items[index].isDynamic = false →
        heads[index] = encodeValue items[index] :=
      fun index inside static => (each _ (List.getElem_mem inside) _).1 (inHead index inside static)
    have sized : heads.flatten.length = headLength (encodeParts items) := by
      refine length_flatten_heads headCount fun index inside => ?_
      split_ifs with dynamic
      · rw [offset index inside dynamic, length_numberWord]
      · rw [atHead index inside (by simpa using dynamic)]
    have headsSame : heads = headsOf (headLength (encodeParts items)) items := by
      apply List.ext_getElem
      · simp [headCount]
      · intro index inHeads inside
        have within : index < items.length := by omega
        simp only [headsOf, List.getElem_mapIdx]
        split_ifs with dynamic
        · rw [offset index within dynamic, List.flatten_append, List.length_append, sized,
            tailsSame]
        · exact atHead index within (by simpa using dynamic)
    rw [headsSame, tailsSame, assemble_eq_flatten]
  · rintro rfl
    rw [assemble_eq_flatten]
    refine .placed length_headsOf length_tailsOf ?_ ?_ ?_ ?_
    · intro index inside static
      simp only [headsOf, List.getElem_mapIdx, static, Bool.false_eq_true, if_false]
      exact (each _ (List.getElem_mem inside) _).2 rfl
    · intro index inside static
      simp [tailsOf, static]
    · intro index inside dynamic
      exact headsOf_dynamic rfl inside _ dynamic
    · intro index inside dynamic
      simp only [tailsOf, List.getElem_map, dynamic, if_true]
      exact (each _ (List.getElem_mem inside) _).2 rfl

end

/-- The least number of zeros that fills up the last word. -/
theorem fill_eq_padding {length fill : Nat} (least : fill < 32) (whole : 32 ∣ length + fill) :
    fill = padding length := by
  unfold padding
  omega

theorem spells_bytes_iff {content data : Bytes} :
    Spells (.bytes content) data ↔ data = lengthAndBytes content := by
  constructor
  · intro spells
    cases spells with
    | word single => cases single
    | bytes least whole => rw [fill_eq_padding least whole, lengthAndBytes]
  · rintro rfl
    refine .bytes ?_ ?_
    · unfold padding
      omega
    · unfold padding
      omega

mutual

/-- The layout writes the bytes that spell a value, by recursion on the value. -/
theorem spells_iff : (value : AbiValue) → (data : Bytes) →
    (Spells value data ↔ data = encodeValue value)
  | .address value, data | .bool value, data | .uint value, data | .int value, data
  | .fixedBytes value, data => by
    constructor
    · rintro ⟨single⟩
      cases single
      rfl
    · rintro rfl
      exact .word rfl
  | .bytes content, data => by
    rw [encodeValue]
    exact spells_bytes_iff
  | .string text, data => by
    rw [encodeValue]
    constructor
    · intro spells
      cases spells with
      | word single => cases single
      | string spelled => exact spells_bytes_iff.1 spelled
    · rintro rfl
      exact .string (spells_bytes_iff.2 rfl)
  | .array items, data => by
    constructor
    · intro spells
      cases spells with
      | word single => cases single
      | array tuple =>
        rw [(spellsTuple_iff (spellsItems_iff items)).1 tuple, encodeValue]
    · rintro rfl
      exact .array ((spellsTuple_iff (spellsItems_iff items)).2 rfl)
  | .fixedArray items, data => by
    constructor
    · intro spells
      cases spells with
      | word single => cases single
      | fixedArray tuple =>
        rw [(spellsTuple_iff (spellsItems_iff items)).1 tuple, encodeValue]
    · rintro rfl
      exact .fixedArray ((spellsTuple_iff (spellsItems_iff items)).2 rfl)
  | .tuple items, data => by
    constructor
    · intro spells
      cases spells with
      | word single => cases single
      | tuple tuple =>
        rw [(spellsTuple_iff (spellsItems_iff items)).1 tuple, encodeValue]
    · rintro rfl
      exact .tuple ((spellsTuple_iff (spellsItems_iff items)).2 rfl)

theorem spellsItems_iff : (items : List AbiValue) → ∀ item ∈ items, ∀ data,
    (Spells item data ↔ data = encodeValue item)
  | [] => by simp
  | first :: rest => by
    intro item member data
    rcases List.mem_cons.1 member with same | inRest
    · rw [same]
      exact spells_iff first data
    · exact spellsItems_iff rest item inRest data

end

theorem dvd_length_assemble {items : List AbiValue}
    (each : ∀ item ∈ items, 32 ∣ (encodeValue item).length) :
    32 ∣ (assemble (encodeParts items)).length := by
  rw [assemble_eq_flatten, List.length_flatten]
  apply List.dvd_sum
  intro length member
  obtain ⟨piece, inPieces, rfl⟩ := List.mem_map.1 member
  rcases List.mem_append.1 inPieces with inHeads | inTails
  · obtain ⟨index, inside, rfl⟩ := List.mem_mapIdx.1 inHeads
    split_ifs
    · simp
    · exact each _ (List.getElem_mem inside)
  · obtain ⟨item, inItems, rfl⟩ := List.mem_map.1 inTails
    split_ifs
    · exact each item inItems
    · simp

mutual

theorem dvd_length_encodeValue : (value : AbiValue) → 32 ∣ (encodeValue value).length
  | .address _ | .bool _ | .uint _ | .int _ | .fixedBytes _ => by
    simp only [encodeValue, length_wordBytes, Nat.dvd_refl]
  | .bytes content => by
    rw [encodeValue, length_lengthAndBytes]
    unfold padding
    omega
  | .string text => by
    rw [encodeValue, length_lengthAndBytes]
    unfold padding
    omega
  | .array items => by
    rw [encodeValue, List.length_append, length_numberWord]
    exact Nat.dvd_add (Nat.dvd_refl 32) (dvd_length_assemble (dvd_length_items items))
  | .fixedArray items | .tuple items => by
    rw [encodeValue]
    exact dvd_length_assemble (dvd_length_items items)

theorem dvd_length_items : (items : List AbiValue) → ∀ item ∈ items, 32 ∣ (encodeValue item).length
  | [] => by simp
  | first :: rest => by
    intro item member
    rcases List.mem_cons.1 member with same | inRest
    · rw [same]
      exact dvd_length_encodeValue first
    · exact dvd_length_items rest item inRest

end

/-- A piece stands behind the pieces before it. -/
theorem standsAt_flatten {pieces : List Bytes} {index : Nat} (inside : index < pieces.length) :
    StandsAt pieces[index] pieces.flatten (pieces.take index).flatten.length := by
  refine ⟨(pieces.take index).flatten, (pieces.drop (index + 1)).flatten, ?_, rfl⟩
  rw [← List.flatten_cons, ← List.drop_eq_getElem_cons inside, ← List.flatten_append,
    List.take_append_drop]

/-- The encodings of the dynamic values, one after the other. -/
def dynamicTails (values : List AbiValue) : Bytes :=
  ((values.filter AbiValue.isDynamic).map encodeValue).flatten

theorem flatten_tailsOf_eq (values : List AbiValue) :
    (tailsOf values).flatten = dynamicTails values := by
  induction values with
  | nil => rfl
  | cons value rest ih =>
    unfold tailsOf dynamicTails at ih ⊢
    rw [List.map_cons, List.flatten_cons, ih, List.filter_cons]
    split_ifs <;> simp

/-- The head of a dynamic value holds the place where its tail stands. -/
theorem standsAt_tail {items : List AbiValue} {heads : List Bytes} {index : Nat}
    (same : heads = headsOf (headLength (encodeParts items)) items) (inside : index < items.length)
    (bound : index < heads.length) (dynamic : items[index].isDynamic = true) :
    heads[index] = numberWord (heads.flatten.length + (dynamicTails (items.take index)).length) ∧
      StandsAt heads[index] (encode items) (heads.take index).flatten.length ∧
      StandsAt (encodeValue items[index]) (encode items)
        (heads.flatten.length + (dynamicTails (items.take index)).length) := by
  have whole : encode items = (heads ++ tailsOf items).flatten := by
    rw [encode, assemble_eq_flatten, same]
  have before : (heads ++ (tailsOf items).take index).flatten.length
      = heads.flatten.length + (dynamicTails (items.take index)).length := by
    rw [List.flatten_append, List.length_append, ← flatten_tailsOf_eq, tailsOf, tailsOf,
      List.map_take]
  have headCount : heads.length = items.length := by simp [same]
  refine ⟨?_, ?_, ?_⟩
  · rw [← before]
    exact headsOf_dynamic same inside bound dynamic
  · have stands := @standsAt_flatten (heads ++ tailsOf items) index (by simp; omega)
    rwa [← whole, List.getElem_append_left bound, List.take_append_of_le_length (by omega)]
      at stands
  · have stands := @standsAt_flatten (heads ++ tailsOf items) (heads.length + index)
      (by simp [inside])
    rw [← whole, List.getElem_append_right (by omega), List.take_length_add_append, before]
      at stands
    simpa [tailsOf, dynamic] using stands

/-- The layout writes what the contract ABI defines, and only that. A static value takes up its head
size; the heads come first and then the encodings of the dynamic values in their order, without
gaps; the head of a dynamic value is the place, counted from the start of the tuple, where its
encoding starts; and everything fills whole words. -/
theorem offsets_lead_to_tails (values : List AbiValue) :
    (∀ data, SpellsTuple values data ↔ data = encode values) ∧
    (∀ value : AbiValue, value.isDynamic = false →
      (encodeValue value).length = value.headSize) ∧
    (∃ (heads : List Bytes) (count : heads.length = values.length),
      encode values = heads.flatten ++ dynamicTails values ∧
      ∀ index (inside : index < values.length),
        (values[index].isDynamic = false → heads[index] = encodeValue values[index]) ∧
        (values[index].isDynamic = true →
          ∃ place, place = heads.flatten.length + (dynamicTails (values.take index)).length ∧
            heads[index] = numberWord place ∧
            StandsAt (encodeValue values[index]) (encode values) place ∧
            ((encode values).length < Text.wordLimit →
              offsetAt (encode values) (heads.take index).flatten.length = .ok place))) ∧
    32 ∣ (encode values).length := by
  refine ⟨fun data => spellsTuple_iff (spellsItems_iff values), length_encodeValue, ?_,
    dvd_length_assemble (dvd_length_items values)⟩
  refine ⟨headsOf (headLength (encodeParts values)) values, length_headsOf, ?_, ?_⟩
  · rw [encode, assemble_eq_flatten, List.flatten_append, flatten_tailsOf_eq]
  · intro index inside
    constructor
    · intro static
      simp [headsOf, static]
    · intro dynamic
      obtain ⟨written, head, tail⟩ := standsAt_tail rfl inside (by simpa using inside) dynamic
      refine ⟨_, rfl, written, tail, fun small => ?_⟩
      rw [written] at head
      have bound := tail.length_le
      exact offsetAt_eq_ok head (by omega)

/-- A tuple with a tail of its own, before an empty array and a static value. -/
theorem offsets_lead_to_tails_nested :
    let inner : AbiValue := .tuple [.uint 1, .string "a"]
    let values : List AbiValue := [inner, .fixedArray [], .bool true]
    (encodeValue (.fixedArray [])).length = 0 ∧
      offsetAt (encode values) 0 = .ok 64 ∧ StandsAt (encodeValue inner) (encode values) 64 := by
  intro inner values
  obtain ⟨-, static, ⟨heads, count, parted, each⟩, -⟩ := offsets_lead_to_tails values
  obtain ⟨place, isPlace, -, stands, read⟩ := (each 0 (by decide)).2 rfl
  have total : (encode values).length = 192 := by decide +kernel
  have headSize : heads.flatten.length = 64 := by
    have behind : (dynamicTails values).length = 128 := by decide +kernel
    have lengths := congrArg List.length parted
    rw [List.length_append] at lengths
    omega
  obtain rfl : place = 64 := by
    rw [isPlace, headSize]
    rfl
  exact ⟨static (.fixedArray []) rfl, read (by rw [total]; decide), stands⟩

end GaslessRelay.Abi

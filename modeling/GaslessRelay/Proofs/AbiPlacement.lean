import GaslessRelay.Abi.Layout
import GaslessRelay.Abi.Reader

/-!
Reading of parts that stand at known places of the data. What the layout writes is read back by the
reader of its kind wherever it stands and whatever stands around it, as long as its lengths and
offsets fit in 64 bits.
-/

namespace GaslessRelay

namespace Bytes

/-- The data holds the bytes of `part` from `place` on. -/
def StandsAt (part data : Bytes) (place : Nat) : Prop :=
  ∃ before after, data = before ++ (part ++ after) ∧ before.length = place

theorem standsAt_self (data : Bytes) : StandsAt data data 0 := ⟨[], [], by simp, rfl⟩

namespace StandsAt

variable {first second part data : Bytes} {place : Nat}

theorem left (stands : StandsAt (first ++ second) data place) : StandsAt first data place := by
  obtain ⟨before, after, parted, atPlace⟩ := stands
  refine ⟨before, second ++ after, ?_, atPlace⟩
  rw [parted, List.append_assoc]

theorem right (stands : StandsAt (first ++ second) data place) :
    StandsAt second data (place + first.length) := by
  obtain ⟨before, after, parted, atPlace⟩ := stands
  refine ⟨before ++ first, after, ?_, ?_⟩
  · rw [parted]
    simp only [List.append_assoc]
  · rw [List.length_append, atPlace]

theorem length_le (stands : StandsAt part data place) : place + part.length ≤ data.length := by
  obtain ⟨before, after, parted, atPlace⟩ := stands
  have total := congrArg List.length parted
  simp only [List.length_append] at total
  omega

theorem slice?_eq (stands : StandsAt part data place) :
    slice? data place part.length = some part := by
  have bound := stands.length_le
  obtain ⟨before, after, parted, atPlace⟩ := stands
  refine slice?_eq_some.2 ⟨bound, ?_⟩
  rw [parted, ← atPlace, List.drop_left, List.take_left]

theorem take_drop (stands : StandsAt part data place) :
    (data.drop place).take part.length = part :=
  (slice?_eq_some.1 stands.slice?_eq).2.symm

end StandsAt

/-- The loop that lists the bytes of an array has those before its index collected in reverse. -/
theorem toList_loop (bytes : ByteArray) (index : Nat) (collected : List UInt8) :
    ByteArray.toList.loop bytes index collected
      = collected.reverse ++ bytes.data.toList.drop index := by
  induction index, collected using ByteArray.toList.loop.induct bytes with
  | case1 index collected below ih =>
    have inList : index < bytes.data.toList.length := by simpa using below
    have current : bytes.get! index = bytes.data.toList[index] := by
      rw [Array.getElem_toList]
      exact getElem!_pos bytes.data index (by simpa using inList)
    rw [ByteArray.toList.loop, if_pos below, ih, List.drop_eq_getElem_cons inList, current]
    simp
  | case2 index collected beyond =>
    have past : bytes.data.toList.length ≤ index := by simpa using beyond
    rw [ByteArray.toList.loop, if_neg beyond, List.drop_eq_nil_of_le past, List.append_nil]

theorem ofString_eq (text : String) : ofString text = text.toUTF8.data.toList := by
  unfold ofString ByteArray.toList
  rw [toList_loop]
  simp

/-- The bytes of a text spell the text. -/
@[simp] theorem toString?_ofString (text : String) : toString? (ofString text) = some text := by
  unfold toString? String.fromUTF8?
  rw [ofString_eq, Array.toArray_toList, String.toUTF8_eq_toByteArray, dif_pos text.isValidUTF8]
  rfl

end Bytes

namespace Abi

open Bytes (StandsAt)

theorem toNat_uint64Word (number : UInt64) :
    (BitVec.ofNat 256 number.toNat).toNat = number.toNat := by
  rw [BitVec.toNat_ofNat]
  exact Nat.mod_eq_of_lt (Nat.lt_trans number.toNat_lt_size (by decide))

variable {data content : Bytes} {place number : Nat}

@[simp] theorem length_numberWord (number : Nat) : (numberWord number).length = 32 := by
  simp [numberWord]

theorem length_lengthAndBytes (content : Bytes) :
    (lengthAndBytes content).length = 32 + content.length + padding content.length := by
  simp only [lengthAndBytes, List.length_append, length_numberWord, Bytes.length_zeros]

theorem wordAt_eq_ok {word : Word} (stands : StandsAt (wordBytes word) data place) :
    wordAt data place = .ok word := by
  have slice := stands.slice?_eq
  rw [length_wordBytes] at slice
  unfold wordAt
  rw [slice]
  simp

/-- The number in a word is exact as long as it fits in 64 bits. -/
theorem offsetAt_eq_ok (stands : StandsAt (numberWord number) data place)
    (fits : number < Text.wordLimit) : offsetAt data place = .ok number := by
  have small : number < Nat.pow 2 256 := Nat.lt_trans fits (by decide)
  have exact : (BitVec.ofNat 256 number).toNat = number := by
    rw [BitVec.toNat_ofNat]
    exact Nat.mod_eq_of_lt small
  unfold offsetAt
  rw [wordAt_eq_ok stands]
  simp only [bind, Except.bind, exact, if_pos fits]
  rfl

theorem bytesAt_eq_ok (stands : StandsAt (lengthAndBytes content) data place)
    (fits : content.length < Text.wordLimit) : bytesAt data place = .ok content := by
  have inner : StandsAt content data (place + 32) := by
    have behind := stands.left.right
    rwa [length_numberWord] at behind
  unfold bytesAt
  rw [offsetAt_eq_ok stands.left.left fits]
  simp only [bind, Except.bind, inner.slice?_eq]
  rfl

theorem addressAt_eq_ok {address : Address}
    (stands : StandsAt (wordBytes (address.setWidth 256)) data place) :
    addressAt data place = .ok address := by
  have bound := address.isLt
  have same : (address.setWidth 256).toNat = address.toNat :=
    BitVec.toNat_setWidth_of_le (by decide)
  have low : (address.setWidth 256).setWidth 160 = address := by
    apply BitVec.eq_of_toNat_eq
    rw [BitVec.toNat_setWidth, same]
    exact Nat.mod_eq_of_lt bound
  unfold addressAt
  rw [wordAt_eq_ok stands]
  simp only [bind, Except.bind, same, low]
  rw [if_pos bound]
  rfl

/-- An item that is not dynamic stands where its head does. -/
theorem itemPlace_static {type : AbiType} (static : type.isDynamic = false) (base offset : Nat) :
    itemPlace data type base offset = .ok offset := by
  simp [itemPlace, static]

/-- The head of a dynamic item holds the offset of its place. -/
theorem itemPlace_dynamic {type : AbiType} (dynamic : type.isDynamic = true) {base offset : Nat}
    (stands : StandsAt (numberWord number) data offset)
    (fits : base + number < Text.wordLimit) :
    itemPlace data type base offset = .ok (base + number) := by
  unfold itemPlace
  rw [if_pos dynamic, offsetAt_eq_ok stands (by omega)]
  simp only [bind, Except.bind, if_pos fits]
  rfl

end Abi

end GaslessRelay

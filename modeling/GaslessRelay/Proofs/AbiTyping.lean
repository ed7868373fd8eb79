import GaslessRelay.Abi.Coercion
import GaslessRelay.Proofs.AbiLengths
import GaslessRelay.Proofs.Outcome
import GaslessRelay.Proofs.WordPadding
import Mathlib.Tactic.SplitIfs

/-!
Types and their values. A type that a text names has widths in range and no empty fixed arrays;
under such a type a value is laid out as its type says, and whatever a payload value is coerced to
is a value of the type.
-/

namespace GaslessRelay

namespace AbiType

/-- The widths of the type are in range and its fixed arrays have items. -/
def Valid : AbiType → Prop
  | fixedBytes size => 1 ≤ size ∧ size ≤ 32
  | uint bits | int bits => bits ≠ 0 ∧ bits ≤ 256 ∧ bits % 8 = 0
  | array item => item.Valid
  | fixedArray item length => length ≠ 0 ∧ item.Valid
  | _ => True

theorem valid_of_bits? {digits : List Char} {bits : Nat} (read : bits? digits = some bits) :
    (uint bits).Valid ∧ (int bits).Valid := by
  unfold bits? at read
  have inRange := Option.filter_eq_some_iff.1 read
  have range : bits ≠ 0 ∧ bits ≤ 256 ∧ bits % 8 = 0 := by simpa using inRange.2
  exact ⟨range, range⟩

theorem valid_of_size? {digits : List Char} {size : Nat} (read : size? digits = some size) :
    (fixedBytes size).Valid := by
  unfold size? at read
  have inRange := Option.filter_eq_some_iff.1 read
  have range : 1 ≤ size ∧ size ≤ 32 := by simpa using inRange.2
  exact range

theorem valid_of_ofBaseName? {text : List Char} {type : AbiType}
    (named : ofBaseName? text = some type) : type.Valid := by
  unfold ofBaseName? at named
  split_ifs at named
  iterate 6
    · cases named
      simp [Valid]
  split at named
  · obtain ⟨size, read, rfl⟩ := Option.map_eq_some_iff.1 named
    exact valid_of_size? read
  · split at named
    · obtain ⟨bits, read, rfl⟩ := Option.map_eq_some_iff.1 named
      exact (valid_of_bits? read).1
    · obtain ⟨digits, -, inner⟩ := Option.bind_eq_some_iff.1 named
      obtain ⟨bits, read, rfl⟩ := Option.map_eq_some_iff.1 inner
      exact (valid_of_bits? read).2

theorem valid_of_readName {depth : Nat} {text : List Char} {type : AbiType}
    (named : readName depth text = .ok type) : type.Valid := by
  induction depth generalizing text type with
  | zero => cases named
  | succ depth ih =>
    unfold readName at named
    dsimp only at named
    split at named
    · split at named
      · cases named
      · obtain ⟨item, itemNamed, rest⟩ := Outcome.bind_eq_ok.1 named
        have itemValid : item.Valid := ih itemNamed
        split at rest
        · cases rest
          exact itemValid
        · split at rest
          · cases rest
            exact ⟨Nat.succ_ne_zero _, itemValid⟩
          · cases rest
    · split at named
      · rename_i base
        cases named
        exact valid_of_ofBaseName? base
      · cases named

/-- A type that a text names has widths in range and no empty fixed arrays. -/
theorem valid_of_parse {text : String} {type : AbiType} (named : parse text = .ok type) :
    type.Valid := valid_of_readName named

/-- Every item takes up at least one word in the head of its tuple. -/
theorem Valid.slotSize_le {type : AbiType} (valid : type.Valid) : 32 ≤ Abi.slotSize type := by
  unfold Abi.slotSize
  split
  · exact Nat.le_refl 32
  · induction type with
    | fixedArray item length ih =>
      rename_i static
      simp only [isDynamic] at static
      have itemSize := ih valid.2 static
      have positive := Nat.pos_of_ne_zero valid.1
      rw [staticSize, if_neg static]
      calc 32 ≤ item.staticSize := itemSize
        _ = 1 * item.staticSize := (Nat.one_mul _).symm
        _ ≤ length * item.staticSize := Nat.mul_le_mul_right _ positive
    | _ => exact Nat.le_refl 32

end AbiType

namespace AbiValue

theorem allHaveType_iff {items : List AbiValue} {type : AbiType} :
    AllHaveType items type ↔ ∀ item ∈ items, item.HasType type := by
  induction items with
  | nil => simp [AllHaveType]
  | cons item rest ih => simp [AllHaveType, ih]

theorem anyDynamic_of_forall {items : List AbiValue} {dynamic : Bool} (some : items ≠ [])
    (each : ∀ item ∈ items, item.isDynamic = dynamic) : anyDynamic items = dynamic := by
  induction items with
  | nil => exact absurd rfl some
  | cons item rest ih =>
    rw [anyDynamic, each item List.mem_cons_self]
    by_cases last : rest = []
    · rw [last, anyDynamic, Bool.or_false]
    · rw [ih last (fun other member => each other (List.mem_cons_of_mem _ member)), Bool.or_self]

theorem headSizes_of_forall {items : List AbiValue} {size : Nat}
    (each : ∀ item ∈ items, item.headSize = size) : headSizes items = items.length * size := by
  induction items with
  | nil => simp [headSizes]
  | cons item rest ih =>
    rw [headSizes, each item List.mem_cons_self,
      ih (fun other member => each other (List.mem_cons_of_mem _ member)), List.length_cons,
      Nat.add_mul, Nat.one_mul, Nat.add_comm]

/-- A value of a type stands behind an offset when the type says so, and takes up as many bytes in
place as the type says. -/
theorem layout_of_hasType {type : AbiType} (valid : type.Valid) {value : AbiValue}
    (typed : value.HasType type) :
    value.isDynamic = type.isDynamic ∧ value.headSize = type.staticSize := by
  induction type generalizing value with
  | fixedArray item length ih =>
    cases value with
    | fixedArray items =>
      obtain ⟨count, allTyped⟩ := typed
      have each := fun other member => ih valid.2 (allHaveType_iff.1 allTyped other member)
      have some : items ≠ [] := by
        intro none
        rw [none] at count
        exact valid.1 count.symm
      have dynamic := anyDynamic_of_forall some (fun other member => (each other member).1)
      have sizes := headSizes_of_forall (fun other member => (each other member).2)
      constructor
      · rw [isDynamic, AbiType.isDynamic, dynamic]
      · rw [headSize, AbiType.staticSize, dynamic, sizes, count]
    | _ => exact typed.elim
  | _ => cases value <;> first | exact typed.elim | exact ⟨rfl, rfl⟩

end AbiValue

namespace Abi

theorem coerceItems_eq_ok {coerceOne : Json → Except ValueFault AbiValue} {items : List Json}
    {values : List AbiValue} (coerced : coerceItems coerceOne items = .ok values) :
    values.length = items.length ∧ ∀ value ∈ values, ∃ json, coerceOne json = .ok value := by
  induction items generalizing values with
  | nil =>
    cases coerced
    exact ⟨rfl, by simp⟩
  | cons item rest ih =>
    obtain ⟨value, first, others⟩ := Outcome.bind_eq_ok.1 coerced
    obtain ⟨restValues, restCoerced, same⟩ := Outcome.bind_eq_ok.1 others
    cases same
    obtain ⟨count, each⟩ := ih restCoerced
    refine ⟨by rw [List.length_cons, List.length_cons, count], ?_⟩
    intro candidate member
    rcases List.mem_cons.1 member with rfl | inRest
    · exact ⟨item, first⟩
    · exact each candidate inRest

/-- The bytes of a fixed-size value fill its word from the left. -/
theorem wordOfBytes_padded {content : Bytes} {size : Nat} (length : content.length = size)
    (small : size ≤ 32) :
    (wordOfBytes (content ++ Bytes.zeros (32 - size))).toNat % Nat.pow 256 (32 - size) = 0 := by
  have whole : (content ++ Bytes.zeros (32 - size)).length = 32 := by
    rw [List.length_append, Bytes.length_zeros, length, Nat.add_sub_cancel' small]
  rw [toNat_wordOfBytes whole, Bytes.toNat_append, Bytes.length_zeros, Bytes.toNat_zeros,
    Nat.add_zero, Nat.mul_mod_left]

/-- An integer that fits the width is kept by its word. -/
theorem toInt_ofInt_of_fits {bits : Nat} (small : bits ≤ 256) {value : Int}
    (lower : -(Nat.pow 2 (bits - 1) : Int) ≤ value) (upper : value < (Nat.pow 2 (bits - 1) : Int)) :
    (BitVec.ofInt 256 value).toInt = value := by
  have half : Nat.pow 2 (bits - 1) ≤ 2 ^ 255 := Nat.pow_le_pow_right (by decide) (by omega)
  rw [BitVec.toInt_ofInt]
  apply Int.bmod_eq_of_le
  · omega
  · omega

/-- Whatever a payload value is coerced to is a value of the type. -/
theorem hasType_of_coerce {type : AbiType} (valid : type.Valid) {json : Json} {value : AbiValue}
    (coerced : coerce type json = .ok value) : value.HasType type := by
  induction type generalizing json value with
  | address | bool | bytes =>
    obtain ⟨_, -, rfl⟩ := Outcome.map_eq_ok.1 coerced
    trivial
  | string =>
    unfold coerce at coerced
    split at coerced
    · cases coerced
      trivial
    · cases coerced
  | fixedBytes size =>
    obtain ⟨content, -, rest⟩ := Outcome.bind_eq_ok.1 coerced
    split at rest
    · rename_i length
      cases rest
      exact wordOfBytes_padded length valid.2
    · cases rest
  | uint bits =>
    obtain ⟨number, -, rest⟩ := Outcome.bind_eq_ok.1 coerced
    split at rest
    · rename_i fits
      cases rest
      have small : Nat.pow 2 bits ≤ 2 ^ 256 := Nat.pow_le_pow_right (by decide) valid.2.1
      show (BitVec.ofNat 256 number).toNat < Nat.pow 2 bits
      rw [BitVec.toNat_ofNat, Nat.mod_eq_of_lt (Nat.lt_of_lt_of_le fits small)]
      exact fits
    · cases rest
  | int bits =>
    obtain ⟨number, -, rest⟩ := Outcome.bind_eq_ok.1 coerced
    dsimp only at rest
    split at rest
    · rename_i fits
      cases rest
      show _ ≤ (BitVec.ofInt 256 number).toInt ∧ (BitVec.ofInt 256 number).toInt < _
      rw [toInt_ofInt_of_fits valid.2.1 fits.1 fits.2]
      exact fits
    · cases rest
  | array item ih =>
    unfold coerce at coerced
    split at coerced
    · obtain ⟨items, read, rfl⟩ := Outcome.map_eq_ok.1 coerced
      refine AbiValue.allHaveType_iff.2 fun candidate member => ?_
      obtain ⟨source, one⟩ := (coerceItems_eq_ok read).2 candidate member
      exact ih valid one
    · cases coerced
  | fixedArray item length ih =>
    unfold coerce at coerced
    split at coerced
    · split at coerced
      · rename_i count
        obtain ⟨items, read, rfl⟩ := Outcome.map_eq_ok.1 coerced
        obtain ⟨sameCount, each⟩ := coerceItems_eq_ok read
        refine ⟨sameCount.trans count, AbiValue.allHaveType_iff.2 fun candidate member => ?_⟩
        obtain ⟨source, one⟩ := each candidate member
        exact ih valid.2 one
      · cases coerced
    · cases coerced

theorem fromPayload_eq_ok {field : String} {type : AbiType} {json : Json} {value : AbiValue} :
    fromPayload field type json = .ok value ↔ coerce type json = .ok value := by
  unfold fromPayload forField
  constructor
  · intro read
    split at read
    · rename_i coerced
      cases read
      exact coerced
    · cases read
  · intro coerced
    rw [coerced]

theorem hasType_of_fromPayload {type : AbiType} (valid : type.Valid) {field : String} {json : Json}
    {value : AbiValue} (read : fromPayload field type json = .ok value) : value.HasType type :=
  hasType_of_coerce valid (fromPayload_eq_ok.1 read)

end Abi

end GaslessRelay

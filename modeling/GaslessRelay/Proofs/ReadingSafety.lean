import GaslessRelay.Proofs.AbiRoundTrip
import GaslessRelay.Request.MachineRelayCall
import GaslessRelay.Proofs.RequestBinding

/-!
Reading is safe on any bytes: no sum or product of 64 bits overflows and no slice lies outside its
bytes. A sum without a check stands behind a read at the same place, whose success keeps the end of
what was read within the data; the product for an array of fixed length is bounded by the items that
were read before it is computed.
-/

namespace GaslessRelay

open Outcome (bind_eq_ok map_eq_ok)

namespace Abi

variable {data : Bytes} {place : Nat}

theorem end_le_of_wordAt {word : Word} (read : wordAt data place = .ok word) :
    place + 32 ≤ data.length := by
  unfold wordAt at read
  split at read
  · rename_i slice
    exact (Bytes.slice?_eq_some.1 slice).1
  · cases read

theorem end_le_of_offsetAt {number : Nat} (read : offsetAt data place = .ok number) :
    place + 32 ≤ data.length := by
  obtain ⟨word, atPlace, -⟩ := bind_eq_ok.1 read
  exact end_le_of_wordAt atPlace

theorem end_le_of_addressAt {address : Address} (read : addressAt data place = .ok address) :
    place + 32 ≤ data.length := by
  obtain ⟨word, atPlace, -⟩ := bind_eq_ok.1 read
  exact end_le_of_wordAt atPlace

theorem end_le_of_readItems {type : AbiType} (static : type.isDynamic = false)
    {read : Nat → Except CodecError AbiValue}
    (each : ∀ place value, read place = .ok value → place + type.staticSize ≤ data.length)
    {base count offset : Nat} (some : count ≠ 0) {items : List AbiValue}
    (readAll : readItems data type read base count offset = .ok items) :
    offset + count * type.staticSize ≤ data.length := by
  have slot : slotSize type = type.staticSize := by simp [slotSize, static]
  induction count generalizing offset items with
  | zero => exact absurd rfl some
  | succ count ih =>
    obtain ⟨place, placed, rest⟩ := bind_eq_ok.1 readAll
    obtain ⟨item, one, rest⟩ := bind_eq_ok.1 rest
    obtain ⟨others, more, -⟩ := bind_eq_ok.1 rest
    rw [itemPlace_static static] at placed
    cases placed
    have ends := each offset item one
    rw [Nat.succ_mul]
    by_cases last : count = 0
    · rw [last]
      omega
    · have behind := ih last more
      rw [slot] at behind
      omega

/-- A value that is not dynamic lies in the data as far as its type says. -/
theorem end_le_of_decodeAt {type : AbiType} (valid : type.Valid) (static : type.isDynamic = false)
    {value : AbiValue} (decoded : decodeAt data type place = .ok value) :
    place + type.staticSize ≤ data.length := by
  induction type generalizing place value with
  | address =>
    obtain ⟨address, read, -⟩ := map_eq_ok.1 decoded
    exact end_le_of_addressAt read
  | bool | uint _ | fixedBytes _ =>
    obtain ⟨word, atPlace, -⟩ := bind_eq_ok.1 decoded
    exact end_le_of_wordAt atPlace
  | int _ =>
    obtain ⟨word, atPlace, -⟩ := map_eq_ok.1 decoded
    exact end_le_of_wordAt atPlace
  | string | bytes | array _ => cases static
  | fixedArray item length ih =>
    simp only [AbiType.isDynamic] at static
    obtain ⟨items, read, -⟩ := map_eq_ok.1 decoded
    have ends := end_le_of_readItems static (fun _ _ => ih valid.2 static) valid.1 read
    rwa [AbiType.staticSize, if_neg (by simp [static])]

end Abi

namespace Machine

/-- A run ends as a reading does: with the same value, or with the same refusal. -/
inductive Settles {α : Type} : Run α → Except CodecError α → Prop where
  | value (value : α) : Settles (.ok value) (.ok value)
  | refusal (fault : AbiFault) : Settles (refuse fault) (.error (.invalidAbi fault))

namespace Settles

variable {α β γ : Type} {run : Run α} {result : Except CodecError α}

theorem bind (first : Settles run result) {next : α → Run β} {next' : α → Except CodecError β}
    (rest : ∀ value, result = .ok value → Settles (next value) (next' value)) :
    Settles (run >>= next) (result >>= next') := by
  cases first with
  | value value => exact rest value rfl
  | refusal fault => exact .refusal fault

theorem map (settled : Settles run result) (change : α → β) :
    Settles (change <$> run) (change <$> result) := by
  cases settled with
  | value value => exact .value _
  | refusal fault => exact .refusal fault

/-- A run whose value is a reading's value in another form. -/
theorem bind_map {view : β → α} {reading : Except CodecError β}
    (first : Settles run (view <$> reading)) {next : α → Run γ} {next' : β → Except CodecError γ}
    (rest : ∀ value, reading = .ok value → Settles (next (view value)) (next' value)) :
    Settles (run >>= next) (reading >>= next') := by
  cases reading with
  | ok value =>
    cases first
    exact rest value rfl
  | error error =>
    cases first with
    | refusal fault => exact .refusal fault

end Settles

theorem staticSize_eq_ok {type : AbiType} (valid : type.Valid)
    (fits : type.staticSize < Text.wordLimit) : staticSize type = .ok type.staticSize := by
  induction type with
  | fixedArray item length ih =>
    rw [AbiType.staticSize] at fits ⊢
    rw [staticSize]
    by_cases dynamic : item.isDynamic = true
    · rw [if_pos dynamic, if_pos dynamic]
      rfl
    · rw [if_neg dynamic] at fits
      have positive := Nat.pos_of_ne_zero valid.1
      have item_le : item.staticSize ≤ length * item.staticSize :=
        Nat.le_mul_of_pos_left item.staticSize positive
      rw [if_neg dynamic, if_neg dynamic, ih valid.2 (Nat.lt_of_le_of_lt item_le fits),
        Outcome.ok_bind, product_eq_ok fits]
  | _ => rfl

section

variable {data : Bytes} (small : data.length < Nat.pow 2 63)

include small

/-- What lies within the data can be counted. -/
theorem countable {number : Nat} (within : number ≤ data.length) : number < Text.wordLimit := by
  have below : data.length < 2 ^ 63 := small
  have limit : Text.wordLimit = 2 ^ 64 := rfl
  omega

theorem between?_eq_slice? (place length : Nat) :
    (checkedSum? place length).bind (between? data place) = Bytes.slice? data place length := by
  unfold checkedSum?
  by_cases fits : place + length < Text.wordLimit
  · rw [if_pos fits, Option.bind_some, between?, Nat.add_sub_cancel_left]
    by_cases inside : place + length ≤ data.length
    · rw [if_pos ⟨Nat.le_add_right _ _, inside⟩]
      exact (Bytes.slice?_eq_some.2 ⟨inside, rfl⟩).symm
    · rw [if_neg fun both => inside both.2]
      refine (Option.eq_none_iff_forall_ne_some.2 fun part same => ?_).symm
      exact inside (Bytes.slice?_eq_some.1 same).1
  · rw [if_neg fits, Option.bind_none]
    refine (Option.eq_none_iff_forall_ne_some.2 fun part same => ?_).symm
    exact fits (countable small (Bytes.slice?_eq_some.1 same).1)

theorem settles_wordAt {β : Type} {place : Nat} {next : Bytes → Run β}
    {next' : Word → Except CodecError β}
    (rest : ∀ word : Bytes, word.length = 32 → Settles (next word) (next' (wordOfBytes word))) :
    Settles (wordAt data place >>= next) (Abi.wordAt data place >>= next') := by
  unfold wordAt Abi.wordAt
  rw [between?_eq_slice? small]
  cases slice : Bytes.slice? data place 32 with
  | none => exact .refusal _
  | some word =>
    obtain ⟨inside, rfl⟩ := Bytes.slice?_eq_some.1 slice
    refine rest _ ?_
    rw [List.length_take, List.length_drop]
    omega

theorem settles_numberAt (place : Nat) : Settles (numberAt data place) (Abi.wordAt data place) := by
  have settled : Settles (numberAt data place) (Abi.wordAt data place >>= Except.ok) := by
    refine settles_wordAt small fun word length => ?_
    rw [numberIn, if_pos (Nat.le_of_eq length)]
    exact .value _
  have same : (Abi.wordAt data place >>= Except.ok) = Abi.wordAt data place := bind_pure _
  rwa [same] at settled

theorem settles_offsetAt (place : Nat) :
    Settles (offsetAt data place) (Abi.offsetAt data place) := by
  refine (settles_numberAt small place).bind fun word _ => ?_
  split
  · exact .value _
  · exact .refusal _

theorem sum_after_offsetAt {place number : Nat} (read : Abi.offsetAt data place = .ok number) :
    sum place 32 = .ok (place + 32) :=
  sum_eq_ok (countable small (Abi.end_le_of_offsetAt read))

theorem settles_bytesAt (place : Nat) : Settles (bytesAt data place) (Abi.bytesAt data place) := by
  refine (settles_offsetAt small place).bind fun length read => ?_
  rw [sum_after_offsetAt small read, Outcome.ok_bind, between?_eq_slice? small]
  cases Bytes.slice? data (place + 32) length with
  | none => exact .refusal _
  | some content => exact .value _

omit small in
theorem settles_addressIn {word : Bytes} (length : word.length = 32) :
    Settles (addressIn word)
      (if (wordOfBytes word).toNat < Nat.pow 2 160 then .ok ((wordOfBytes word).setWidth 160)
        else .error (.invalidAbi .dirtyAddress)) := by
  have clean : Bytes.isZero (word.take 12) = true ↔ (wordOfBytes word).toNat < Nat.pow 2 160 := by
    rw [toNat_wordOfBytes length]
    exact Bytes.isZero_take_iff length
  have front : upTo word 12 = .ok (word.take 12) := if_pos (by omega)
  have rest : onward word 12 = .ok (word.drop 12) := if_pos (by omega)
  have whole : exactly 20 (word.drop 12) = .ok (word.drop 12) :=
    if_pos (by rw [List.length_drop, length])
  have address : addressOfBytes (word.drop 12) = (wordOfBytes word).setWidth 160 := by
    apply BitVec.eq_of_toNat_eq
    rw [addressOfBytes, BitVec.toNat_ofNat, BitVec.toNat_setWidth, toNat_wordOfBytes length,
      Bytes.toNat_drop length]
    exact Nat.mod_mod _ _
  unfold addressIn
  rw [front, Outcome.ok_bind, rest, Outcome.ok_bind, whole, Outcome.ok_bind, address]
  by_cases zero : Bytes.isZero (word.take 12) = true
  · rw [if_pos zero, if_pos (clean.1 zero)]
    exact .value _
  · rw [if_neg zero, if_neg fun below => zero (clean.2 below)]
    exact .refusal _

theorem settles_addressAt (place : Nat) :
    Settles (addressAt data place) (Abi.addressAt data place) :=
  settles_wordAt small fun _ length => settles_addressIn length

/-- The items settle one by one, and the place behind each of them lies within the data. -/
theorem settles_tuple {slots : List (AbiType × (Nat → Run AbiValue))}
    (each : ∀ slot ∈ slots, slot.1.Valid ∧
      ∀ place, Settles (slot.2 place) (Abi.decodeAt data slot.1 place)) (base offset : Nat) :
    Settles (tuple data base slots offset)
      (Abi.decodeTuple data base (slots.map Prod.fst) offset) := by
  induction slots generalizing offset with
  | nil => exact .value []
  | cons slot rest ih =>
    obtain ⟨type, read⟩ := slot
    obtain ⟨valid, reads⟩ := each (type, read) List.mem_cons_self
    have settled := ih fun other member => each other (List.mem_cons_of_mem _ member)
    rw [tuple, List.map_cons, Abi.decodeTuple, Abi.itemPlace, Abi.slotSize]
    by_cases dynamic : type.isDynamic = true
    · simp only [if_pos dynamic, bind_assoc]
      refine (settles_offsetAt small offset).bind fun relative head => ?_
      -- The place behind the head lies in the data, since the head was read.
      have next := sum_after_offsetAt small head
      by_cases fits : base + relative < Text.wordLimit
      · simp only [checkedSum?, if_pos fits, next, Outcome.ok_bind, Outcome.pure_eq_ok]
        refine (reads (base + relative)).bind fun value _ => ?_
        exact (settled (offset + 32)).bind fun values _ => .value _
      · simp only [checkedSum?, if_neg fits]
        exact .refusal _
    · have static : type.isDynamic = false := by simpa using dynamic
      simp only [if_neg dynamic, Outcome.ok_bind]
      refine (reads offset).bind fun value decoded => ?_
      -- The size is computed only now, and what was read bounds it.
      have ends := Abi.end_le_of_decodeAt valid static decoded
      have size := staticSize_eq_ok valid (countable small (by omega))
      have next := sum_eq_ok (countable small ends)
      simp only [size, next, Outcome.ok_bind]
      exact (settled (offset + type.staticSize)).bind fun values _ => .value _

theorem settles_items {item : AbiType} (valid : item.Valid)
    (reads : ∀ place, Settles (decodeAt data item place) (Abi.decodeAt data item place))
    (base count : Nat) :
    Settles (tuple data base (List.replicate count (item, decodeAt data item)) base)
      (Abi.readItems data item (Abi.decodeAt data item) base count base) := by
  have each : ∀ slot ∈ List.replicate count (item, decodeAt data item), slot.1.Valid ∧
      ∀ place, Settles (slot.2 place) (Abi.decodeAt data slot.1 place) := by
    intro slot member
    rw [List.eq_of_mem_replicate member]
    exact ⟨valid, reads⟩
  have settled := settles_tuple small each base base
  rwa [List.map_replicate, ← Abi.readItems_eq_decodeTuple] at settled

theorem settles_decodeAt {type : AbiType} (valid : type.Valid) (place : Nat) :
    Settles (decodeAt data type place) (Abi.decodeAt data type place) := by
  induction type generalizing place with
  | address => exact (settles_addressAt small place).map _
  | bool =>
    refine (settles_numberAt small place).bind fun word _ => ?_
    split
    · exact .value _
    · split
      · exact .value _
      · exact .refusal _
  | uint bits =>
    refine (settles_numberAt small place).bind fun word _ => ?_
    split
    · exact .value _
    · exact .refusal _
  | int bits => exact (settles_numberAt small place).map _
  | fixedBytes size =>
    refine settles_wordAt small fun word length => ?_
    have rest : onward word size = .ok (word.drop size) := if_pos (by rw [length]; exact valid.2)
    have whole : exactly 32 word = .ok word := if_pos length
    have padded : Bytes.isZero (word.drop size) = true
        ↔ (wordOfBytes word).toNat % Nat.pow 256 (32 - size) = 0 := by
      rw [toNat_wordOfBytes length]
      exact Bytes.isZero_drop_iff length
    rw [rest, Outcome.ok_bind, whole, Outcome.ok_bind]
    by_cases zero : Bytes.isZero (word.drop size) = true
    · rw [if_pos zero, if_pos (padded.1 zero)]
      exact .value _
    · rw [if_neg zero, if_neg fun multiple => zero (padded.2 multiple)]
      exact .refusal _
  | bytes => exact (settles_bytesAt small place).map _
  | string =>
    refine (settles_bytesAt small place).bind fun content _ => ?_
    cases Bytes.toString? content with
    | none => exact .refusal _
    | some text => exact .value _
  | array item ih =>
    have itemValid : item.Valid := valid
    refine (settles_offsetAt small place).bind fun length read => ?_
    rw [sum_after_offsetAt small read, Outcome.ok_bind]
    split
    · exact .refusal _
    · exact (settles_items small itemValid (ih itemValid) (place + 32) length).map _
  | fixedArray item length ih =>
    exact (settles_items small valid.2 (ih valid.2) place length).map _

theorem settles_decode {types : List AbiType} (valid : ∀ type ∈ types, type.Valid) :
    Settles (decode types data) (Abi.decode types data) := by
  have each : ∀ slot ∈ types.map fun type => (type, decodeAt data type), slot.1.Valid ∧
      ∀ place, Settles (slot.2 place) (Abi.decodeAt data slot.1 place) := by
    intro slot member
    obtain ⟨type, inTypes, rfl⟩ := List.mem_map.1 member
    exact ⟨valid type inTypes, settles_decodeAt small (valid type inTypes)⟩
  have settled := settles_tuple small each 0 0
  rw [List.map_map] at settled
  rwa [show types.map (Prod.fst ∘ fun type => (type, decodeAt data type)) = types from
    List.map_id types] at settled

/-- Each index is counted up only after the address before it was read. -/
theorem settles_addressesAt {start : Nat} (count index : Nat)
    (reached : start + 32 + index * 32 ≤ data.length) :
    Settles (addressesAt data start count index)
      (Abi.addressesAt data count (start + 32 + index * 32)) := by
  induction count generalizing index with
  | zero => exact .value []
  | succ count ih =>
    have first := sum_eq_ok (countable small (by omega : start + 32 ≤ data.length))
    have step := product_eq_ok (countable small (by omega : index * 32 ≤ data.length))
    have place := sum_eq_ok (countable small reached)
    rw [addressesAt, Abi.addressesAt, first, Outcome.ok_bind, step, Outcome.ok_bind, place,
      Outcome.ok_bind]
    refine (settles_addressAt small _).bind fun address read => ?_
    have next : start + 32 + index * 32 + 32 = start + 32 + (index + 1) * 32 := by omega
    have ends := Abi.end_le_of_addressAt read
    rw [next] at ends ⊢
    exact (ih (index + 1) ends).bind fun rest _ => .value _

theorem settles_decodeAddresses : Settles (decodeAddresses data) (Abi.decodeAddresses data) := by
  refine (settles_offsetAt small 0).bind fun start _ => ?_
  refine (settles_offsetAt small start).bind fun count read => ?_
  have settled := settles_addressesAt small count 0 (Abi.end_le_of_offsetAt read)
  rwa [Nat.zero_mul, Nat.add_zero] at settled

omit small in
theorem settles_placeFrom (base relative : Nat) :
    Settles (placeFrom base relative) (RelayCall.placeFrom base relative) := by
  unfold placeFrom RelayCall.placeFrom checkedSum?
  by_cases fits : base + relative < Text.wordLimit
  · rw [if_pos fits, if_pos fits]
    exact .value _
  · rw [if_neg fits, if_neg fits]
    exact .refusal _

/-- A word for 32 fixed bytes has no padding. -/
theorem settles_hashAt (place : Nat) :
    Settles (decodeAt data (.fixedBytes 32) place) (.fixedBytes <$> Abi.wordAt data place) := by
  have valid : (AbiType.fixedBytes 32).Valid := ⟨by decide, by decide⟩
  have settled := settles_decodeAt small valid place
  have same : Abi.decodeAt data (.fixedBytes 32) place = .fixedBytes <$> Abi.wordAt data place := by
    rw [Abi.decodeAt]
    cases Abi.wordAt data place with
    | ok word => exact if_pos (Nat.mod_one _)
    | error error => rfl
  rwa [same] at settled

/-- A word is in the range of a number of 256 bits. -/
theorem settles_nonceAt (place : Nat) :
    Settles (decodeAt data (.uint 256) place) (.uint <$> Abi.wordAt data place) := by
  have valid : (AbiType.uint 256).Valid := ⟨by decide, by decide, by decide⟩
  have settled := settles_decodeAt small valid place
  have same : Abi.decodeAt data (.uint 256) place = .uint <$> Abi.wordAt data place := by
    rw [Abi.decodeAt]
    cases Abi.wordAt data place with
    | ok word => exact if_pos word.isLt
    | error error => rfl
  rwa [same] at settled

theorem settles_readRequest : Settles (readRequest data) (RelayCall.readRequest data) := by
  unfold readRequest RelayCall.readRequest headField RelayCall.wordFrom
  simp only [bind_assoc]
  refine (settles_offsetAt small 0).bind fun base _ => ?_
  refine (settles_placeFrom base 0).bind fun hashPlace _ => ?_
  refine (settles_hashAt small hashPlace).bind_map fun typeHash _ => ?_
  refine (settles_placeFrom base 32).bind fun senderPlace _ => ?_
  refine ((settles_addressAt small senderPlace).map AbiValue.address).bind_map fun sender _ => ?_
  refine (settles_placeFrom base 64).bind fun noncePlace _ => ?_
  refine (settles_nonceAt small noncePlace).bind_map fun nonce _ => ?_
  refine (settles_placeFrom base 96).bind fun offsetPlace _ => ?_
  refine (settles_offsetAt small offsetPlace).bind fun dataOffset _ => ?_
  refine (settles_placeFrom base dataOffset).bind fun dataPlace _ => ?_
  refine ((settles_bytesAt small dataPlace).map AbiValue.bytes).bind_map fun content _ => ?_
  exact .value _

theorem settles_readSignatures (thresholdPath : Bool) :
    Settles (readSignatures data thresholdPath) (RelayCall.readSignatures data thresholdPath) := by
  unfold readSignatures RelayCall.readSignatures
  refine (settles_offsetAt small 32).bind fun offset _ => ?_
  cases thresholdPath with
  | true =>
    have valid : (AbiType.array .bytes).Valid := trivial
    refine (settles_decodeAt small valid offset).bind fun value decoded => ?_
    obtain ⟨items, rfl, -⟩ := Abi.describes_of_decodeAt decoded
    exact .value _
  | false =>
    exact ((settles_bytesAt small offset).map AbiValue.bytes).bind_map fun content _ => .value _

end

theorem settles_relayCall {calldata : Bytes} (small : calldata.length < Nat.pow 2 63) :
    Settles (relayCall calldata) (RelayCall.decode calldata) := by
  unfold relayCall RelayCall.decode
  by_cases short : calldata.length < 4
  · rw [if_pos short, if_pos short]
    exact .refusal _
  · have selector : upTo calldata 4 = .ok (calldata.take 4) := if_pos (by omega)
    have arguments : onward calldata 4 = .ok (calldata.drop 4) := if_pos (by omega)
    have smaller : (calldata.drop 4).length < Nat.pow 2 63 := by
      rw [List.length_drop]
      omega
    rw [if_neg short, if_neg short, selector, Outcome.ok_bind, arguments, Outcome.ok_bind]
    cases RelayCall.pathOf? (calldata.take 4) with
    | none => exact .refusal _
    | some thresholdPath =>
      refine (settles_readRequest smaller).bind fun request _ => ?_
      exact (settles_readSignatures smaller thresholdPath).bind fun signatures _ => .value _

theorem attempt_of_settles {α : Type} {run : Run α} {result : Except CodecError α}
    (settled : Settles run result) : attempt run = .ok result.toOption := by
  cases settled with
  | value value => rfl
  | refusal fault => rfl

/-- Nothing stops the reading of a revert reason; refusals are the absence of one. -/
theorem revertReason_eq {data : Bytes} (small : data.length < Nat.pow 2 63) :
    revertReason data = .ok (Abi.revertReason? data) := by
  unfold revertReason Abi.revertReason?
  by_cases other : data.take 4 ≠ Abi.revertSelector
  · rw [if_pos other, if_pos other]
    rfl
  · have smaller : (data.drop 4).length < Nat.pow 2 63 := by
      rw [List.length_drop]
      omega
    rw [if_neg other, if_neg other]
    generalize (data.drop 4 : Bytes) = body at smaller
    dsimp only
    rw [attempt_of_settles (settles_offsetAt smaller 0), Outcome.ok_bind]
    cases Abi.offsetAt body 0 with
    | error error => rfl
    | ok start =>
      show (attempt (offsetAt body start) >>= _)
        = Except.ok ((Abi.offsetAt body start).toOption.bind fun length =>
          (Bytes.slice? body (start + 32) length).bind Bytes.toString?)
      rw [attempt_of_settles (settles_offsetAt smaller start), Outcome.ok_bind]
      cases read : Abi.offsetAt body start with
      | error error => rfl
      | ok length =>
        have fits := countable smaller (Abi.end_le_of_offsetAt read)
        have first := sum_after_offsetAt smaller read
        have stop : (checkedSum? start 32).bind (checkedSum? · length)
            = checkedSum? (start + 32) length := by
          rw [checkedSum?, if_pos fits, Option.bind_some]
        show (sum start 32 >>= _) = _
        rw [first, Outcome.ok_bind, stop, between?_eq_slice? smaller]
        rfl

/-- On any bytes that fit in memory every reader ends with the value or with the refusal of its
reading, for every list of types that texts name and at every place: nothing overflows, and nothing
is read out of bounds. -/
theorem readers_settle {data : Bytes} (small : data.length < Nat.pow 2 63) {types : List AbiType}
    (named : ∀ type ∈ types, ∃ text, AbiType.parse text = .ok type) :
    Settles (relayCall data) (RelayCall.decode data) ∧
    Settles (decode types data) (Abi.decode types data) ∧
    (∀ type ∈ types, ∀ place, Settles (decodeAt data type place) (Abi.decodeAt data type place)) ∧
    Settles (decodeAddresses data) (Abi.decodeAddresses data) ∧
    revertReason data = .ok (Abi.revertReason? data) := by
  have valid : ∀ type ∈ types, type.Valid := by
    intro type member
    obtain ⟨text, parsed⟩ := named type member
    exact AbiType.valid_of_parse parsed
  exact ⟨settles_relayCall small, settles_decode small valid,
    fun type member => settles_decodeAt small (valid type member),
    settles_decodeAddresses small, revertReason_eq small⟩

/-- The size of the array and the end of the length would overflow; neither is computed. -/
theorem readers_settle_beyond_limit :
    let table : AbiType := .fixedArray (.fixedArray (.uint 256) 4294967296) 4294967296
    let types : List AbiType := [.bytes, table]
    let data := wordBytes 7
    let last := Text.wordLimit - 1
    data.length < Nat.pow 2 63 ∧ (∀ type ∈ types, ∃ text, AbiType.parse text = .ok type) ∧
    staticSize table = .error .overflow ∧ sum last 32 = .error .overflow ∧
    Settles (decodeAt data table 0) (.error (.invalidAbi (.pastEnd 32))) ∧
    Settles (decodeAt data .bytes last) (.error (.invalidAbi (.pastEnd last))) := by
  intro table types data last
  have small : data.length < Nat.pow 2 63 := by decide
  have named : ∀ type ∈ types, ∃ text, AbiType.parse text = .ok type := by
    intro type member
    rcases List.mem_cons.1 member with rfl | member
    · exact ⟨"bytes", by decide⟩
    · exact ⟨"uint256[4294967296][4294967296]", by rw [List.mem_singleton.1 member]; decide⟩
  have reads := (readers_settle small named).2.2.1
  have tableRead : Abi.decodeAt data table 0 = .error (.invalidAbi (.pastEnd 32)) := by rfl
  have bytesRead : Abi.decodeAt data .bytes last = .error (.invalidAbi (.pastEnd last)) := by rfl
  refine ⟨small, named, by rfl, by rfl, ?_, ?_⟩
  · rw [← tableRead]
    exact reads table (List.mem_cons_of_mem _ List.mem_cons_self) 0
  · rw [← bytesRead]
    exact reads .bytes List.mem_cons_self last

end Machine

end GaslessRelay

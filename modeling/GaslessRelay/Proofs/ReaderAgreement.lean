import GaslessRelay.Proofs.ReadingSafety

/-!
The readers of single answers against the general decoder. The reader of address lists bounds no
length before it reads, and it need not: a list that is too long for the data runs past its end.
Main statement: on any bytes each reader finds what the decoder of its type finds
(`Abi.single_readers_agree`).
-/

namespace GaslessRelay.Abi

open Outcome (bind_eq_ok map_eq_ok toOption_eq_some)

variable {data : Bytes}

theorem offsetAt_lt {place number : Nat} (read : offsetAt data place = .ok number) :
    number < Text.wordLimit := by
  obtain ⟨word, -, fits⟩ := bind_eq_ok.1 read
  split at fits
  · rename_i small
    cases fits
    exact small
  · cases fits

/-- The first item of an encoding stands where the first word says, if the item is dynamic. -/
theorem itemPlace_first {type : AbiType} (dynamic : type.isDynamic = true) :
    itemPlace data type 0 0 = offsetAt data 0 := by
  unfold itemPlace
  rw [if_pos dynamic]
  cases first : offsetAt data 0 with
  | error error => rfl
  | ok relative =>
    have small := offsetAt_lt first
    rw [Outcome.ok_bind, Nat.zero_add, if_pos small]
    rfl

theorem decode_single_eq_ok {type : AbiType} {value : AbiValue} :
    decode [type] data = .ok [value] ↔
      ∃ place, itemPlace data type 0 0 = .ok place ∧ decodeAt data type place = .ok value := by
  constructor
  · intro decoded
    obtain ⟨place, placed, decoded⟩ := bind_eq_ok.1 decoded
    obtain ⟨first, read, decoded⟩ := bind_eq_ok.1 decoded
    cases decoded
    exact ⟨place, placed, read⟩
  · rintro ⟨place, placed, read⟩
    unfold decode decodeTuple
    rw [placed, Outcome.ok_bind, read]
    rfl

theorem decode_dynamic_eq_ok {type : AbiType} (dynamic : type.isDynamic = true)
    {value : AbiValue} :
    decode [type] data = .ok [value] ↔
      ∃ start, offsetAt data 0 = .ok start ∧ decodeAt data type start = .ok value := by
  rw [decode_single_eq_ok, itemPlace_first dynamic]

theorem readItems_address (base count offset : Nat) :
    readItems data .address (decodeAt data .address) base count offset
      = List.map .address <$> addressesAt data count offset := by
  induction count generalizing offset with
  | zero => rfl
  | succ count ih =>
    have slot : slotSize .address = 32 := rfl
    rw [readItems, addressesAt, itemPlace_static rfl, Outcome.ok_bind, slot, ih, decodeAt]
    cases addressAt data offset with
    | error error => rfl
    | ok address =>
      cases addressesAt data count (offset + 32) with
      | error error => rfl
      | ok rest => rfl

/-- A list of addresses that was read is not longer than the data has words. -/
theorem count_le_of_addressesAt {start count : Nat} {addresses : List Address}
    (read : addressesAt data count (start + 32) = .ok addresses) : ¬data.length / 32 < count := by
  by_cases empty : count = 0
  · omega
  · have items : readItems data .address (decodeAt data .address) 0 count (start + 32)
        = .ok (addresses.map .address) := by
      rw [readItems_address, read]
      rfl
    have each : ∀ place value, decodeAt data .address place = .ok value →
        place + AbiType.address.staticSize ≤ data.length :=
      fun place value decoded => end_le_of_decodeAt trivial rfl decoded
    have ends := end_le_of_readItems rfl each empty items
    have size : AbiType.address.staticSize = 32 := rfl
    rw [size] at ends
    omega

theorem decodeAt_addresses_eq_ok {place : Nat} {addresses : List Address} :
    decodeAt data (.array .address) place = .ok (.array (addresses.map .address)) ↔
      ∃ count, offsetAt data place = .ok count ∧
        addressesAt data count (place + 32) = .ok addresses := by
  have distinct : Function.Injective AbiValue.address := fun _ _ same => AbiValue.address.inj same
  constructor
  · intro decoded
    obtain ⟨count, counted, decoded⟩ := bind_eq_ok.1 decoded
    split at decoded
    · cases decoded
    · rw [readItems_address] at decoded
      obtain ⟨items, each, same⟩ := map_eq_ok.1 decoded
      obtain ⟨listed, read, rfl⟩ := map_eq_ok.1 each
      rw [← List.map_injective_iff.2 distinct (AbiValue.array.inj same)]
      exact ⟨count, counted, read⟩
  · rintro ⟨count, counted, read⟩
    have allowed := count_le_of_addressesAt read
    unfold decodeAt
    rw [counted, Outcome.ok_bind, if_neg allowed, readItems_address, read]
    rfl

theorem bytesAt_eq_ok_iff {place : Nat} {content : Bytes} :
    bytesAt data place = .ok content ↔
      ∃ length, offsetAt data place = .ok length ∧
        Bytes.slice? data (place + 32) length = some content := by
  constructor
  · intro read
    obtain ⟨length, counted, read⟩ := bind_eq_ok.1 read
    refine ⟨length, counted, ?_⟩
    split at read
    · rename_i inside
      cases read
      exact inside
    · cases read
  · rintro ⟨length, counted, inside⟩
    unfold bytesAt
    rw [counted, Outcome.ok_bind, inside]
    rfl

theorem decodeAt_string_eq_ok {place : Nat} {text : String} :
    decodeAt data .string place = .ok (.string text) ↔
      ∃ content, bytesAt data place = .ok content ∧ Bytes.toString? content = some text := by
  constructor
  · intro decoded
    obtain ⟨content, read, decoded⟩ := bind_eq_ok.1 decoded
    refine ⟨content, read, ?_⟩
    split at decoded
    · rename_i spelled
      cases decoded
      exact spelled
    · cases decoded
  · rintro ⟨content, read, spelled⟩
    unfold decodeAt
    rw [read, Outcome.ok_bind, spelled]
    rfl

theorem decodeAddresses_eq_ok {addresses : List Address} :
    decodeAddresses data = .ok addresses ↔
      decode [.array .address] data = .ok [.array (addresses.map .address)] := by
  rw [decode_dynamic_eq_ok rfl]
  simp only [decodeAt_addresses_eq_ok]
  exact bind_eq_ok.trans (exists_congr fun start => and_congr_right fun _ => bind_eq_ok)

theorem decodeUint_eq_ok {number : Word} :
    decodeUint data = .ok number ↔ decode [.uint 256] data = .ok [.uint number] := by
  rw [decode_single_eq_ok]
  constructor
  · intro read
    have small : number.toNat < Nat.pow 2 256 := number.isLt
    refine ⟨0, itemPlace_static rfl 0 0, ?_⟩
    unfold decodeAt
    rw [show wordAt data 0 = .ok number from read, Outcome.ok_bind, if_pos small]
    rfl
  · rintro ⟨place, placed, decoded⟩
    rw [itemPlace_static rfl] at placed
    cases placed
    obtain ⟨word, read, decoded⟩ := bind_eq_ok.1 decoded
    split at decoded
    · cases decoded
      exact read
    · cases decoded

theorem decode_string_eq_ok {text : String} :
    decode [.string] data = .ok [.string text] ↔
      ∃ start, offsetAt data 0 = .ok start ∧ ∃ length, offsetAt data start = .ok length ∧
        ∃ content, Bytes.slice? data (start + 32) length = some content ∧
          Bytes.toString? content = some text := by
  rw [decode_dynamic_eq_ok rfl]
  apply exists_congr
  intro start
  apply and_congr_right
  intro _
  rw [decodeAt_string_eq_ok]
  constructor
  · rintro ⟨content, read, spelled⟩
    obtain ⟨length, counted, inside⟩ := bytesAt_eq_ok_iff.1 read
    exact ⟨length, counted, content, inside, spelled⟩
  · rintro ⟨length, counted, content, inside, spelled⟩
    exact ⟨content, bytesAt_eq_ok_iff.2 ⟨length, counted, inside⟩, spelled⟩

theorem eq_append_iff {front body : Bytes} :
    data = front ++ body ↔ data.take front.length = front ∧ data.drop front.length = body := by
  constructor
  · rintro rfl
    exact ⟨List.take_left, List.drop_left⟩
  · rintro ⟨isFront, rfl⟩
    exact (List.take_append_drop front.length data).symm.trans (by rw [isFront])

/-- The reason in the data of a revert is what the decoder of one string finds behind the
selector. -/
theorem revertReason?_eq_some {reason : String} :
    revertReason? data = some reason ↔
      ∃ body, data = revertSelector ++ body ∧ decode [.string] body = .ok [.string reason] := by
  have found : revertReason? data = some reason ↔
      data.take 4 = revertSelector ∧ decode [.string] (data.drop 4) = .ok [.string reason] := by
    rw [decode_string_eq_ok]
    unfold revertReason?
    by_cases marked : data.take 4 = revertSelector
    · simp [marked, Option.bind_eq_some_iff, toOption_eq_some]
    · simp [marked]
  rw [found]
  constructor
  · rintro ⟨marked, decoded⟩
    exact ⟨data.drop 4, eq_append_iff.2 ⟨marked, rfl⟩, decoded⟩
  · rintro ⟨body, spelled, decoded⟩
    obtain ⟨marked, rfl⟩ := eq_append_iff.1 spelled
    exact ⟨marked, decoded⟩

/-- On any bytes the readers of an address list, of a number and of a revert reason succeed exactly
when the decoder does for the type that each of them is for, and with the same content. -/
theorem single_readers_agree (data : Bytes) :
    (∀ addresses, decodeAddresses data = .ok addresses ↔
      decode [.array .address] data = .ok [.array (addresses.map .address)]) ∧
    (∀ number, decodeUint data = .ok number ↔
      decode [.uint 256] data = .ok [.uint number]) ∧
    (∀ reason, revertReason? data = some reason ↔
      ∃ body, data = revertSelector ++ body ∧ decode [.string] body = .ok [.string reason]) :=
  ⟨fun _ => decodeAddresses_eq_ok, fun _ => decodeUint_eq_ok, fun _ => revertReason?_eq_some⟩

end GaslessRelay.Abi

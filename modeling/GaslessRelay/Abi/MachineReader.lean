import GaslessRelay.Abi.Reader

/-!
The readers as a machine of 64-bit numbers runs them, operation by operation. A sum or a product
that is not checked stops the run when it overflows, and so does a slice that is not checked when
it lies outside its bytes; what is checked refuses the data instead.
-/

namespace GaslessRelay.Machine

/-- Why a run ends without a value: the data is refused, or the machine stops. -/
inductive Stop where
  | refused (error : CodecError)
  | overflow
  | outOfBounds
  /-- More memory is asked for than can be addressed. -/
  | capacity
deriving DecidableEq, Repr

abbrev Run (α : Type) := Except Stop α

def sum (first second : Nat) : Run Nat :=
  if first + second < Text.wordLimit then .ok (first + second) else .error .overflow

def product (first second : Nat) : Run Nat :=
  if first * second < Text.wordLimit then .ok (first * second) else .error .overflow

theorem sum_eq_ok {first second : Nat} (fits : first + second < Text.wordLimit) :
    sum first second = .ok (first + second) := if_pos fits

theorem product_eq_ok {first second : Nat} (fits : first * second < Text.wordLimit) :
    product first second = .ok (first * second) := if_pos fits

def checkedSum? (first second : Nat) : Option Nat :=
  if first + second < Text.wordLimit then some (first + second) else none

/-- The bytes from `start` on, up to `stop`. -/
def between? (bytes : Bytes) (start stop : Nat) : Option Bytes :=
  if start ≤ stop ∧ stop ≤ bytes.length then some ((bytes.drop start).take (stop - start))
  else none

/-- The bytes up to `stop`, without a check. -/
def upTo (bytes : Bytes) (stop : Nat) : Run Bytes :=
  if stop ≤ bytes.length then .ok (bytes.take stop) else .error .outOfBounds

/-- The bytes from `start` on, without a check. -/
def onward (bytes : Bytes) (start : Nat) : Run Bytes :=
  if start ≤ bytes.length then .ok (bytes.drop start) else .error .outOfBounds

/-- The bytes as an array of a length, without a check. -/
def exactly (length : Nat) (bytes : Bytes) : Run Bytes :=
  if bytes.length = length then .ok bytes else .error .outOfBounds

/-- The number in a word, which holds 32 bytes at most. -/
def numberIn (word : Bytes) : Run Word :=
  if word.length ≤ 32 then .ok (wordOfBytes word) else .error .outOfBounds

/-- Room for `count` items of a size, without a check. Memory that can be addressed is taken to be
there. -/
def room (size count : Nat) : Run Unit :=
  if size * count < Nat.pow 2 63 then .ok () else .error .capacity

theorem room_eq_ok {size count : Nat} (fits : size * count < Nat.pow 2 63) :
    room size count = .ok () := if_pos fits

def refuse {α : Type} (fault : AbiFault) : Run α := .error (.refused (.invalidAbi fault))

/-- A reading in which everything is checked. -/
def checked {α : Type} (reading : Except CodecError α) : Run α := reading.mapError .refused

@[simp] theorem checked_ok {α : Type} (value : α) : checked (.ok value) = .ok value := rfl

def wordAt (data : Bytes) (place : Nat) : Run Bytes :=
  match (checkedSum? place 32).bind (between? data place) with
  | some word => .ok word
  | none => refuse (.pastEnd place)

def numberAt (data : Bytes) (place : Nat) : Run Word := do
  numberIn (← wordAt data place)

def offsetAt (data : Bytes) (place : Nat) : Run Nat := do
  let number ← numberAt data place
  if number.toNat < Text.wordLimit then return number.toNat
  else refuse .lengthOverflow

def staticSize : AbiType → Run Nat
  | .fixedArray item length => do
    if item.isDynamic then return 32
    else product length (← staticSize item)
  | _ => .ok 32

def bytesAt (data : Bytes) (place : Nat) : Run Bytes := do
  let length ← offsetAt data place
  let start ← sum place 32
  match (checkedSum? start length).bind (between? data start) with
  | some content => return content
  | none => refuse (.bytesPastEnd length)

def addressIn (word : Bytes) : Run Address := do
  let front ← upTo word 12
  if front.isZero then return addressOfBytes (← exactly 20 (← onward word 12))
  else refuse .dirtyAddress

def addressAt (data : Bytes) (place : Nat) : Run Address := do
  addressIn (← wordAt data place)

/-- The items of a tuple that starts at `base`: their types, how each of them is read at its place,
and where the head of the first one stands. -/
def tuple (data : Bytes) (base : Nat) :
    List (AbiType × (Nat → Run AbiValue)) → (offset : Nat) → Run (List AbiValue)
  | [], _ => .ok []
  | (type, read) :: rest, offset => do
    if type.isDynamic then
      match checkedSum? base (← offsetAt data offset) with
      | none => refuse .offsetOverflow
      | some tail =>
        let value ← read tail
        let values ← tuple data base rest (← sum offset 32)
        return value :: values
    else
      let value ← read offset
      let values ← tuple data base rest (← sum offset (← staticSize type))
      return value :: values

def decodeAt (data : Bytes) : AbiType → (place : Nat) → Run AbiValue
  | .address, place => .address <$> addressAt data place
  | .bool, place => do
    let number ← numberAt data place
    if number = 0 then return .bool false
    else if number = 1 then return .bool true
    else refuse .boolRange
  | .uint bits, place => do
    let number ← numberAt data place
    if number.toNat < Nat.pow 2 bits then return .uint number
    else refuse (.uintRange bits)
  | .int _, place => .int <$> numberAt data place
  | .fixedBytes size, place => do
    let word ← wordAt data place
    let rest ← onward word size
    if rest.isZero then return .fixedBytes (wordOfBytes (← exactly 32 word))
    else refuse (.dirtyBytes size)
  | .bytes, place => .bytes <$> bytesAt data place
  | .string, place => do
    match Bytes.toString? (← bytesAt data place) with
    | some text => return .string text
    | none => refuse .notUtf8
  | .array item, place => do
    let length ← offsetAt data place
    if data.length / 32 < length then refuse (.arrayTooLong length)
    else
      let start ← sum place 32
      .array <$> tuple data start (List.replicate length (item, decodeAt data item)) start
  | .fixedArray item length, place =>
    .fixedArray <$> tuple data place (List.replicate length (item, decodeAt data item)) place

def decode (types : List AbiType) (data : Bytes) : Run (List AbiValue) :=
  tuple data 0 (types.map fun type => (type, decodeAt data type)) 0

/-- The addresses with the indices from `index` on, `count` of them, in the list behind `start`. -/
def addressesAt (data : Bytes) (start : Nat) : (count index : Nat) → Run (List Address)
  | 0, _ => .ok []
  | count + 1, index => do
    let place ← sum (← sum start 32) (← product index 32)
    let address ← addressAt data place
    let rest ← addressesAt data start count (index + 1)
    return address :: rest

def decodeAddresses (data : Bytes) : Run (List Address) := do
  let start ← offsetAt data 0
  let count ← offsetAt data start
  addressesAt data start count 0

/-- Nothing in place of a refusal. -/
def attempt {α : Type} : Run α → Run (Option α)
  | .ok value => .ok (some value)
  | .error (.refused _) => .ok none
  | .error stop => .error stop

def revertReason (data : Bytes) : Run (Option String) := do
  if data.take 4 ≠ Abi.revertSelector then return none
  let body : Bytes := data.drop 4
  let some start ← attempt (offsetAt body 0) | return none
  let some length ← attempt (offsetAt body start) | return none
  let first ← sum start 32
  let stop? := (checkedSum? start 32).bind (checkedSum? · length)
  return (stop?.bind (between? body first)).bind Bytes.toString?

end GaslessRelay.Machine

import GaslessRelay.Abi.Value

/-!
Reading of ABI encodings. Offsets and lengths are numbers below `2 ^ 64`; nothing is read past the
end of the data.
-/

namespace GaslessRelay.Abi

def wordAt (data : Bytes) (offset : Nat) : Except CodecError Word :=
  match Bytes.slice? data offset 32 with
  | some word => .ok (wordOfBytes word)
  | none => .error (.invalidAbi (.pastEnd offset))

def offsetAt (data : Bytes) (offset : Nat) : Except CodecError Nat := do
  let word ← wordAt data offset
  if word.toNat < Text.wordLimit then return word.toNat
  else .error (.invalidAbi .lengthOverflow)

def bytesAt (data : Bytes) (offset : Nat) : Except CodecError Bytes := do
  let length ← offsetAt data offset
  match Bytes.slice? data (offset + 32) length with
  | some content => return content
  | none => .error (.invalidAbi (.bytesPastEnd length))

/-- The address in the word at an offset; the twelve bytes before it are zero. -/
def addressAt (data : Bytes) (offset : Nat) : Except CodecError Address := do
  let word ← wordAt data offset
  if word.toNat < Nat.pow 2 160 then return word.setWidth 160
  else .error (.invalidAbi .dirtyAddress)

/-- The place of an item whose head stands at `offset` in the tuple that starts at `base`. -/
def itemPlace (data : Bytes) (type : AbiType) (base offset : Nat) : Except CodecError Nat :=
  if type.isDynamic then do
    let relative ← offsetAt data offset
    if base + relative < Text.wordLimit then return base + relative
    else .error (.invalidAbi .offsetOverflow)
  else .ok offset

def slotSize (type : AbiType) : Nat := if type.isDynamic then 32 else type.staticSize

/-- The items of one type whose heads start at `offset` in the tuple that starts at `base`. -/
def readItems (data : Bytes) (type : AbiType) (read : Nat → Except CodecError AbiValue)
    (base : Nat) : (count offset : Nat) → Except CodecError (List AbiValue)
  | 0, _ => .ok []
  | count + 1, offset => do
    let place ← itemPlace data type base offset
    let item ← read place
    let rest ← readItems data type read base count (offset + slotSize type)
    return item :: rest

def decodeAt (data : Bytes) : AbiType → (place : Nat) → Except CodecError AbiValue
  | .address, place => .address <$> addressAt data place
  | .bool, place => do
    let word ← wordAt data place
    if word = 0 then return .bool false
    else if word = 1 then return .bool true
    else .error (.invalidAbi .boolRange)
  | .uint bits, place => do
    let word ← wordAt data place
    if word.toNat < Nat.pow 2 bits then return .uint word
    else .error (.invalidAbi (.uintRange bits))
  | .int _, place => .int <$> wordAt data place
  | .fixedBytes size, place => do
    let word ← wordAt data place
    if word.toNat % Nat.pow 256 (32 - size) = 0 then return .fixedBytes word
    else .error (.invalidAbi (.dirtyBytes size))
  | .bytes, place => .bytes <$> bytesAt data place
  | .string, place => do
    let content ← bytesAt data place
    match Bytes.toString? content with
    | some text => return .string text
    | none => .error (.invalidAbi .notUtf8)
  | .array item, place => do
    let length ← offsetAt data place
    if data.length / 32 < length then .error (.invalidAbi (.arrayTooLong length))
    else .array <$> readItems data item (decodeAt data item) (place + 32) length (place + 32)
  | .fixedArray item length, place =>
    .fixedArray <$> readItems data item (decodeAt data item) place length place

/-- The values of a tuple that starts at `base`; the head of the first one is at `offset`. -/
def decodeTuple (data : Bytes) (base : Nat) :
    List AbiType → (offset : Nat) → Except CodecError (List AbiValue)
  | [], _ => .ok []
  | type :: rest, offset => do
    let place ← itemPlace data type base offset
    let value ← decodeAt data type place
    let values ← decodeTuple data base rest (offset + slotSize type)
    return value :: values

def decode (types : List AbiType) (data : Bytes) : Except CodecError (List AbiValue) :=
  decodeTuple data 0 types 0

def decodeUint (data : Bytes) : Except CodecError Word := wordAt data 0

def addressesAt (data : Bytes) : (count offset : Nat) → Except CodecError (List Address)
  | 0, _ => .ok []
  | count + 1, offset => do
    let address ← addressAt data offset
    let rest ← addressesAt data count (offset + 32)
    return address :: rest

def decodeAddresses (data : Bytes) : Except CodecError (List Address) := do
  let start ← offsetAt data 0
  let count ← offsetAt data start
  addressesAt data count (start + 32)

/-- The selector of the error that carries a revert reason, `Error(string)`. -/
def revertSelector : Bytes := [0x08, 0xc3, 0x79, 0xa0]

def revertReason? (data : Bytes) : Option String := do
  if data.take 4 ≠ revertSelector then none
  let body : Bytes := data.drop 4
  let start ← (offsetAt body 0).toOption
  let length ← (offsetAt body start).toOption
  let content ← Bytes.slice? body (start + 32) length
  Bytes.toString? content

end GaslessRelay.Abi

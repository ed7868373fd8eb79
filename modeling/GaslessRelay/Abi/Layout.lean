import GaslessRelay.Abi.Value
import GaslessRelay.Digest.Keccak

/-!
The layout of ABI encodings: a tuple is the heads of its items followed by the tails of the dynamic
ones, and the head of a dynamic item is the offset of its tail from the start of the tuple.
-/

namespace GaslessRelay.Abi

def numberWord (number : Nat) : Bytes := wordBytes (BitVec.ofNat 256 number)

def padding (length : Nat) : Nat := (32 - length % 32) % 32

/-- A byte string with its length before it and zeros after it. -/
def lengthAndBytes (content : Bytes) : Bytes :=
  numberWord content.length ++ content ++ Bytes.zeros (padding content.length)

structure Part where
  dynamic : Bool
  /-- The bytes set aside for the item in the head. -/
  width : Nat
  body : Bytes

def headLength (parts : List Part) : Nat :=
  parts.foldr (fun part total => part.width + total) 0

def heads : (offset : Nat) → List Part → Bytes
  | _, [] => []
  | offset, part :: rest =>
    if part.dynamic then numberWord offset ++ heads (offset + part.body.length) rest
    else part.body ++ heads offset rest

def tails : List Part → Bytes
  | [] => []
  | part :: rest => if part.dynamic then part.body ++ tails rest else tails rest

def assemble (parts : List Part) : Bytes := heads (headLength parts) parts ++ tails parts

mutual

def encodeValue : AbiValue → Bytes
  | .address value => wordBytes (value.setWidth 256)
  | .bool value => wordBytes (if value then 1 else 0)
  | .uint value => wordBytes value
  | .int value => wordBytes value
  | .fixedBytes value => wordBytes value
  | .bytes value => lengthAndBytes value
  | .string value => lengthAndBytes (Bytes.ofString value)
  | .array items => numberWord items.length ++ assemble (encodeParts items)
  | .fixedArray items => assemble (encodeParts items)
  | .tuple items => assemble (encodeParts items)

def encodeParts : List AbiValue → List Part
  | [] => []
  | item :: rest =>
    { dynamic := item.isDynamic
      width := if item.isDynamic then 32 else item.headSize
      body := encodeValue item } :: encodeParts rest

end

def encode (values : List AbiValue) : Bytes := assemble (encodeParts values)

def functionSelector (signature : String) : Selector :=
  (Digest.keccakText signature).extractLsb' 224 32

/-- A call: the selector of the function and its encoded arguments. -/
def encodeCall (signature : String) (arguments : List AbiValue) : Bytes :=
  selectorBytes (functionSelector signature) ++ encode arguments

end GaslessRelay.Abi

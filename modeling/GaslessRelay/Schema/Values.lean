import GaslessRelay.Abi.Value
import GaslessRelay.Json.Record

/-!
The JSON forms of ABI types and values. A value is an object whose only member is named for its
kind, and integers of 256 bits are decimal text.
-/

namespace GaslessRelay

def AbiType.toJson : AbiType → Json
  | .address => .string "address"
  | .bool => .string "bool"
  | .string => .string "string"
  | .bytes => .string "bytes"
  | .fixedBytes size => .array [.string "fixed_bytes", .ofNat size]
  | .uint bits => .array [.string "uint", .ofNat bits]
  | .int bits => .array [.string "int", .ofNat bits]
  | .array item => .array [.string "array", item.toJson]
  | .fixedArray item length => .array [.string "fixed_array", item.toJson, .ofNat length]

namespace AbiValue

def decimal (value : Int) : Json := .string (toString value)

mutual

def toJson : AbiValue → Json
  | .address value => .object [("address", .ofAddress value)]
  | .bool value => .object [("bool", .bool value)]
  | .uint value => .object [("uint", decimal value.toNat)]
  | .int value => .object [("int", decimal value.toInt)]
  | .fixedBytes value => .object [("fixed_bytes", .ofBytes (wordBytes value))]
  | .bytes value => .object [("bytes", .ofBytes value)]
  | .string value => .object [("string", .string value)]
  | .array items => .object [("array", .array (toJsons items))]
  | .fixedArray items => .object [("fixed_array", .array (toJsons items))]
  | .tuple items => .object [("tuple", .array (toJsons items))]

def toJsons : List AbiValue → List Json
  | [] => []
  | item :: rest => item.toJson :: toJsons rest

end

/-- An integer of 256 bits, signed or not, in decimal text. -/
def wordOfDecimal? (json : Json) : Option Word := do
  return BitVec.ofInt 256 (← (← json.string?).toInt?)

def leaf? (kind : String) (json : Json) : Option AbiValue :=
  match kind with
  | "address" => .address <$> Json.address? json
  | "bool" => .bool <$> json.bool?
  | "uint" => .uint <$> wordOfDecimal? json
  | "int" => .int <$> wordOfDecimal? json
  | "fixed_bytes" => (.fixedBytes ∘ wordOfBytes) <$> Json.fixedBytes? 32 json
  | "selector" => (.ofSelector ∘ selectorOfBytes) <$> Json.fixedBytes? 4 json
  | "bytes" => .bytes <$> Json.bytes? json
  | "string" => .string <$> json.string?
  | _ => none

mutual

/-- The value that a JSON value describes; a selector counts as four bytes of a word. -/
def ofJson? : Json → Option AbiValue
  | .object [("array", .array items)] => .array <$> ofJsons? items
  | .object [("fixed_array", .array items)] => .fixedArray <$> ofJsons? items
  | .object [("tuple", .array items)] => .tuple <$> ofJsons? items
  | .object [(kind, json)] => leaf? kind json
  | _ => none

def ofJsons? : List Json → Option (List AbiValue)
  | [] => some []
  | item :: rest => do return (← ofJson? item) :: (← ofJsons? rest)

end

end AbiValue

end GaslessRelay

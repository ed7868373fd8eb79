import GaslessRelay.Abi.Types

/-!
ABI values. A value carries its kind but not the width of its type; `HasType` says which values a
type admits.
-/

namespace GaslessRelay

/-- An ABI value; words of fixed-size bytes are left-aligned. -/
inductive AbiValue where
  | address (value : Address)
  | bool (value : Bool)
  | uint (value : Word)
  | int (value : Word)
  | fixedBytes (value : Word)
  | bytes (value : Bytes)
  | string (value : String)
  | array (items : List AbiValue)
  | fixedArray (items : List AbiValue)
  | tuple (items : List AbiValue)

namespace AbiValue

instance : Inhabited AbiValue := ⟨bool false⟩

def ofNat (number : Nat) : AbiValue := uint (BitVec.ofNat 256 number)

def ofSelector (selector : Selector) : AbiValue :=
  fixedBytes (selector.setWidth 256 <<< 224)

mutual

/-- The encoding of a value stands behind an offset. -/
def isDynamic : AbiValue → Bool
  | bytes _ | string _ | array _ => true
  | fixedArray items | tuple items => anyDynamic items
  | _ => false

def anyDynamic : List AbiValue → Bool
  | [] => false
  | item :: rest => item.isDynamic || anyDynamic rest

end

def word? : AbiValue → Option Word
  | address value => some (value.setWidth 256)
  | bool value => some (if value then 1 else 0)
  | uint value | int value | fixedBytes value => some value
  | _ => none

mutual

def headSize : AbiValue → Nat
  | fixedArray items | tuple items => if anyDynamic items then 32 else headSizes items
  | _ => 32

def headSizes : List AbiValue → Nat
  | [] => 0
  | item :: rest => item.headSize + headSizes rest

end

mutual

/-- The values of a type: integers in range, fixed-size bytes padded with zeros on the right, and
fixed arrays of the declared length. -/
def HasType : AbiValue → AbiType → Prop
  | address _, .address => True
  | bool _, .bool => True
  | string _, .string => True
  | bytes _, .bytes => True
  | fixedBytes value, .fixedBytes size => value.toNat % Nat.pow 256 (32 - size) = 0
  | uint value, .uint bits => value.toNat < Nat.pow 2 bits
  | int value, .int bits =>
    -(Nat.pow 2 (bits - 1) : Int) ≤ value.toInt ∧ value.toInt < (Nat.pow 2 (bits - 1) : Int)
  | array items, .array item => AllHaveType items item
  | fixedArray items, .fixedArray item length => items.length = length ∧ AllHaveType items item
  | _, _ => False

def AllHaveType : List AbiValue → AbiType → Prop
  | [], _ => True
  | value :: rest, type => value.HasType type ∧ AllHaveType rest type

end

end AbiValue

end GaslessRelay

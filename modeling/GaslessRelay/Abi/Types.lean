import GaslessRelay.CodecError
import GaslessRelay.Text.Blank
import GaslessRelay.Text.Numeral

/-!
The types of ABI values, their printed names and the reading of those names.
-/

namespace GaslessRelay

inductive AbiType where
  | address
  | bool
  | string
  | bytes
  | fixedBytes (size : Nat)
  | uint (bits : Nat)
  | int (bits : Nat)
  | array (item : AbiType)
  | fixedArray (item : AbiType) (length : Nat)
deriving DecidableEq, Repr

namespace AbiType

/-- The type counts as variable-length in a signed message: every array does. -/
def isVariable : AbiType → Bool
  | string | bytes | array _ | fixedArray _ _ => true
  | _ => false

/-- A value of the type stands behind an offset in an encoding. -/
def isDynamic : AbiType → Bool
  | string | bytes | array _ => true
  | fixedArray item _ => item.isDynamic
  | _ => false

def staticSize : AbiType → Nat
  | fixedArray item length => if item.isDynamic then 32 else length * item.staticSize
  | _ => 32

def nameChars : AbiType → List Char
  | address => "address".toList
  | bool => "bool".toList
  | string => "string".toList
  | bytes => "bytes".toList
  | fixedBytes size => "bytes".toList ++ Nat.toDigits 10 size
  | uint bits => "uint".toList ++ Nat.toDigits 10 bits
  | int bits => "int".toList ++ Nat.toDigits 10 bits
  | array item => item.nameChars ++ "[]".toList
  | fixedArray item length => item.nameChars ++ '[' :: Nat.toDigits 10 length ++ [']']

def name (type : AbiType) : String := String.ofList type.nameChars

def bits? (text : List Char) : Option Nat :=
  (Text.readDecimal? text).filter fun bits => bits ≠ 0 ∧ bits ≤ 256 ∧ bits % 8 = 0

def size? (text : List Char) : Option Nat :=
  (Text.readDecimal? text).filter fun size => 1 ≤ size ∧ size ≤ 32

def ofBaseName? (text : List Char) : Option AbiType :=
  if text = "address".toList then some address
  else if text = "bool".toList then some bool
  else if text = "string".toList then some string
  else if text = "bytes".toList then some bytes
  else if text = "uint".toList then some (uint 256)
  else if text = "int".toList then some (int 256)
  else
    match Text.dropStart? "bytes".toList text with
    | some digits => (size? digits).map fixedBytes
    | none =>
      match Text.dropStart? "uint".toList text with
      | some digits => (bits? digits).map uint
      | none => (Text.dropStart? "int".toList text).bind fun digits => (bits? digits).map int

/-- A reversed text split at its first opening bracket: what stands before and after it. -/
def splitBracket? : List Char → Option (List Char × List Char)
  | [] => none
  | '[' :: rest => some ([], rest)
  | char :: rest => (splitBracket? rest).map fun (before, after) => (char :: before, after)

/-- The type that a text names, with at most `depth` pairs of brackets. -/
def readName : (depth : Nat) → List Char → Except CodecError AbiType
  | 0, text => .error (.invalidType (String.ofList text))
  | depth + 1, text =>
    let text := Text.trim text
    let invalid := CodecError.invalidType (String.ofList text)
    match text.reverse with
    | ']' :: reversed =>
      match splitBracket? reversed with
      | none => .error invalid
      | some (length, item) => do
        let item ← readName depth item.reverse
        if length.isEmpty then return array item
        match Text.readDecimal? length.reverse with
        | some (length + 1) => return fixedArray item (length + 1)
        | _ => .error invalid
    | _ =>
      match ofBaseName? text with
      | some type => .ok type
      | none => .error invalid

/-- The type that a text names, white space around it and its item types aside. -/
def parse (text : String) : Except CodecError AbiType :=
  readName (text.length + 1) text.toList

end AbiType

end GaslessRelay

import GaslessRelay.Settings.Basic
import GaslessRelay.Text.Numeral

/-!
Numbers of documents: signed integers of 64 bits in four bases, and floating point numbers. Single
underscores may stand between two digits.
-/

namespace GaslessRelay.Toml.Number

/-- The digits of a text without the underscores between two of them. -/
def digits? (isDigit : Char → Bool) : List Char → Option (List Char)
  | [] => none
  | [char] => if isDigit char then some [char] else none
  | char :: '_' :: rest => if isDigit char then (digits? isDigit rest).map (char :: ·) else none
  | char :: rest => if isDigit char then (digits? isDigit rest).map (char :: ·) else none

def valueOf (base : Nat) (digits : List Char) : Nat :=
  digits.foldl (fun total char => total * base + (Text.Numeral.digitValue? char).getD 0) 0

def integer? (value : Int) : Option Setting :=
  if Int64.minValue.toInt ≤ value ∧ value ≤ Int64.maxValue.toInt then some (.integer value)
  else none

def based? (base : Nat) (text : List Char) : Option Setting := do
  let isDigit (char : Char) := (Text.Numeral.digitValue? char).any (· < base)
  integer? (valueOf base (← digits? isDigit text))

def splitDigits (text : List Char) : List Char × List Char :=
  text.span fun char => char.isDigit || char == '_'

def exponent? (text : List Char) : Option (Int × List Char) := do
  let (negative, rest) := match text with
    | '-' :: rest => (true, rest)
    | '+' :: rest => (false, rest)
    | rest => (false, rest)
  let (digits, rest) := splitDigits rest
  let size : Int := valueOf 10 (← digits? Char.isDigit digits)
  return (if negative then -size else size, rest)

def decimal? (negative : Bool) (text : List Char) : Option Setting := do
  let (whole, rest) := splitDigits text
  let whole ← digits? Char.isDigit whole
  if whole.head? = some '0' ∧ 1 < whole.length then none
  let (fraction, rest) ← match rest with
    | '.' :: rest =>
      let (digits, rest) := splitDigits rest
      (digits? Char.isDigit digits).map fun digits => (some digits, rest)
    | rest => some (none, rest)
  let (exponent, rest) ← match rest with
    | 'e' :: rest | 'E' :: rest => (exponent? rest).map fun (value, rest) => (some value, rest)
    | rest => some (none, rest)
  if !rest.isEmpty then none
  if fraction.isNone ∧ exponent.isNone then
    let size : Int := valueOf 10 whole
    integer? (if negative then -size else size)
  else
    let places := fraction.getD []
    let power := exponent.getD 0 - places.length
    let number ← Text.Binary64.nearest? negative (valueOf 10 (whole ++ places)) power
    return .float (.finite number)

def signed? (negative : Bool) (text : List Char) : Option Setting :=
  if text = "inf".toList then some (.float (.infinite negative))
  else if text = "nan".toList then some (.float .notNumber)
  else decimal? negative text

def number? : List Char → Option Setting
  | '0' :: 'x' :: digits => based? 16 digits
  | '0' :: 'o' :: digits => based? 8 digits
  | '0' :: 'b' :: digits => based? 2 digits
  | '+' :: text => signed? false text
  | '-' :: text => signed? true text
  | text => signed? false text

end GaslessRelay.Toml.Number

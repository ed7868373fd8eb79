/-!
Numerals of bounded machine integers: an optional plus sign and digits of a base.
-/

namespace GaslessRelay.Text

def wordLimit : Nat := UInt64.size

namespace Numeral

inductive Fault where
  | empty
  | badDigit
  | tooLarge
deriving DecidableEq, Repr

def Fault.message : Fault → String
  | empty => "cannot parse integer from empty string"
  | badDigit => "invalid digit found in string"
  | tooLarge => "number too large to fit in target type"

/-- The value of a digit or letter in bases up to 36. -/
def digitValue? (char : Char) : Option Nat :=
  if '0' ≤ char ∧ char ≤ '9' then some (char.toNat - 48)
  else if 'a' ≤ char ∧ char ≤ 'z' then some (char.toNat - 87)
  else if 'A' ≤ char ∧ char ≤ 'Z' then some (char.toNat - 55)
  else none

/-- The number that digits append to `total`; a number from `limit` on is too large. -/
def readDigits (base limit : Nat) : (total : Nat) → List Char → Except Fault Nat
  | total, [] => .ok total
  | total, char :: rest =>
    match digitValue? char with
    | none => .error .badDigit
    | some value =>
      if value < base then
        let next := total * base + value
        if next < limit then readDigits base limit next rest else .error .tooLarge
      else .error .badDigit

def read (base limit : Nat) (text : List Char) : Except Fault Nat :=
  match text with
  | [] => .error .empty
  | '+' :: digits => if digits.isEmpty then .error .badDigit else readDigits base limit 0 digits
  | digits => readDigits base limit 0 digits

end Numeral

def readDecimal? (text : List Char) : Option Nat :=
  (Numeral.read 10 wordLimit text).toOption

end GaslessRelay.Text

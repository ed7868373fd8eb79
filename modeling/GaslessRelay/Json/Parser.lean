import GaslessRelay.Json.Basic
import GaslessRelay.Text.Numeral

/-!
Reading of JSON text. Arrays and objects nest at most 127 deep, and members keep their order and
their repetitions.
-/

namespace GaslessRelay.Json

def skipBlank (text : List Char) : List Char :=
  text.dropWhile fun char => char = ' ' || char = '\n' || char = '\r' || char = '\t'

def readUnit? : List Char → Option (Nat × List Char)
  | a :: b :: c :: d :: rest =>
    let digits := [a, b, c, d].mapM fun char =>
      (Text.Numeral.digitValue? char).filter (· < 16)
    digits.map fun values => (values.foldl (fun total value => total * 16 + value) 0, rest)
  | _ => none

def readEscape? : List Char → Option (Char × List Char)
  | '"' :: rest => some ('"', rest)
  | '\\' :: rest => some ('\\', rest)
  | '/' :: rest => some ('/', rest)
  | 'b' :: rest => some ('\x08', rest)
  | 'f' :: rest => some ('\x0c', rest)
  | 'n' :: rest => some ('\n', rest)
  | 'r' :: rest => some ('\r', rest)
  | 't' :: rest => some ('\t', rest)
  | 'u' :: rest =>
    match readUnit? rest with
    | none => none
    | some (first, rest) =>
      if 0xdc00 ≤ first ∧ first < 0xe000 then none
      else if 0xd800 ≤ first ∧ first < 0xdc00 then
        match rest with
        | '\\' :: 'u' :: rest =>
          match readUnit? rest with
          | some (second, rest) =>
            if 0xdc00 ≤ second ∧ second < 0xe000 then
              some (Char.ofNat (0x10000 + (first - 0xd800) * 0x400 + (second - 0xdc00)), rest)
            else none
          | none => none
        | _ => none
      else some (Char.ofNat first, rest)
  | _ => none

/-- The characters up to the closing quote, gathered last first. -/
def readChars? : (limit : Nat) → (gathered : List Char) → List Char → Option (String × List Char)
  | 0, _, _ => none
  | _ + 1, _, [] => none
  | limit + 1, gathered, char :: rest =>
    if char = '"' then some (String.ofList gathered.reverse, rest)
    else if char = '\\' then
      match readEscape? rest with
      | some (escaped, rest) => readChars? limit (escaped :: gathered) rest
      | none => none
    else if char.toNat < 0x20 then none
    else readChars? limit (char :: gathered) rest

def readString? (text : List Char) : Option (String × List Char) :=
  readChars? (text.length + 1) [] text

/-- The first number beyond the significands of floating point numbers that are read. -/
def significandLimit : Nat := UInt64.size

/-- The number that digits append to `total`, how many were taken, and how many more did not fit. -/
def takeDigits (total taken : Nat) : (digits : List Char) → Nat × Nat × Nat
  | [] => (total, taken, 0)
  | char :: rest =>
    let next := total * 10 + (char.toNat - 48)
    if next < significandLimit then takeDigits next (taken + 1) rest
    else (total, taken, rest.length + 1)

/-- The exponent that digits spell, at most a hundred thousand. -/
def exponentOf (digits : List Char) : Nat :=
  digits.foldl (fun total char => min 100000 (total * 10 + (char.toNat - 48))) 0

def splitDigits (text : List Char) : List Char × List Char :=
  (text.takeWhile Char.isDigit, text.dropWhile Char.isDigit)

def readNumber? (negative : Bool) (text : List Char) : Option (Json × List Char) := do
  let (whole, rest) := splitDigits text
  if whole.isEmpty ∨ (whole.head? = some '0' ∧ 1 < whole.length) then none
  let (total, _, excess) := takeDigits 0 0 whole
  let (fraction, rest, hasPoint) ← match rest with
    | '.' :: rest =>
      let (digits, rest) := splitDigits rest
      if digits.isEmpty then none else some (digits, rest, true)
    | rest => some ([], rest, false)
  let (power, rest, hasPower) ← match rest with
    | 'e' :: rest | 'E' :: rest =>
      let (negativePower, rest) := match rest with
        | '-' :: rest => (true, rest)
        | '+' :: rest => (false, rest)
        | rest => (false, rest)
      let (digits, rest) := splitDigits rest
      if digits.isEmpty then none
      else
        let size : Int := exponentOf digits
        some (if negativePower then -size else size, rest, true)
    | rest => some (0, rest, false)
  if excess = 0 ∧ !hasPoint ∧ !hasPower ∧ !negative then
    return (integer total, rest)
  if excess = 0 ∧ !hasPoint ∧ !hasPower ∧ total ≠ 0 ∧ 2 * total ≤ significandLimit then
    return (integer (-total), rest)
  let (significand, places, _) := takeDigits total 0 fraction
  let exponent : Int := excess - places + power
  let number ← Text.Binary64.ofDecimal? negative significand exponent
  return (float number, rest)

mutual

def readValue? : (limit depth : Nat) → List Char → Option (Json × List Char)
  | 0, _, _ => none
  | limit + 1, depth, text =>
    match skipBlank text with
    | 'n' :: 'u' :: 'l' :: 'l' :: rest => some (null, rest)
    | 't' :: 'r' :: 'u' :: 'e' :: rest => some (bool true, rest)
    | 'f' :: 'a' :: 'l' :: 's' :: 'e' :: rest => some (bool false, rest)
    | '"' :: rest => (readString? rest).map fun (text, rest) => (string text, rest)
    | '-' :: rest => readNumber? true rest
    | '[' :: rest =>
      if depth = 0 then none
      else
        match skipBlank rest with
        | ']' :: rest => some (array [], rest)
        | rest => readItems? limit (depth - 1) [] rest
    | '\x7b' :: rest =>
      if depth = 0 then none
      else
        match skipBlank rest with
        | '\x7d' :: rest => some (object [], rest)
        | rest => readMembers? limit (depth - 1) [] rest
    | rest => readNumber? false rest

/-- The items up to the closing bracket, gathered last first. -/
def readItems? : (limit depth : Nat) → (gathered : List Json) → List Char →
    Option (Json × List Char)
  | 0, _, _, _ => none
  | limit + 1, depth, gathered, text =>
    match readValue? limit depth text with
    | none => none
    | some (item, rest) =>
      match skipBlank rest with
      | ',' :: rest => readItems? limit depth (item :: gathered) rest
      | ']' :: rest => some (array (item :: gathered).reverse, rest)
      | _ => none

def readMembers? : (limit depth : Nat) → (gathered : List (String × Json)) → List Char →
    Option (Json × List Char)
  | 0, _, _, _ => none
  | limit + 1, depth, gathered, text =>
    match skipBlank text with
    | '"' :: rest =>
      match readString? rest with
      | none => none
      | some (name, rest) =>
        match skipBlank rest with
        | ':' :: rest =>
          match readValue? limit depth rest with
          | none => none
          | some (value, rest) =>
            match skipBlank rest with
            | ',' :: rest => readMembers? limit depth ((name, value) :: gathered) rest
            | '\x7d' :: rest => some (object ((name, value) :: gathered).reverse, rest)
            | _ => none
        | _ => none
    | _ => none

end

def depthLimit : Nat := 127

def parse? (text : String) : Option Json :=
  let chars := text.toList
  match readValue? (chars.length + 1) depthLimit chars with
  | some (json, rest) => if (skipBlank rest).isEmpty then some json else none
  | none => none

end GaslessRelay.Json

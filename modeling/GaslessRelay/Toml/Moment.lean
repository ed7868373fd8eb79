import GaslessRelay.Text.Numeral

/-!
Dates and times of day, and their written form: a `T` before the time, a `Z` for universal time and
no zeros at the end of a fraction after its first digit. Seconds are written where they are given.
-/

namespace GaslessRelay.Toml.Moment

abbrev Found := Option (String × List Char)

/-- A number of exactly `count` digits between two bounds. -/
def digits? (count least most : Nat) (text : List Char) : Option (Nat × List Char) :=
  let taken := text.take count
  if taken.length = count ∧ taken.all Char.isDigit then
    let value := taken.foldl (fun total char => total * 10 + (char.toNat - 48)) 0
    if least ≤ value ∧ value ≤ most then some (value, text.drop count) else none
  else none

def mark? (mark : Char) : List Char → Option (List Char)
  | char :: rest => if char = mark then some rest else none
  | [] => none

def twoDigits (value : Nat) : String := if value < 10 then "0" ++ toString value else toString value

def daysIn (year month : Nat) : Nat :=
  if month = 2 then
    if year % 4 = 0 ∧ (year % 100 ≠ 0 ∨ year % 400 = 0) then 29 else 28
  else if month = 4 ∨ month = 6 ∨ month = 9 ∨ month = 11 then 30
  else 31

def date? (text : List Char) : Found := do
  let (year, rest) ← digits? 4 0 9999 text
  let (month, rest) ← digits? 2 1 12 (← mark? '-' rest)
  let (_, rest) ← digits? 2 1 (daysIn year month) (← mark? '-' rest)
  return (String.ofList (text.take 10), rest)

/-- The fraction of a second: up to nine digits, without zeros at the end, and one zero if no other
digit is left. -/
def fraction? (text : List Char) : Found :=
  match text with
  | '.' :: rest =>
    let digits := rest.takeWhile Char.isDigit
    if digits.isEmpty then none
    else
      let kept := ((digits.take 9).reverse.dropWhile (· = '0')).reverse
      let kept := if kept.isEmpty then ['0'] else kept
      some ("." ++ String.ofList kept, rest.dropWhile Char.isDigit)
  | rest => some ("", rest)

def time? (text : List Char) : Found := do
  let (_, rest) ← digits? 2 0 23 text
  let (_, rest) ← digits? 2 0 59 (← mark? ':' rest)
  match rest with
  | ':' :: rest =>
    let (_, rest) ← digits? 2 0 60 rest
    let (fraction, rest) ← fraction? rest
    return (String.ofList (text.take 8) ++ fraction, rest)
  | rest => return (String.ofList (text.take 5), rest)

def offset? (text : List Char) : Found :=
  match text with
  | 'Z' :: rest | 'z' :: rest => some ("Z", rest)
  | '+' :: rest => distance? "+" rest
  | '-' :: rest => distance? "-" rest
  | rest => some ("", rest)
where
  distance? (sign : String) (text : List Char) : Found := do
    let (hours, rest) ← digits? 2 0 23 text
    let (minutes, rest) ← digits? 2 0 59 (← mark? ':' rest)
    let sign := if hours = 0 ∧ minutes = 0 then "+" else sign
    return (sign ++ twoDigits hours ++ ":" ++ twoDigits minutes, rest)

/-- The written form of the date, time or both that a whole text spells. -/
def canonical? (text : List Char) : Option String :=
  match date? text with
  | some (date, []) => some date
  | some (date, separator :: rest) => do
    if separator ≠ 'T' ∧ separator ≠ 't' ∧ separator ≠ ' ' then none
    let (time, rest) ← time? rest
    let (offset, rest) ← offset? rest
    if rest.isEmpty then return date ++ "T" ++ time ++ offset else none
  | none =>
    match time? text with
    | some (time, []) => some time
    | _ => none

end GaslessRelay.Toml.Moment

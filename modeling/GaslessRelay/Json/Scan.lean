import GaslessRelay.Json.Parser
import GaslessRelay.Json.Record

/-!
Reading of JSON text part by part, straight from bytes. A part that is passed over is checked for
its form alone: its strings need not be Unicode, its numbers need not fit, and it may nest at any
depth.
-/

namespace GaslessRelay.Json.Scan

/-- A reading of the part at the start of a text, with the rest of the text. -/
abbrev Part (α : Type) := List Char → Option (α × List Char)

/-- A part whose value is put into another form. -/
def as {α β : Type} (form : α → β) (part : Part α) : Part β := fun text =>
  (part text).map fun (value, rest) => (form value, rest)

def textOf (bytes : Bytes) : List Char := bytes.map fun byte => Char.ofNat byte.toNat

def expect? (mark : Char) (text : List Char) : Option (List Char) :=
  match skipBlank text with
  | char :: rest => if char = mark then some rest else none
  | [] => none

def stringBytes? : (limit : Nat) → Part Bytes
  | 0, _ => none
  | _ + 1, [] => none
  | limit + 1, char :: rest =>
    if char = '"' then some ([], rest)
    else if char = '\\' then do
      let (escaped, rest) ← readEscape? rest
      let (bytes, rest) ← stringBytes? limit rest
      return (Bytes.ofString (String.singleton escaped) ++ bytes, rest)
    else if char.toNat < 0x20 then none
    else do
      let (bytes, rest) ← stringBytes? limit rest
      return (UInt8.ofNat char.toNat :: bytes, rest)

def string? : Part String := fun text => do
  let rest ← expect? '"' text
  let (bytes, rest) ← stringBytes? (rest.length + 1) rest
  return (← Bytes.toString? bytes, rest)

def byte? : Part UInt8 := fun text => do
  let (number, rest) ← readNumber? false (skipBlank text)
  return (← Json.byte? number, rest)

def skipString? : List Char → Option (List Char)
  | [] => none
  | '"' :: rest => some rest
  | '\\' :: 'u' :: a :: b :: c :: d :: rest =>
    if (readUnit? [a, b, c, d]).isSome then skipString? rest else none
  | '\\' :: char :: rest =>
    if ['"', '\\', '/', 'b', 'f', 'n', 'r', 't'].contains char then skipString? rest else none
  | char :: rest => if char.toNat < 0x20 then none else skipString? rest

def skipDigits? (text : List Char) : Option (List Char) :=
  let (digits, rest) := splitDigits text
  if digits.isEmpty then none else some rest

def skipNumber? (text : List Char) : Option (List Char) := do
  let (whole, rest) := splitDigits text
  if whole.isEmpty ∨ (whole.head? = some '0' ∧ 1 < whole.length) then none
  let rest ← match rest with
    | '.' :: rest => skipDigits? rest
    | rest => some rest
  match rest with
  | 'e' :: '-' :: rest | 'e' :: '+' :: rest | 'E' :: '-' :: rest | 'E' :: '+' :: rest =>
    skipDigits? rest
  | 'e' :: rest | 'E' :: rest => skipDigits? rest
  | rest => some rest

def skipAtom? : List Char → Option (List Char)
  | 'n' :: 'u' :: 'l' :: 'l' :: rest => some rest
  | 't' :: 'r' :: 'u' :: 'e' :: rest => some rest
  | 'f' :: 'a' :: 'l' :: 's' :: 'e' :: rest => some rest
  | '-' :: rest => skipNumber? rest
  | rest => skipNumber? rest

mutual

def skipValue? : (limit : Nat) → List Char → Option (List Char)
  | 0, _ => none
  | limit + 1, text =>
    match skipBlank text with
    | '"' :: rest => skipString? rest
    | '[' :: rest =>
      match skipBlank rest with
      | ']' :: rest => some rest
      | rest => skipItems? limit rest
    | '\x7b' :: rest =>
      match skipBlank rest with
      | '\x7d' :: rest => some rest
      | rest => skipMembers? limit rest
    | rest => skipAtom? rest

def skipItems? : (limit : Nat) → List Char → Option (List Char)
  | 0, _ => none
  | limit + 1, text => do
    match skipBlank (← skipValue? limit text) with
    | ',' :: rest => skipItems? limit rest
    | ']' :: rest => some rest
    | _ => none

def skipMembers? : (limit : Nat) → List Char → Option (List Char)
  | 0, _ => none
  | limit + 1, text => do
    let rest ← expect? ':' (← skipString? (← expect? '"' text))
    match skipBlank (← skipValue? limit rest) with
    | ',' :: rest => skipMembers? limit rest
    | '\x7d' :: rest => some rest
    | _ => none

end

def items? {α : Type} (item : Part α) : (limit : Nat) → Part (List α)
  | 0, _ => none
  | limit + 1, text => do
    let (value, rest) ← item text
    match skipBlank rest with
    | ',' :: rest => do
      let (values, rest) ← items? item limit rest
      return (value :: values, rest)
    | ']' :: rest => return ([value], rest)
    | _ => none

def list? {α : Type} (item : Part α) : Part (List α) := fun text => do
  let rest ← expect? '[' text
  match skipBlank rest with
  | ']' :: rest => return ([], rest)
  | rest => items? item (rest.length + 1) rest

/-- The members of an object that `part` knows, up to its brace. The others are passed over. -/
def members? {α : Type} (part : String → Option (Part α)) : (limit : Nat) → Part (List (String × α))
  | 0, _ => none
  | limit + 1, text => do
    let (name, rest) ← string? text
    let rest ← expect? ':' rest
    let (found, rest) ← match part name with
      | some read => (read rest).map fun (value, rest) => ([(name, value)], rest)
      | none => (skipValue? (rest.length + 1) rest).map fun rest => ([], rest)
    match skipBlank rest with
    | ',' :: rest => do
      let (others, rest) ← members? part limit rest
      return (found ++ others, rest)
    | '\x7d' :: rest => return (found, rest)
    | _ => none

def inOrder? {α : Type} : List (Part α) → Part (List α)
  | [], text => (expect? ']' text).map fun rest => ([], rest)
  | part :: parts, text => do
    let (value, rest) ← part text
    let (values, rest) ← inOrder? parts (← if parts.isEmpty then some rest else expect? ',' rest)
    return (value :: values, rest)

/-- A record: an object that has each field once, or an array of the fields in order. -/
def record? {α : Type} (fields : List (String × Part α)) : Part (List α) := fun text =>
  match skipBlank text with
  | '[' :: rest => inOrder? (fields.map Prod.snd) rest
  | '\x7b' :: rest => do
    let part (name : String) := (fields.find? (·.1 = name)).map Prod.snd
    let (members, rest) ← match skipBlank rest with
      | '\x7d' :: rest => some ([], rest)
      | rest => members? part (rest.length + 1) rest
    let values ← fields.mapM fun (name, _) =>
      match members.filter (·.1 = name) with
      | [(_, value)] => some value
      | _ => none
    return (values, rest)
  | _ => none

def bytes? : (count : Nat) → Part Bytes
  | 0, text => some ([], text)
  | count + 1, text => do
    let (byte, rest) ← byte? text
    let (bytes, rest) ← bytes? count (← if count = 0 then some rest else expect? ',' rest)
    return (byte :: bytes, rest)

/-- The end of an array of bytes that has all it needs. A comma may stand before the bracket, and so
may one more item that is neither a byte nor an array or object. -/
def endOfBytes? (text : List Char) : Option (List Char) :=
  match skipBlank text with
  | ',' :: rest =>
    match skipBlank rest with
    | ']' :: rest => some rest
    | '"' :: rest => do expect? ']' (← string? ('"' :: rest)).2
    | rest => if (byte? rest).isSome then none else do expect? ']' (← skipAtom? rest)
  | rest => expect? ']' rest

/-- An address in hexadecimal text or as an array of bytes. -/
def address? : Part Address := fun text =>
  match skipBlank text with
  | '[' :: rest => do
    let (bytes, rest) ← bytes? 20 rest
    return (addressOfBytes bytes, ← endOfBytes? rest)
  | rest => do
    let (digits, rest) ← string? rest
    let bytes ← (Text.Hex.decodeFixed 20 (Bytes.ofString digits)).toOption
    return (addressOfBytes bytes, rest)

end GaslessRelay.Json.Scan

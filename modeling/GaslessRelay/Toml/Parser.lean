import GaslessRelay.Toml.Document
import GaslessRelay.Toml.Moment
import GaslessRelay.Toml.MomentTable
import GaslessRelay.Toml.Number
import GaslessRelay.Toml.Text

/-!
Reading of documents. A document is a sequence of lines: dotted keys with their values, headers of
tables, headers of items of arrays of tables, blanks and comments.
-/

namespace GaslessRelay.Toml

def isBare (char : Char) : Bool := char.isAlphanum || char == '_' || char == '-'

def readName (text : List Char) : Reading (String × List Char) :=
  match text with
  | '"' :: rest => readLineString '"' (rest.length + 1) [] rest
  | '\'' :: rest => readLineString '\'' (rest.length + 1) [] rest
  | text =>
    let (name, rest) := text.span isBare
    if name.isEmpty then .error text else .ok (String.ofList name, rest)

def depthLimit : Nat := 80

def readParts : (limit : Nat) → List Char → Reading (List String × List Char)
  | 0, text => .error text
  | limit + 1, text => do
    let (name, rest) ← readName text
    match skipSpace rest with
    | '.' :: rest =>
      let (path, rest) ← readParts limit (skipSpace rest)
      return (name :: path, rest)
    | rest => return ([name], rest)

def readPath (text : List Char) : Reading (List String × List Char) := do
  let (path, rest) ← readParts (text.length + 1) text
  if path.length ≤ depthLimit then return (path, rest) else .error text

def isToken (char : Char) : Bool := isBare char || char == '+' || char == '.' || char == ':'

/-- The token at the start of a text. A day may be followed by a space and its time. -/
def splitToken (text : List Char) : List Char × List Char :=
  let (token, rest) := text.span isToken
  match Moment.date? token, rest with
  | some (_, []), ' ' :: digit :: more =>
    if digit.isDigit then
      let (time, rest) := (digit :: more).span isToken
      (token ++ ' ' :: time, rest)
    else (token, rest)
  | _, _ => (token, rest)

def tokenValue? (token : List Char) : Option Setting :=
  if token = "true".toList then some (.bool true)
  else if token = "false".toList then some (.bool false)
  else (Number.number? token).or ((Moment.canonical? token).map .text)

/-- An edit of a table, refused at the text where the edit starts. -/
def edited (text : List Char) (members : Option Members) : Reading Members :=
  match members with
  | some members => .ok members
  | none => .error text

def expect (mark : List Char) (text : List Char) : Reading (List Char) :=
  if text.take mark.length = mark then .ok (text.drop mark.length) else .error text

mutual

/-- A value, for arrays and tables nested at most `depth` deep. -/
def readValue : (limit depth : Nat) → List Char → Reading (Setting × List Char)
  | 0, _, text => .error text
  | limit + 1, depth, text =>
    match text with
    | '"' :: rest => do
      let (value, rest) ← readString '"' rest
      return (.text value, rest)
    | '\'' :: rest => do
      let (value, rest) ← readString '\'' rest
      return (.text value, rest)
    | '[' :: rest => if depth = 0 then .error text else readItems limit (depth - 1) [] rest
    | '\x7b' :: rest =>
      if depth = 0 then .error text else readMembers limit (depth - 1) [] rest
    | text =>
      let (token, rest) := splitToken text
      match tokenValue? token with
      | some value => .ok (value, rest)
      | none => .error text

def readItems : (limit depth : Nat) → (gathered : List Setting) → List Char →
    Reading (Setting × List Char)
  | 0, _, _, text => .error text
  | limit + 1, depth, gathered, text => do
    match ← skipLines false text with
    | ']' :: rest => return (.list gathered.reverse, rest)
    | text =>
      let (item, rest) ← readValue limit depth text
      match ← skipLines false rest with
      | ',' :: rest => readItems limit depth (item :: gathered) rest
      | ']' :: rest => return (.list (item :: gathered).reverse, rest)
      | rest => .error rest

def readMembers : (limit depth : Nat) → (members : Members) → List Char →
    Reading (Setting × List Char)
  | 0, _, _, text => .error text
  | limit + 1, depth, members, text => do
    match ← skipLines false text with
    | '\x7d' :: rest => return (.table (settings members), rest)
    | text =>
      let (path, rest) ← readPath text
      let rest ← expect ['='] (← skipLines false rest)
      let (value, rest) ← readValue limit depth (← skipLines false rest)
      let members ← edited text (members.assign? value path)
      match ← skipLines false rest with
      | ',' :: rest => readMembers limit depth members rest
      | '\x7d' :: rest => return (.table (settings members), rest)
      | rest => .error rest

end

structure State where
  members : Members := []
  current : List String := []

/-- A header of a table or, with two brackets, of an item of an array of tables. -/
def readHeader (state : State) (text : List Char) : Reading (State × List Char) := do
  let isItem := text.take 2 = ['[', '[']
  let brackets := if isItem then 2 else 1
  let (path, rest) ← readPath (skipSpace (text.drop brackets))
  let rest ← expect (List.replicate brackets ']') (skipSpace rest)
  let begin := if isItem then Members.beginItem? else Members.beginTable?
  let members ← edited text
    (state.members.within? (begin (path.getLast?.getD "")) path.dropLast)
  return (⟨members, path⟩, rest)

def readAssignment (state : State) (text : List Char) : Reading (State × List Char) := do
  let (path, rest) ← readPath text
  let rest ← expect ['='] (skipSpace rest)
  let (value, rest) ← readValue (text.length + 1) depthLimit (skipSpace rest)
  let members ← edited text (state.members.within? (Members.assign? value path) state.current)
  return (⟨members, state.current⟩, rest)

def readLines : (limit : Nat) → State → List Char → Reading State
  | 0, _, text => .error text
  | limit + 1, state, text => do
    match ← skipLines false text with
    | [] => return state
    | '[' :: rest => readNext limit (← readHeader state ('[' :: rest))
    | text => readNext limit (← readAssignment state text)
where
  readNext (limit : Nat) (line : State × List Char) : Reading State := do
    readLines limit line.1 (← endLine false line.2)

/-- The line of a text that holds the start of one of its ends. The empty end counts as the last
character. -/
def lineOf (text rest : List Char) : String :=
  let place := min (text.length - rest.length) (text.length - 1)
  let start := ((text.take place).reverse.takeWhile (· ≠ '\n')).reverse
  String.ofList (start ++ (text.drop place).takeWhile (· ≠ '\n'))

/-- The members of the document that a text spells, or the line where it cannot be read. -/
def parse (text : String) : Except String (List (String × Setting)) :=
  let chars := skipByteOrderMark text.toList
  match readLines (chars.length + 1) {} chars with
  | .ok state =>
    match MomentTable.resolve? (.table (settings state.members)) with
    | some (.table members) => .ok members
    | _ => .error ""
  | .error rest => .error (lineOf chars rest)

end GaslessRelay.Toml

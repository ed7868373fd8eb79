import GaslessRelay.Text.Binary64
import GaslessRelay.Text.Numeral

/-!
Settings as a tree of tables with texts and numbers at its leaves, and the assignment of a value at
a path of names and places.
-/

namespace GaslessRelay

inductive FloatSetting where
  | finite (number : Text.Binary64)
  | infinite (negative : Bool)
  | notNumber
deriving DecidableEq

inductive Setting where
  | text (value : String)
  | integer (value : Int)
  | float (value : FloatSetting)
  | bool (value : Bool)
  | list (items : List Setting)
  | table (members : List (String × Setting))

namespace Setting

def lookup? (members : List (String × Setting)) (name : String) : Option Setting :=
  match members with
  | [] => none
  | (key, value) :: rest => if key = name then some value else lookup? rest name

def put (members : List (String × Setting)) (name : String) (value : Setting) :
    List (String × Setting) :=
  match members with
  | [] => [(name, value)]
  | (key, old) :: rest =>
    if key = name then (key, value) :: rest else (key, old) :: put rest name value

def members : Option Setting → List (String × Setting)
  | some (.table members) => members
  | _ => []

mutual

/-- A value laid over an older one: tables merge, anything else replaces. -/
def merge (older : Option Setting) : Setting → Setting
  | .table newer => .table (mergeAll (members older) newer)
  | value => value

def mergeAll (older : List (String × Setting)) : List (String × Setting) →
    List (String × Setting)
  | [] => older
  | (name, value) :: rest => mergeAll (put older name (merge (lookup? older name) value)) rest

end

inductive Step where
  | member (name : String)
  /-- An item of a list, counted from its end if the index is below zero. -/
  | item (index : Int)

def items : Option Setting → List Setting
  | some (.list items) => items
  | _ => []

/-- A list with room for an index, and the place of the index. Empty tables fill the gap: after the
items, or before them for an index counted from the end. -/
def makeRoom (items : List Setting) : (index : Int) → List Setting × Nat
  | .ofNat place => (items ++ List.replicate (place + 1 - items.length) (.table []), place)
  | .negSucc back =>
    (List.replicate (back + 1 - items.length) (.table []) ++ items, items.length - (back + 1))

/-- A value laid over what is at a path within another one. What is on the way and has no such step
becomes a table or a list. -/
def assign (value : Setting) : (path : List Step) → (target : Option Setting) → Setting
  | [], target => merge target value
  | .member name :: path, target =>
    let inner := members target
    .table (put inner name (assign value path (lookup? inner name)))
  | .item index :: path, target =>
    let (inner, place) := makeRoom (items target) index
    .list (inner.set place (assign value path inner[place]?))

/-- The index at the start of a text that follows an opening bracket, and the text after the closing
one. -/
def readIndex? (chars : List Char) : Option (Int × List Char) := do
  let isSpace (char : Char) := char == ' ' || char == '\t'
  let spelled := chars.dropWhile isSpace
  let isBack := spelled.head? == some '-'
  let (digits, rest) := (if isBack then spelled.drop 1 else spelled).span Char.isDigit
  if digits.isEmpty then none
  let size : Int := (← (Text.Numeral.readDigits 10 UInt64.size 0 digits).toOption)
  let index := if isBack then -size else size
  if index < Int64.minValue.toInt ∨ Int64.maxValue.toInt < index then none
  match rest.dropWhile isSpace with
  | ']' :: rest => return (index, rest)
  | _ => none

/-- The steps that a text spells: plain names after dots and indices in brackets. -/
def readPath? : (limit : Nat) → List Char → Option (List Step)
  | _, [] => some []
  | limit + 1, '.' :: chars => do
    let (name, rest) := chars.span fun char => char.isAlphanum || char == '_' || char == '-'
    if name.isEmpty then none
    return .member (String.ofList name) :: (← readPath? limit rest)
  | limit + 1, '[' :: chars => do
    let (index, rest) ← readIndex? chars
    return .item index :: (← readPath? limit rest)
  | _, _ => none

/-- The path that a name spells; a name that spells none is one step. -/
def pathOf (name : String) : List Step :=
  (readPath? (name.length + 1) ('.' :: name.toList)).getD [.member name]

/-- The members with named values laid over them one after the other. -/
def layer (root named : List (String × Setting)) : List (String × Setting) :=
  named.foldl (fun root (name, value) => members (assign value (pathOf name) (some (.table root))))
    root

end Setting

end GaslessRelay

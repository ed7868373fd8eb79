import GaslessRelay.Text.Binary64

/-!
JSON values. The members of an object keep their order; numbers are integers of 64 bits, signed or
not, or binary floating point numbers.
-/

namespace GaslessRelay

inductive Json where
  | null
  | bool (value : Bool)
  | integer (value : Int)
  | float (value : Text.Binary64)
  | string (text : String)
  | array (items : List Json)
  | object (members : List (String × Json))

namespace Json

instance : Inhabited Json := ⟨null⟩

/-- The value of the first member with a name. -/
def lookup? (members : List (String × Json)) (name : String) : Option Json :=
  match members with
  | [] => none
  | (key, value) :: rest => if key = name then some value else lookup? rest name

/-- A member of an object; other values have none. -/
def member? (json : Json) (name : String) : Option Json :=
  match json with
  | object members => lookup? members name
  | _ => none

def string? : Json → Option String
  | string text => some text
  | _ => none

def array? : Json → Option (List Json)
  | array items => some items
  | _ => none

def object? : Json → Option (List (String × Json))
  | object members => some members
  | _ => none

def bool? : Json → Option Bool
  | bool value => some value
  | _ => none

def integer? : Json → Option Int
  | integer value => some value
  | _ => none

def natural? : Json → Option Nat
  | integer (.ofNat value) => some value
  | _ => none

def isNull : Json → Bool
  | null => true
  | _ => false

def ofNat (value : Nat) : Json := integer value

/-- Members with one more at the end; a name that is there keeps its place and gets the value. -/
def insert (members : List (String × Json)) (name : String) (value : Json) :
    List (String × Json) :=
  match members with
  | [] => [(name, value)]
  | (key, old) :: rest =>
    if key = name then (key, value) :: rest else (key, old) :: insert rest name value

end Json

end GaslessRelay

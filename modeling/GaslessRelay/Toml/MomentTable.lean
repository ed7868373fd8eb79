import GaslessRelay.Settings.Basic
import GaslessRelay.Toml.Moment

/-!
Moments written as tables. A table whose first name is the one reserved for moments stands for the
moment that the text under this name spells.
-/

namespace GaslessRelay.Toml.MomentTable

def reserved : String := "$__toml_private_datetime"

/-- The value that the reserved name has as the first name of a table. -/
def reserved? (members : List (String × Setting)) : Option Setting :=
  if members.all fun (name, _) => reserved ≤ name then Setting.lookup? members reserved else none

mutual

def resolve? : Setting → Option Setting
  | .list items => (resolveItems? items).map .list
  | .table members =>
    match reserved? members with
    | some (.text moment) => (Moment.canonical? moment.toList).map .text
    | some _ => none
    | none => (resolveMembers? members).map .table
  | value => some value

/-- The items of a list with moments for the tables that stand for them. -/
def resolveItems? : List Setting → Option (List Setting)
  | [] => some []
  | item :: rest => do return (← resolve? item) :: (← resolveItems? rest)

def resolveMembers? : List (String × Setting) → Option (List (String × Setting))
  | [] => some []
  | (name, value) :: rest => do return (name, ← resolve? value) :: (← resolveMembers? rest)

end

end GaslessRelay.Toml.MomentTable

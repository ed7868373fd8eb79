import GaslessRelay.Settings.Basic
import GaslessRelay.Text.Blank

/-!
Settings in environment variables: `RELAYER__` starts the name of each, further double underscores
separate tables, and case does not matter.
-/

namespace GaslessRelay.Environment

def marker : List Char := "relayer__".toList

/-- A name in lowercase; the Kelvin sign is a `K`. -/
def lowerName (name : List Char) : List Char :=
  name.map fun char => if char = '\u212a' then 'k' else char.toLower

def dotted : List Char → List Char
  | '_' :: '_' :: rest => '.' :: dotted rest
  | char :: rest => char :: dotted rest
  | [] => []

def setting? (entry : String × String) : Option (String × Setting) :=
  (Text.dropStart? marker (lowerName entry.1.toList)).map fun name =>
    (String.ofList (dotted name), .text entry.2)

def settings (entries : List (String × String)) : List (String × Setting) :=
  entries.filterMap setting?

end GaslessRelay.Environment

import GaslessRelay.Settings.Basic

/-!
Documents of tables and values as they grow line by line. A table is defined once: by its header, by
dotted keys, or by the way to a table below it until a header follows.
-/

namespace GaslessRelay.Toml

inductive Origin where
  | header
  | implied
  | dotted
deriving DecidableEq

inductive Node where
  | value (value : Setting)
  | table (origin : Origin) (members : List (String × Node))
  /-- An array of tables, the last one apart. -/
  | tables (before : List (List (String × Node))) (last : List (String × Node))

abbrev Members := List (String × Node)

namespace Members

def find? (members : Members) (name : String) : Option Node :=
  match members with
  | [] => none
  | (key, node) :: rest => if key = name then some node else find? rest name

def put (members : Members) (name : String) (node : Node) : Members :=
  match members with
  | [] => [(name, node)]
  | (key, old) :: rest =>
    if key = name then (key, node) :: rest else (key, old) :: put rest name node

/-- The members with a value under a dotted key. Its last table must be one that dotted keys made,
and none on the way may have a header. -/
def assign? (value : Setting) : (path : List String) → Members → Option Members
  | [], _ => none
  | [name], members =>
    match find? members name with
    | none => some (put members name (.value value))
    | some _ => none
  | name :: path, members =>
    let isLast := path.length == 1
    match find? members name with
    | none => (assign? value path []).map fun inner => put members name (.table .dotted inner)
    | some (.table .dotted inner) =>
      (assign? value path inner).map fun inner => put members name (.table .dotted inner)
    | some (.table .implied inner) =>
      if isLast then none
      else (assign? value path inner).map fun inner => put members name (.table .implied inner)
    | some (.tables before last) =>
      if isLast then none
      else (assign? value path last).map fun last => put members name (.tables before last)
    | some _ => none

/-- Edits the table that a header path leads to, and makes the tables on the way. -/
def within? (edit : Members → Option Members) : (path : List String) → Members → Option Members
  | [], members => edit members
  | name :: path, members =>
    match find? members name with
    | none => (within? edit path []).map fun inner => put members name (.table .implied inner)
    | some (.table origin inner) =>
      (within? edit path inner).map fun inner => put members name (.table origin inner)
    | some (.tables before last) =>
      (within? edit path last).map fun last => put members name (.tables before last)
    | some (.value _) => none

def beginTable? (name : String) (members : Members) : Option Members :=
  match find? members name with
  | none => some (put members name (.table .header []))
  | some (.table .implied inner) => some (put members name (.table .header inner))
  | some _ => none

def beginItem? (name : String) (members : Members) : Option Members :=
  match find? members name with
  | none => some (put members name (.tables [] []))
  | some (.tables before last) => some (put members name (.tables (before ++ [last]) []))
  | some _ => none

end Members

mutual

def Node.setting : Node → Setting
  | .value value => value
  | .table _ members => .table (settings members)
  | .tables before last => .list (tableSettings before ++ [.table (settings last)])

def settings : List (String × Node) → List (String × Setting)
  | [] => []
  | (name, node) :: rest => (name, node.setting) :: settings rest

def tableSettings : List (List (String × Node)) → List Setting
  | [] => []
  | members :: rest => .table (settings members) :: tableSettings rest

end

end GaslessRelay.Toml

import GaslessRelay.Operation.Builtin

/-!
Catalogs of operation types, in the order of their keys.
-/

namespace GaslessRelay

/-- Operation types with different keys, in the order of the keys. -/
structure Catalog where
  entries : List OperationType := []

namespace Catalog

def get? (catalog : Catalog) (key : String) : Option OperationType :=
  catalog.entries.find? (·.key = key)

/-- The first entry with a type hash. -/
def byTypeHash? (catalog : Catalog) (typeHash : Hash) : Option OperationType :=
  catalog.entries.find? (·.typeHash = typeHash)

def insertSorted (operation : OperationType) : List OperationType → List OperationType
  | [] => [operation]
  | entry :: rest =>
    if operation.key < entry.key then operation :: entry :: rest
    else entry :: insertSorted operation rest

def insert (catalog : Catalog) (operation : OperationType) : Except CodecError Catalog :=
  match catalog.get? operation.key with
  | some _ => .error (.duplicateKey operation.key)
  | none => .ok ⟨insertSorted operation catalog.entries⟩

def ofTypes (operations : List OperationType) : Except CodecError Catalog :=
  operations.foldlM insert {}

/-- A built-in operation with a destination and without. -/
def builtinTypes (modules : ModuleAddresses) (kind : OperationKind) :
    Except CodecError (List OperationType) := do
  let base ← kind.operationType modules
  let proxied ← base.proxied
  return [proxied, base]

def builtin (modules : ModuleAddresses) : Except CodecError Catalog := do
  let types ← OperationKind.all.mapM (builtinTypes modules)
  ofTypes types.flatten

end Catalog

end GaslessRelay

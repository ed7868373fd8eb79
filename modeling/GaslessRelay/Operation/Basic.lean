import GaslessRelay.Abi.Layout

/-!
Operation types: the named fields of a signed message. Every field list starts with the sender and
the nonce, and an opaque data field follows them when any declared field is variable-length.
-/

namespace GaslessRelay

structure Field where
  name : String
  type : AbiType
deriving DecidableEq

namespace Field

def parse (name typeName : String) : Except CodecError Field := do
  return ⟨name, ← AbiType.parse typeName⟩

def sender : Field := ⟨"sender", .address⟩

def nonce : Field := ⟨"nonce", .uint 256⟩

/-- The field that carries the encoding of all fields after the header. -/
def data : Field := ⟨"data", .bytes⟩

def destination : Field := ⟨"destination", .address⟩

/-- A field as it stands in a type string: its type before its name. -/
def declaration (field : Field) : String := field.type.name ++ " " ++ field.name

/-- The names that no declared field may have. -/
def reserved : List String := [sender.name, nonce.name, data.name, destination.name]

/-- The first name that is reserved or among the names before it. -/
def firstClash? : (seen : List String) → List Field → Option String
  | _, [] => none
  | seen, field :: rest =>
    if field.name ∈ reserved ∨ field.name ∈ seen then some field.name
    else firstClash? (field.name :: seen) rest

def withHeader (declared : List Field) : Except CodecError (List Field) :=
  match firstClash? [] declared with
  | some name => .error (.duplicateField name)
  | none =>
    let opaqueData := if declared.any (·.type.isVariable) then [data] else []
    .ok ([sender, nonce] ++ opaqueData ++ declared)

end Field

/-- A recognised shape of operation, and the module function that it is forwarded to. -/
structure OperationType where
  key : String
  fields : List Field
  target : Address
  selector : Selector
deriving DecidableEq

namespace OperationType

def ofDeclared (key : String) (declared : List Field) (target : Address) (selector : Selector) :
    Except CodecError OperationType := do
  return ⟨key, ← Field.withHeader declared, target, selector⟩

def hasOpaqueData (operation : OperationType) : Bool :=
  match operation.fields with
  | _ :: _ :: field :: _ => field.name == Field.data.name
  | _ => false

/-- The number of fields whose values do not come from the payload. -/
def headerLength (operation : OperationType) : Nat := if operation.hasOpaqueData then 3 else 2

def body (operation : OperationType) : List Field := operation.fields.drop operation.headerLength

def isProxied (operation : OperationType) : Bool :=
  match operation.body with
  | field :: _ => field.name == Field.destination.name
  | [] => false

/-- The key and, in brackets, the fields. -/
def typeString (operation : OperationType) : String :=
  operation.key ++ "(" ++ String.intercalate "," (operation.fields.map Field.declaration) ++ ")"

def typeHash (operation : OperationType) : Hash := Digest.keccakText operation.typeString

def proxied (operation : OperationType) : Except CodecError OperationType :=
  if operation.fields.any (·.name = Field.destination.name) then
    .error (.duplicateField Field.destination.name)
  else
    let header := operation.fields.take operation.headerLength
    .ok { operation with
      key := operation.key ++ "Proxied"
      fields := header ++ Field.destination :: operation.body }

end OperationType

end GaslessRelay

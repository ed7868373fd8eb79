import GaslessRelay.Abi.Layout
import GaslessRelay.Json.Basic

/-!
The functions that a compiled module's interface describes in JSON, and their selectors.
-/

namespace GaslessRelay.Dispatch

/-- The selector of interface introspection, which every module answers and no table routes. -/
def introspectionSelector : Selector := 0x01ffc9a7

/-- The entries of an interface: a bare array or the member `abi` of a build artifact. -/
def interfaceEntries (artifact : Json) : Except AbiFault (List Json) :=
  match artifact with
  | .array entries => .ok entries
  | .object members =>
    match Json.lookup? members "abi" with
    | some (.array entries) => .ok entries
    | _ => .error .noInterface
  | _ => .error .notInterface

mutual

/-- The type of a parameter; a tuple expands to its components, its array suffix kept. -/
def parameterType : Json → Except AbiFault String
  | .object members =>
    match Json.lookup? members "type" with
    | some (.string type) =>
      match Text.dropStart? "tuple".toList type.toList with
      | none => .ok type
      | some suffix => do
        let inner ← componentTypes members
        return "(" ++ String.intercalate "," inner ++ ")" ++ String.ofList suffix
    | _ => .error .typelessParameter
  | _ => .error .typelessParameter

/-- The types of the first member named `components`. -/
def componentTypes : List (String × Json) → Except AbiFault (List String)
  | [] => .error .tupleWithoutComponents
  | (name, value) :: rest =>
    if name = "components" then
      match value with
      | .array items => parameterTypes items
      | _ => .error .tupleWithoutComponents
    else componentTypes rest

def parameterTypes : List Json → Except AbiFault (List String)
  | [] => .ok []
  | parameter :: rest => do
    let type ← parameterType parameter
    let types ← parameterTypes rest
    return type :: types

end

def functionSignature (entry : Json) : Except AbiFault String :=
  match entry.member? "name" with
  | some (.string name) => do
    let types ← match entry.member? "inputs" with
      | some (.array inputs) => parameterTypes inputs
      | none => .ok []
      | some _ => .error (.badInputs name)
    return name ++ "(" ++ String.intercalate "," types ++ ")"
  | _ => .error .namelessFunction

def isFunction (entry : Json) : Bool :=
  match entry.member? "type" with
  | some (.string type) => type == "function"
  | _ => false

def functionSignatures (artifact : Json) : Except CodecError (List String) :=
  Except.mapError .invalidAbi do
    let entries ← interfaceEntries artifact
    (entries.filter isFunction).mapM functionSignature

end GaslessRelay.Dispatch

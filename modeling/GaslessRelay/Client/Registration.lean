import GaslessRelay.Client.Custody

/-!
Registration of operation types with the relay, through the custody account.
-/

namespace GaslessRelay.Registration

def registerSignature : String := "registerOperationType(string,string,address,bytes4)"

def unregisterSignature : String := "unregisterOperationType(bytes32)"

def registerCalldata (operation : OperationType) : Bytes :=
  Abi.encodeCall registerSignature
    [.string operation.key, .string operation.typeString, .address operation.target,
      .ofSelector operation.selector]

def unregisterCalldata (typeHash : Hash) : Bytes :=
  Abi.encodeCall unregisterSignature [.fixedBytes typeHash]

/-- Calls to the registry: a single one directly, several as one batch. -/
def execute (custody : Custody) (registry : Address) (calls : List Bytes) : ClientM Receipt :=
  match calls with
  | [] => ClientM.known (.error (.codec .emptyBatch))
  | [data] => custody.executeCall registry data
  | calls => custody.executeBatch (calls.map fun data => ⟨.direct, registry, data⟩)

def register (custody : Custody) (registry : Address) (operations : List OperationType) :
    ClientM Receipt :=
  execute custody registry (operations.map registerCalldata)

def unregister (custody : Custody) (registry : Address) (typeHashes : List Hash) :
    ClientM Receipt :=
  execute custody registry (typeHashes.map unregisterCalldata)

end GaslessRelay.Registration

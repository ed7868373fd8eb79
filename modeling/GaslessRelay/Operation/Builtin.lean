import GaslessRelay.Operation.Basic

/-!
The built-in operations on records, tokens and wallets, and the modules that they go to.
-/

namespace GaslessRelay

inductive ModuleRole where
  | registry
  | token
  | wallet
deriving DecidableEq

structure ModuleAddresses where
  registry : Address := 0
  token : Address := 0
  wallet : Address := 0
deriving DecidableEq

def ModuleAddresses.get (modules : ModuleAddresses) : ModuleRole → Address
  | .registry => modules.registry
  | .token => modules.token
  | .wallet => modules.wallet

inductive OperationKind where
  | registerRecord
  | updateRecordMetadata
  | transferRecord
  | attestRecord
  | mintToken
  | burnToken
  | configureWallet
deriving DecidableEq

namespace OperationKind

def all : List OperationKind :=
  [registerRecord, updateRecordMetadata, transferRecord, attestRecord, mintToken, burnToken,
    configureWallet]

def key : OperationKind → String
  | registerRecord => "RegisterRecord"
  | updateRecordMetadata => "UpdateRecordMetadata"
  | transferRecord => "TransferRecord"
  | attestRecord => "AttestRecord"
  | mintToken => "MintToken"
  | burnToken => "BurnToken"
  | configureWallet => "ConfigureWallet"

/-- The declared fields in signing order. -/
def declared : OperationKind → List Field
  | registerRecord =>
    [⟨"recordId", .fixedBytes 32⟩, ⟨"contentHash", .fixedBytes 32⟩, ⟨"metadataCID", .string⟩]
  | updateRecordMetadata => [⟨"recordId", .fixedBytes 32⟩, ⟨"metadataCID", .string⟩]
  | transferRecord => [⟨"recordId", .fixedBytes 32⟩, ⟨"to", .address⟩]
  | attestRecord => [⟨"recordId", .fixedBytes 32⟩, ⟨"tags", .array .string⟩]
  | mintToken => [⟨"tokenId", .uint 256⟩, ⟨"metadataCID", .string⟩]
  | burnToken => [⟨"tokenId", .uint 256⟩]
  | configureWallet => [⟨"wallet", .address⟩, ⟨"owner", .address⟩, ⟨"threshold", .uint 256⟩]

def module : OperationKind → ModuleRole
  | registerRecord | updateRecordMetadata | transferRecord | attestRecord => .registry
  | mintToken | burnToken => .token
  | configureWallet => .wallet

def functionName : OperationKind → String
  | registerRecord => "registerRecord"
  | updateRecordMetadata => "updateRecordMetadata"
  | transferRecord => "transferRecord"
  | attestRecord => "attestRecord"
  | mintToken => "mintToken"
  | burnToken => "burnToken"
  | configureWallet => "configureWallet"

def functionSignature (kind : OperationKind) : String :=
  kind.functionName ++ "(" ++ String.intercalate "," (kind.declared.map (·.type.name)) ++ ")"

def operationType (kind : OperationKind) (modules : ModuleAddresses) :
    Except CodecError OperationType :=
  OperationType.ofDeclared kind.key kind.declared (modules.get kind.module)
    (Abi.functionSelector kind.functionSignature)

end OperationKind

end GaslessRelay

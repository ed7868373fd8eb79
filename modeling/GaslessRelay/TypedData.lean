import GaslessRelay.Abi.Layout

/-!
Structured data for signing: the domain that binds a signature to one contract on one chain, the
digest of a struct's fields, and the digest that is signed.
-/

namespace GaslessRelay

structure Domain where
  name : String
  version : String
  chainId : UInt64
  verifyingContract : Address
deriving DecidableEq

namespace TypedData

open Digest (keccak256 keccakText)

def domainType : String :=
  "EIP712Domain(string name,string version,uint256 chainId,address verifyingContract)"

mutual

/-- The word that stands for a value in the digest of a struct. -/
def fieldWord : AbiValue → Word
  | .address value => value.setWidth 256
  | .bool value => if value then 1 else 0
  | .uint value => value
  | .int value => value
  | .fixedBytes value => value
  | .bytes value => keccak256 value
  | .string value => keccakText value
  | .array items => keccak256 (fieldWords items)
  | .fixedArray items => keccak256 (fieldWords items)
  | .tuple items => keccak256 (fieldWords items)

/-- The words of several values, one after the other. -/
def fieldWords : List AbiValue → Bytes
  | [] => []
  | item :: rest => wordBytes (fieldWord item) ++ fieldWords rest

end

def structHash (typeHash : Hash) (values : List AbiValue) : Hash :=
  keccak256 (wordBytes typeHash ++ fieldWords values)

def signingDigest (separator structHash : Hash) : Hash :=
  keccak256 ([0x19, 0x01] ++ wordBytes separator ++ wordBytes structHash)

end TypedData

def Domain.separator (domain : Domain) : Hash :=
  TypedData.structHash (Digest.keccakText TypedData.domainType)
    [.string domain.name, .string domain.version, .ofNat domain.chainId.toNat,
      .address domain.verifyingContract]

end GaslessRelay

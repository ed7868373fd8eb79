import GaslessRelay.Proofs.CustodyCalls

/-!
Calls that the custody account makes to the relay as its owner: what each of them does to the
registry.
-/

namespace GaslessRelay

open Outcome

theorem RelayCall.pathOf?_other {other : String} (member : other ∈ Chain.otherSignatures) :
    pathOf? (selectorBytes (Abi.functionSelector other)) = none := by
  have different : ∀ signature ∈ [executeSingleSignature, executeThresholdSignature],
      selectorBytes (Abi.functionSelector other)
        ≠ selectorBytes (Abi.functionSelector signature) := by
    intro signature relayFunction same
    have selectors := congrArg selectorOfBytes same
    rw [selectorOfBytes_selectorBytes, selectorOfBytes_selectorBytes] at selectors
    exact Chain.relaySelectors_ne signature relayFunction other member selectors.symm
  unfold pathOf?
  rw [if_neg (different _ List.mem_cons_self),
    if_neg (different _ (List.mem_cons_of_mem _ List.mem_cons_self))]

theorem AbiValue.hasType_ofSelector (selector : Selector) :
    (AbiValue.ofSelector selector).HasType (.fixedBytes 4) := by
  have bound := selector.isLt
  have aligned : (selector.setWidth 256 <<< 224).toNat = selector.toNat * 2 ^ 224 := by
    rw [BitVec.toNat_shiftLeft, BitVec.toNat_setWidth_of_le (by decide), Nat.shiftLeft_eq]
    exact Nat.mod_eq_of_lt (by omega)
  show (selector.setWidth 256 <<< 224).toNat % Nat.pow 256 (32 - 4) = 0
  rw [aligned]
  exact Nat.mul_mod_left _ _

namespace Chain

variable {contracts : Contracts} {state : State}

def ownedSignatures : List String :=
  [Registration.registerSignature, Registration.unregisterSignature, Dispatch.applyEditsSignature]

theorem ownedSelectors_ne :
    ∀ signature ∈ ownedSignatures,
      Abi.functionSelector signature ≠ Abi.functionSelector Custody.proposeSignature := by
  decide +kernel

theorem execute_owned {signature : String} (owned : signature ∈ ownedSignatures)
    (arguments : List AbiValue) :
    execute contracts state contracts.custody contracts.relay (Abi.encodeCall signature arguments)
      = executeOwned state (Abi.functionSelector signature) (Abi.encode arguments) := by
  have other : signature ∈ otherSignatures :=
    List.mem_append_left [Custody.proposeSignature] owned
  have long : ¬(Abi.encodeCall signature arguments).length < 4 := by
    rw [Abi.length_encodeCall]
    omega
  have notRelayed : RelayCall.decode (Abi.encodeCall signature arguments)
      = .error (.invalidAbi .notRelayCall) := by
    unfold RelayCall.decode
    rw [if_neg long, Abi.take_encodeCall, RelayCall.pathOf?_other other]
  rw [execute_eq, splitSelector_encodeCall, reverting_ok, ok_bind]
  dsimp only
  rw [if_neg (fun both => ownedSelectors_ne signature owned both.2), if_neg (not_not_intro rfl),
    notRelayed]
  exact if_neg (not_not_intro rfl)

/-- The state with another registry. -/
def State.withRegistered (state : State) (table : Table 256 String) : State :=
  { state with registered := table }

theorem execute_registerCalldata {operation : OperationType}
    (small : (Registration.registerCalldata operation).length < Text.wordLimit) :
    execute contracts state contracts.custody contracts.relay
        (Registration.registerCalldata operation)
      = if state.registered.contains operation.typeHash then
          .error (.reverted .alreadyRegistered)
        else .ok (state.withRegistered
          (state.registered.insert operation.typeHash operation.typeString)) := by
  have valid : ∀ type ∈ [.string, .string, .address, .fixedBytes 4], AbiType.Valid type := by
    simp [AbiType.Valid]
  have typed : List.Forall₂ AbiValue.HasType
      [.string operation.key, .string operation.typeString, .address operation.target,
        .ofSelector operation.selector] [.string, .string, .address, .fixedBytes 4] :=
    .cons trivial (.cons trivial (.cons trivial
      (.cons (AbiValue.hasType_ofSelector operation.selector) .nil)))
  rw [Registration.registerCalldata, Abi.length_encodeCall] at small
  have read := Abi.decode_encode_of_valid valid typed (by omega)
  rw [Registration.registerCalldata, execute_owned List.mem_cons_self, executeOwned, if_pos rfl,
    executeRegister, read]
  exact apply_ite reverting _ _ _

theorem execute_unregisterCalldata (typeHash : Hash) :
    execute contracts state contracts.custody contracts.relay
        (Registration.unregisterCalldata typeHash)
      = if state.registered.contains typeHash then
          .ok (state.withRegistered (state.registered.erase typeHash))
        else .error (.reverted .notRegistered) := by
  have one : (Abi.encode [.fixedBytes typeHash]).length = 32 := by
    simp [Abi.encode, Abi.encodeParts, Abi.assemble, Abi.heads, Abi.tails, AbiValue.isDynamic,
      Abi.encodeValue]
  have whole : AbiValue.HasType (.fixedBytes typeHash) (.fixedBytes 32) := Nat.mod_one _
  have read : Abi.decode [.fixedBytes 32] (Abi.encode [.fixedBytes typeHash])
      = .ok [.fixedBytes typeHash] :=
    Abi.decode_encode_of_valid (by simp [AbiType.Valid]) (.cons whole .nil) (by rw [one]; decide)
  have notRegister : Abi.functionSelector Registration.unregisterSignature
      ≠ Abi.functionSelector Registration.registerSignature := by decide +kernel
  rw [Registration.unregisterCalldata, execute_owned (by simp [ownedSignatures]), executeOwned,
    if_neg notRegister, if_pos rfl, executeUnregister, read]
  exact apply_ite reverting _ _ _

end Chain

end GaslessRelay

import GaslessRelay.Proofs.BuiltinOperations
import GaslessRelay.Proofs.LedgerReads
import GaslessRelay.Proofs.RelayContract
import GaslessRelay.Proofs.SignatureSets

/-!
Relays that nothing stands in the way of: the operation is registered, its payload fits, those who
must sign for the sender do, and no module fails. Main statement: such a relay goes through with a
single transaction (`valid_relay_goes_through`).
-/

namespace GaslessRelay

open Chain
open Outcome

namespace RelayCall

/-- The most bytes that a relay call takes up besides its data. -/
def overhead (signers : Nat) : Nat := 291 + 160 * signers

theorem padding_le (length : Nat) : Abi.padding length ≤ 31 := by
  unfold Abi.padding
  omega

theorem length_encodeCall_le {encoded : EncodedRequest} {signatures : AbiValue} (signature : String)
    (dynamic : signatures.isDynamic = true) :
    (Abi.encodeCall signature [encoded.toAbi, signatures]).length
      ≤ 259 + encoded.data.length + (Abi.encodeValue signatures).length := by
  have padded := padding_le encoded.data.length
  rw [Abi.length_encodeCall, encoded.encode_arguments dynamic, encoded.encodeValue_toAbi]
  simp only [List.length_append, Abi.length_numberWord, length_wordBytes, Abi.length_lengthAndBytes]
  omega

theorem length_signature {content : Bytes} (whole : content.length = Account.signatureLength) :
    (Abi.encodeValue (.bytes content)).length = 128 := by
  rw [Abi.encodeValue, Abi.length_lengthAndBytes, whole]
  rfl

theorem length_signatures {contents : List Bytes}
    (whole : ∀ content ∈ contents, content.length = Account.signatureLength) :
    (Abi.encodeValue (.array (contents.map .bytes))).length = 32 + 160 * contents.length := by
  have parts : Abi.headLength (Abi.encodeParts (contents.map .bytes)) = 32 * contents.length ∧
      (Abi.tails (Abi.encodeParts (contents.map .bytes))).length = 128 * contents.length := by
    induction contents with
    | nil => exact ⟨rfl, rfl⟩
    | cons content rest ih =>
      obtain ⟨heads, tails⟩ := ih fun other member => whole other (List.mem_cons_of_mem _ member)
      have one := length_signature (whole content List.mem_cons_self)
      simp only [List.map_cons, Abi.encodeParts, Abi.headLength_cons, Abi.tails,
        AbiValue.isDynamic, if_true, List.length_append, List.length_cons, heads, tails, one]
      omega
  rw [Abi.encodeValue, List.length_append, Abi.length_numberWord, Abi.length_assemble_encodeParts,
    parts.1, parts.2]
  omega

end RelayCall

namespace Chain

variable {contracts : Contracts} {state : State} {sender : Address}

/-- Those who sign for a sender: the sender alone, or enough different owners of the policy that is
read for the sender. -/
inductive SignFor (contracts : Contracts) (state : State) (sender : Address) :
    AccountPolicy → List Signer → Prop where
  | single (signer : Signer) (own : signer.address = sender) :
      SignFor contracts state sender .singleKey [signer]
  | threshold {owners : List Address} {required : UInt64} {signers : List Signer} {after : State}
      (read : (Custody.fetchPolicy sender).Yields (ledger contracts) state
        (.ok (.threshold owners required)) after)
      (distinct : (signers.map (·.address)).Nodup)
      (members : ∀ signer ∈ signers, signer.address ∈ owners)
      (nonzero : ∀ signer ∈ signers, signer.address ≠ 0)
      (enough : max 1 required.toNat ≤ signers.length) :
      SignFor contracts state sender (.threshold owners required) signers

theorem SignFor.not_isEmpty {policy : AccountPolicy} {signers : List Signer}
    (sign : SignFor contracts state sender policy signers) : signers.isEmpty = false := by
  cases sign with
  | single signer own => rfl
  | threshold read distinct members nonzero enough =>
    cases signers with
    | nil =>
      rw [List.length_nil] at enough
      omega
    | cons signer rest => rfl

end Chain

def EncodedRequest.wire (encoded : EncodedRequest) : WireRequest where
  typeHash := encoded.typeHash
  sender := encoded.sender
  nonce := BitVec.ofNat 256 encoded.nonce.toNat
  data := encoded.data

/-- A signed request whose relay call the chain reads and whose signatures it accepts. -/
def Accepted (state : State) (encoded : EncodedRequest) (digest : Hash) (policy : AccountPolicy)
    (set : SignatureSet) : Prop :=
  ∃ signature arguments call,
    encoded.relayCalldata policy set = .ok (Abi.encodeCall signature arguments) ∧
    signature ∈ [executeSingleSignature, executeThresholdSignature] ∧
    RelayCall.decode (Abi.encodeCall signature arguments) = .ok call ∧
    call.request = encoded.wire ∧ checkSignatures state call digest = .ok ()

theorem accepted_single {state : State} {encoded : EncodedRequest} {digest : Hash}
    {entry : SignatureEntry} (own : entry.signer = encoded.sender)
    (recovered : Account.recoverSigner digest entry.signature = .ok entry.signer)
    (fits : encoded.data.length + RelayCall.overhead 1 < Text.wordLimit) :
    Accepted state encoded digest .singleKey ⟨[entry]⟩ := by
  have whole := Account.length_of_recoverSigner recovered
  have bound := @RelayCall.length_encodeCall_le encoded (.bytes entry.signature)
    executeSingleSignature rfl
  rw [RelayCall.length_signature whole] at bound
  unfold RelayCall.overhead at fits
  have small : (Abi.encodeCall executeSingleSignature
      [encoded.toAbi, .bytes entry.signature]).length < Text.wordLimit := by omega
  refine ⟨_, _, _, rfl, List.mem_cons_self, RelayCall.decode_single small, rfl, ?_⟩
  unfold checkSignatures
  rw [if_neg Bool.false_ne_true]
  dsimp only
  rw [recovered]
  exact if_pos own

theorem accepted_threshold {state : State} {encoded : EncodedRequest} {digest : Hash}
    {owners : List Address} {required : UInt64} {set : SignatureSet} {owned : OwnerSet}
    (ownerSet : state.ownerSets.get? encoded.sender = some owned)
    (sameThreshold : required = owned.threshold) (known : ∀ owner ∈ owners, owner ∈ owned.owners)
    (ascending : SignatureSet.Ascending set.entries)
    (recovers : ∀ entry ∈ set.entries,
      Account.recoverSigner digest entry.signature = .ok entry.signer)
    (members : ∀ entry ∈ set.entries, entry.signer ∈ owners)
    (above : ∀ entry ∈ set.entries, 0 < entry.signer)
    (enough : max 1 required.toNat ≤ set.entries.length)
    (fits : encoded.data.length + RelayCall.overhead set.entries.length < Text.wordLimit) :
    Accepted state encoded digest (.threshold owners required) set := by
  have selected := AccountPolicy.selectPath_threshold ascending members enough
  have whole : ∀ content ∈ set.signatures, content.length = Account.signatureLength := by
    intro content member
    obtain ⟨entry, listed, rfl⟩ := List.mem_map.1 member
    exact Account.length_of_recoverSigner (recovers entry listed)
  have count : set.signatures.length = set.entries.length := List.length_map _
  have bound := @RelayCall.length_encodeCall_le encoded (.array (set.signatures.map .bytes))
    executeThresholdSignature rfl
  rw [RelayCall.length_signatures whole, count] at bound
  unfold RelayCall.overhead at fits
  have small : (Abi.encodeCall executeThresholdSignature
      [encoded.toAbi, .array (set.signatures.map .bytes)]).length < Text.wordLimit := by omega
  have spelled : encoded.relayCalldata (.threshold owners required) set
      = .ok (Abi.encodeCall executeThresholdSignature
          [encoded.toAbi, .array (set.signatures.map .bytes)]) := by
    unfold EncodedRequest.relayCalldata
    rw [selected]
  refine ⟨_, _, _, spelled, by simp, RelayCall.decode_threshold small, rfl, ?_⟩
  have checked := checkOwners_of_ascending ascending recovers above
    fun entry member => known _ (members entry member)
  unfold checkSignatures
  rw [if_pos rfl]
  dsimp only
  rw [ownerSet]
  show (checkOwners digest owned.owners 0 set.signatures >>= _) = _
  rw [SignatureSet.signatures, checked]
  exact if_neg (by rw [List.length_map, ← sameThreshold]; omega)

/-- Whoever signs for the sender makes signatures that the policy admits and that the chain
accepts. -/
theorem accepted_of_signFor {contracts : Contracts} {state : State} {encoded : EncodedRequest}
    {domain : Domain} {policy : AccountPolicy} {signers : List Signer}
    (sign : SignFor contracts state encoded.sender policy signers)
    (recover : ∀ signer ∈ signers, signer.Recovers (encoded.digest domain))
    (fits : encoded.data.length + RelayCall.overhead signers.length < Text.wordLimit) :
    ∃ set, Account.signRequest encoded domain signers = .ok set ∧
      Accepted state encoded (encoded.digest domain) policy set := by
  have some := sign.not_isEmpty
  cases sign with
  | single signer own =>
    obtain ⟨set, signed, -, count, each⟩ :=
      Account.signRequest_eq_ok some (List.nodup_singleton _) recover
    obtain ⟨entry, only⟩ := List.length_eq_one_iff.1 count
    obtain ⟨entries⟩ := set
    cases only
    obtain ⟨recovered, other, listed, same⟩ := each entry List.mem_cons_self
    rw [List.mem_singleton.1 listed] at same
    exact ⟨_, signed, accepted_single (same.symm.trans own) recovered fits⟩
  | threshold read distinct members nonzero enough =>
    obtain ⟨owned, ownerSet, sameThreshold, known⟩ := Custody.ownerSet_of_fetchPolicy read
    obtain ⟨set, signed, ascending, count, each⟩ :=
      Account.signRequest_eq_ok some distinct recover
    refine ⟨set, signed, accepted_threshold ownerSet sameThreshold known ascending
      (fun entry member => (each entry member).1) ?_ ?_ (by omega) (by rwa [count])⟩
    · intro entry member
      obtain ⟨-, signer, listed, same⟩ := each entry member
      exact same ▸ members signer listed
    · intro entry member
      obtain ⟨-, signer, listed, same⟩ := each entry member
      exact same ▸ (BitVec.pos_iff_ne_zero _).2 (nonzero signer listed)

theorem execute_of_accepted {contracts : Contracts} {state : State} {operation : OperationType}
    {request : Request} {encoded : EncodedRequest} {policy : AccountPolicy} {set : SignatureSet}
    (declared : operation.Declared) (encodes : request.encode operation = .ok encoded)
    (small : encoded.data.length < Text.wordLimit)
    (found : contracts.catalog.byTypeHash? encoded.typeHash = some operation)
    (registered : state.registered.contains encoded.typeHash = true)
    (live : encoded.nonce = state.nonce encoded.sender) (working : state.moduleRevert = none)
    (accepted : Accepted state encoded (encoded.digest contracts.domain) policy set) :
    ∃ data, encoded.relayCalldata policy set = .ok data ∧
      execute contracts state relayerAccount contracts.relay data
        = .ok (state.relayed operation.key encoded.sender) := by
  obtain ⟨signature, arguments, call, spelled, -, decoded, wire, signed⟩ := accepted
  refine ⟨_, spelled, ?_⟩
  have rebuilt : encoded.wire.structHash operation = .ok encoded.structHash :=
    RelayCall.structHash_of_encode declared encodes small
  have number : encoded.wire.nonce.toNat = (state.nonce encoded.sender).toNat := by
    rw [← live]
    exact Abi.toNat_uint64Word encoded.nonce
  have checked : relayedOperation contracts state call = .ok operation := by
    unfold relayedOperation
    rw [wire]
    refine (if_pos registered).trans ?_
    rw [show contracts.catalog.byTypeHash? encoded.wire.typeHash = some operation from found]
    dsimp only
    rw [rebuilt]
    refine (if_pos number).trans ?_
    rw [show checkSignatures state call
      (TypedData.signingDigest contracts.domain.separator encoded.structHash) = .ok () from signed,
      working]
    rfl
  rw [execute_relay decoded, executeRelay_eq, checked, map_ok, wire]
  rfl

theorem Request.encode_of_bodyValues {request : Request} {operation : OperationType}
    {body : List AbiValue} (own : operation.key = request.operationKey)
    (fits : request.bodyValues operation = .ok body) :
    request.encode operation = .ok (operation.encoded request.sender request.sequence body) := by
  unfold encode
  rw [if_pos own, fits]
  rfl

namespace RelayContext

variable {contracts : Contracts} {state : State} {context : RelayContext}

/-- The context is one of the built-in operations on these contracts. -/
structure Deployed (context : RelayContext) (contracts : Contracts) : Prop where
  atRelay : context.config.relayAddress = contracts.relay
  sameDomain : context.domain = contracts.domain
  sameCatalog : context.catalog = contracts.catalog
  builtin : ∃ modules, Catalog.builtin modules = .ok context.catalog

theorem deployed_of_ofConfig {config : Config} {chainId : UInt64}
    (deployed : Contracts.ofConfig config chainId = .ok contracts)
    (built : ofConfig config chainId = .ok context) :
    context.config = config ∧ context.domain = config.domain chainId ∧
      context.Deployed contracts := by
  have builtin := catalog_of_ofConfig built
  obtain ⟨catalog, known, same⟩ := bind_eq_ok.1 deployed
  rw [builtin, Except.ok.injEq] at known
  subst known
  cases same
  unfold ofConfig at built
  rw [builtin, Except.ok.injEq] at built
  rw [← built] at builtin ⊢
  exact ⟨rfl, rfl, rfl, rfl, rfl, _, builtin⟩

theorem yields_assemble {operation : OperationType} {sender : Address}
    {payload : List (String × Json)} {body : List AbiValue} (unlocked : state.poisoned = false)
    (atRelay : context.config.relayAddress = contracts.relay) (current : state.staleReads = 0)
    (known : context.operation operation.key = .ok operation)
    (fits : Request.bodyValues ⟨operation.key, sender, state.nonce sender, payload⟩ operation
      = .ok body) :
    (context.assemble operation.key sender payload).Yields (ledger contracts) state
      (.ok ⟨operation.key, sender, state.nonce sender, payload⟩) state := by
  have draft : Request.bodyValues ⟨operation.key, sender, 0, payload⟩ operation = .ok body := fits
  unfold assemble
  rw [known]
  refine (ClientM.yields_known _).bind ?_
  dsimp only
  rw [draft]
  refine (ClientM.yields_known _).bind ?_
  exact (yields_sequenceNumber unlocked atRelay current sender).bind (ClientM.yields_pure _)

theorem yields_submit {request : Request} {encoded : EncodedRequest} {policy : AccountPolicy}
    {set : SignatureSet} {data : Bytes} {after : State}
    (encodes : context.encode request = .ok encoded)
    (spelled : encoded.relayCalldata policy set = .ok data)
    (room : state.HasRoom context.config.effectiveConfirmations)
    (executed : execute contracts state relayerAccount context.config.relayAddress data
      = .ok after) :
    ∃ receipt height, receipt.success = true ∧
      (context.submit request policy set).Yields (ledger contracts) state (.ok receipt)
        (settled contracts state context.config.relayAddress data height) := by
  obtain ⟨height, dispatched⟩ :=
    @yields_dispatch contracts state context request policy set encoded data encodes spelled room
  have success :
      (clientReceipt contracts state context.config.relayAddress data).success = true := by
    unfold clientReceipt storedReceipt
    rw [executed]
    rfl
  refine ⟨_, height, success, dispatched.bind ?_⟩
  unfold RelayOutcome.ofReceipt Receipt.result
  rw [if_pos success]
  exact ClientM.yields_pure _

theorem yields_relay {operation : OperationType} {sender : Address}
    {payload : List (String × Json)} {body : List AbiValue} {policy : AccountPolicy}
    {signers : List Signer} {set : SignatureSet} {data : Bytes} {after : State}
    (atRelay : context.config.relayAddress = contracts.relay) (current : state.staleReads = 0)
    (known : context.operation operation.key = .ok operation)
    (fits : Request.bodyValues ⟨operation.key, sender, state.nonce sender, payload⟩ operation
      = .ok body)
    (some : signers.isEmpty = false)
    (signed : Account.signRequest (operation.encoded sender (state.nonce sender) body)
      context.domain signers = .ok set)
    (spelled : (operation.encoded sender (state.nonce sender) body).relayCalldata policy set
      = .ok data)
    (room : state.HasRoom context.config.effectiveConfirmations)
    (executed : execute contracts state relayerAccount context.config.relayAddress data
      = .ok after) :
    ∃ receipt height, receipt.success = true ∧
      (context.relay operation.key sender payload policy signers).Yields (ledger contracts) state
        (.ok receipt) (settled contracts state context.config.relayAddress data height) := by
  have encodes : context.encode ⟨operation.key, sender, state.nonce sender, payload⟩
      = .ok (operation.encoded sender (state.nonce sender) body) := by
    unfold encode
    rw [known]
    dsimp only [ok_bind]
    rw [Request.encode_of_bodyValues rfl fits]
    rfl
  obtain ⟨receipt, height, success, submitted⟩ := yields_submit encodes spelled room executed
  refine ⟨receipt, height, success, ?_⟩
  have once : (context.signAndSubmit operation.key sender payload policy signers).Yields
      (ledger contracts) state (.ok receipt)
      (settled contracts state context.config.relayAddress data height) := by
    refine (yields_assemble room.unlocked atRelay current known fits).bind ?_
    rw [encodes]
    refine (ClientM.yields_known _).bind ?_
    rw [signed]
    exact (ClientM.yields_known _).bind submitted
  unfold relay
  rw [if_neg (by rw [some]; exact Bool.false_ne_true)]
  exact once.attempt.bind (ClientM.yields_pure receipt)

end RelayContext

namespace Chain

/-- A relay of a registered built-in operation goes through in one transaction, if its payload fits,
those who must sign do, no module fails, and the sequence number, the heights of blocks and the
length of the calldata stay below the limit of machine words. The counter of the sender and the log
move by one step, and nothing else of the accounts and contracts moves. -/
theorem valid_relay_goes_through {config : Config} {chainId : UInt64} {contracts : Contracts}
    {context : RelayContext} (deployed : Contracts.ofConfig config chainId = .ok contracts)
    (built : RelayContext.ofConfig config chainId = .ok context) {state : State}
    (working : state.moduleRevert = none) (current : state.staleReads = 0)
    (room : state.HasRoom config.effectiveConfirmations) {operation : OperationType}
    (catalogued : operation ∈ context.catalog.entries)
    (registered : state.registered.contains operation.typeHash = true) {sender : Address}
    (few : (state.nonce sender).toNat + 1 < UInt64.size) {payload : List (String × Json)}
    {body : List AbiValue}
    (fits : Request.bodyValues ⟨operation.key, sender, state.nonce sender, payload⟩ operation
      = .ok body)
    {policy : AccountPolicy} {signers : List Signer}
    (sign : SignFor contracts state sender policy signers)
    (recover : ∀ signer ∈ signers,
      signer.Recovers ((operation.encoded sender (state.nonce sender) body).digest context.domain))
    (small : (Abi.encode body).length + RelayCall.overhead signers.length < Text.wordLimit) :
    ∃ receipt after,
      (context.relay operation.key sender payload policy signers).Yields (ledger contracts) state
        (.ok receipt) after ∧
      receipt.success = true ∧
      after.transactions = state.transactions + 1 ∧
      after.executed = state.executed ++ [(operation.key, sender)] ∧
      (after.nonce sender).toNat = (state.nonce sender).toNat + 1 ∧
      (∀ other, other ≠ sender → after.nonce other = state.nonce other) ∧
      after.registered = state.registered ∧ after.dispatch = state.dispatch ∧
      after.ownerSets = state.ownerSets := by
  obtain ⟨sameConfig, -, atRelay, sameDomain, sameCatalog, modules, builtin⟩ :=
    RelayContext.deployed_of_ofConfig deployed built
  have first := Catalog.get?_eq_some_of_mem (Catalog.builtin_keys_nodup builtin) catalogued
  have known : context.operation operation.key = .ok operation := by
    unfold RelayContext.operation
    rw [first]
  have declared := Catalog.declared_of_builtin builtin catalogued
  have found := Catalog.byTypeHash?_of_mem builtin catalogued
  have encodes := Request.encode_of_bodyValues rfl fits
  have smallData : (Abi.encode body).length < Text.wordLimit :=
    Nat.lt_of_le_of_lt (Nat.le_add_right _ _) small
  -- The client signs under its own domain and looks the operation up in its own catalog; the chain
  -- uses those of the contracts.
  rw [sameCatalog] at found
  obtain ⟨set, signed, accepted⟩ := @accepted_of_signFor contracts state
    (operation.encoded sender (state.nonce sender) body) context.domain policy signers sign recover
    small
  rw [sameDomain] at accepted
  obtain ⟨data, spelled, executed⟩ :=
    execute_of_accepted declared encodes smallData found registered rfl working accepted
  rw [← atRelay] at executed
  rw [← sameConfig] at room
  obtain ⟨receipt, height, success, relayed⟩ := RelayContext.yields_relay atRelay current known fits
    sign.not_isEmpty signed spelled room executed
  have nonceOf := @State.toNat_nonce_relayed state operation.key sender few
  have moved : effect contracts state context.config.relayAddress data
      = state.relayed operation.key sender := by
    unfold effect
    rw [executed]
    rfl
  -- Besides this step, a transaction moves only records that the conclusion leaves open.
  unfold settled at relayed
  rw [moved] at relayed
  refine ⟨receipt, _, relayed, success, rfl, rfl, ?_, ?_, rfl, rfl, rfl⟩
  · exact (nonceOf sender).trans (by rw [if_pos rfl])
  · intro other different
    exact UInt64.toNat_inj.1 ((nonceOf other).trans (by rw [if_neg (Ne.symm different)]; rfl))

/-- One of two owners of an account signs, which is enough. -/
theorem valid_relay_goes_through_owner :
    let config : Config := { relayAddress := 1, custodyAddress := 2, multiSendAddress := 3 }
    let burn : OperationType :=
      ⟨"BurnToken", [.sender, .nonce, ⟨"tokenId", .uint 256⟩], 0,
        Abi.functionSelector "burnToken(uint256)"⟩
    let signer : Signer := ⟨⟨3, by decide⟩, 0x6813eb9362372eef6200f3b1dbc3f819671cba69⟩
    let owners : List Address := [signer.address, 9]
    let state : State :=
      { registered := ({} : Table 256 String).insert burn.typeHash burn.typeString
        ownerSets := ({} : Table 160 OwnerSet).insert 7 ⟨owners, 1⟩ }
    ∃ contracts context receipt after, Contracts.ofConfig config 1 = .ok contracts ∧
      RelayContext.ofConfig config 1 = .ok context ∧
      (context.relay "BurnToken" 7 [("tokenId", .integer 5)] (.threshold owners 1)
        [signer]).Yields (ledger contracts) state (.ok receipt) after ∧
      after.executed = [("BurnToken", 7)] ∧ (after.nonce 7).toNat = 1 := by
  intro config burn signer owners state
  have evaluated : (do
      let _ ← (Contracts.ofConfig config 1).toOption
      let context ← (RelayContext.ofConfig config 1).toOption
      return decide (burn ∈ context.catalog.entries)) = some true := by
    decide +kernel
  cases deployed : Contracts.ofConfig config 1 with
  | error error =>
    rw [deployed] at evaluated
    cases evaluated
  | ok contracts =>
    cases built : RelayContext.ofConfig config 1 with
    | error error =>
      rw [deployed, built] at evaluated
      cases evaluated
    | ok context =>
      rw [deployed, built] at evaluated
      have catalogued := of_decide_eq_true (Option.some.inj evaluated)
      obtain ⟨-, sameDomain, -⟩ := RelayContext.deployed_of_ofConfig deployed built
      have owned : state.ownerSets.get? 7 = some ⟨owners, 1⟩ := rfl
      have decoded : Abi.decodeAddresses (Custody.ownersAnswer ⟨owners, 1⟩) = .ok owners := by
        decide +kernel
      have sign : SignFor contracts state 7 (.threshold owners 1) [signer] :=
        .threshold (Custody.yields_fetchPolicy rfl owned decoded) (by decide) (by decide) (by decide)
          (by decide)
      have recover : ∀ other ∈ [signer], Signer.Recovers other
          ((burn.encoded 7 (state.nonce 7) [.uint 5]).digest context.domain) := by
        rw [sameDomain]
        decide +kernel
      have shallow : state.HasRoom config.effectiveConfirmations :=
        ⟨rfl, fun deep => absurd deep (by decide)⟩
      have registered : state.registered.contains burn.typeHash = true := by
        decide +kernel
      have fits : Request.bodyValues ⟨"BurnToken", 7, state.nonce 7, [("tokenId", .integer 5)]⟩ burn
          = .ok [.uint 5] := rfl
      obtain ⟨receipt, after, relayed, -, -, executed, counted, -⟩ :=
        valid_relay_goes_through deployed built rfl rfl shallow catalogued registered (by decide)
          fits sign recover (by decide +kernel)
      exact ⟨contracts, context, receipt, after, rfl, rfl, relayed, executed, counted⟩

end Chain

end GaslessRelay

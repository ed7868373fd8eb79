import GaslessRelay.Client.Relay
import GaslessRelay.Proofs.RequestEncoding

/-!
Calldata of relay calls. The layout of its arguments is written out once; the request that a
verifier reads from fixed places of them is the one that was encoded, and the digest that it
rebuilds from the data is the one that was signed.
-/

namespace GaslessRelay

open Bytes (StandsAt)

namespace EncodedRequest

/-- The bytes of the request's tuple: three words, the offset of the data, and the data. -/
theorem encodeValue_toAbi (encoded : EncodedRequest) :
    Abi.encodeValue encoded.toAbi
      = wordBytes encoded.typeHash ++ (wordBytes (encoded.sender.setWidth 256) ++
        (wordBytes (BitVec.ofNat 256 encoded.nonce.toNat) ++
          (Abi.numberWord 128 ++ Abi.lengthAndBytes encoded.data))) := by
  simp [toAbi, AbiValue.ofNat, Abi.encodeValue, Abi.encodeParts, Abi.assemble, Abi.heads, Abi.tails,
    Abi.headLength, AbiValue.isDynamic, AbiValue.headSize]

theorem isDynamic_toAbi (encoded : EncodedRequest) : encoded.toAbi.isDynamic = true := by
  simp [toAbi, AbiValue.ofNat, AbiValue.isDynamic, AbiValue.anyDynamic]

/-- The arguments of a relay call: two offsets, the request, and the signatures. -/
theorem encode_arguments (encoded : EncodedRequest) {signatures : AbiValue}
    (dynamic : signatures.isDynamic = true) :
    Abi.encode [encoded.toAbi, signatures]
      = Abi.numberWord 64 ++ (Abi.numberWord (64 + (Abi.encodeValue encoded.toAbi).length) ++
        (Abi.encodeValue encoded.toAbi ++ Abi.encodeValue signatures)) := by
  simp [Abi.encode, Abi.encodeParts, Abi.assemble, Abi.heads, Abi.tails, Abi.headLength,
    isDynamic_toAbi, dynamic]

theorem request_standsAt (encoded : EncodedRequest) {signatures : AbiValue}
    (dynamic : signatures.isDynamic = true) :
    StandsAt (Abi.encodeValue encoded.toAbi) (Abi.encode [encoded.toAbi, signatures]) 64 := by
  have whole := Bytes.standsAt_self (Abi.encode [encoded.toAbi, signatures])
  nth_rewrite 1 [encoded.encode_arguments dynamic] at whole
  have stands := whole.right.right.left
  simpa using stands

theorem signatures_standsAt (encoded : EncodedRequest) {signatures : AbiValue}
    (dynamic : signatures.isDynamic = true) :
    StandsAt (Abi.encodeValue signatures) (Abi.encode [encoded.toAbi, signatures])
      (64 + (Abi.encodeValue encoded.toAbi).length) := by
  have whole := Bytes.standsAt_self (Abi.encode [encoded.toAbi, signatures])
  nth_rewrite 1 [encoded.encode_arguments dynamic] at whole
  have stands := whole.right.right.right
  simpa using stands

theorem data_standsAt (encoded : EncodedRequest) {signatures : AbiValue}
    (dynamic : signatures.isDynamic = true) :
    StandsAt (Abi.lengthAndBytes encoded.data) (Abi.encode [encoded.toAbi, signatures]) 192 := by
  have tuple := encoded.request_standsAt dynamic
  rw [encoded.encodeValue_toAbi] at tuple
  simpa using tuple.right.right.right.right

end EncodedRequest

namespace RelayCall

variable {encoded : EncodedRequest} {signatures : AbiValue}

theorem placeFrom_eq_ok {base relative : Nat} (fits : base + relative < Text.wordLimit) :
    placeFrom base relative = .ok (base + relative) := by
  unfold placeFrom
  rw [if_pos fits]

/-- The request is read field by field from its own places; only the data can be out of reach. -/
theorem readRequest_encode (dynamic : signatures.isDynamic = true) :
    readRequest (Abi.encode [encoded.toAbi, signatures])
      = (fun data => ({
          typeHash := encoded.typeHash
          sender := encoded.sender
          nonce := BitVec.ofNat 256 encoded.nonce.toNat
          data } : WireRequest))
        <$> Abi.bytesAt (Abi.encode [encoded.toAbi, signatures]) 192 := by
  have whole := Bytes.standsAt_self (Abi.encode [encoded.toAbi, signatures])
  nth_rewrite 1 [encoded.encode_arguments dynamic] at whole
  have tuple := encoded.request_standsAt dynamic
  rw [encoded.encodeValue_toAbi] at tuple
  generalize Abi.encode [encoded.toAbi, signatures] = arguments at whole tuple
  have base : Abi.offsetAt arguments 0 = .ok 64 := Abi.offsetAt_eq_ok whole.left (by decide)
  have typeHash : Abi.wordAt arguments 64 = .ok encoded.typeHash := Abi.wordAt_eq_ok tuple.left
  have sender : Abi.addressAt arguments 96 = .ok encoded.sender :=
    Abi.addressAt_eq_ok (by simpa using tuple.right.left)
  have nonce : Abi.wordAt arguments 128 = .ok (BitVec.ofNat 256 encoded.nonce.toNat) :=
    Abi.wordAt_eq_ok (by simpa using tuple.right.right.left)
  have dataOffset : Abi.offsetAt arguments 160 = .ok 128 :=
    Abi.offsetAt_eq_ok (by simpa using tuple.right.right.right.left) (by decide)
  have place : ∀ relative, relative < 192 → placeFrom 64 relative = .ok (64 + relative) :=
    fun relative near => placeFrom_eq_ok (Nat.lt_trans (Nat.add_lt_add_left near 64) (by decide))
  unfold readRequest wordFrom
  simp only [base, typeHash, sender, nonce, dataOffset, place 0 (by decide), place 32 (by decide),
    place 64 (by decide), place 96 (by decide), place 128 (by decide), Outcome.ok_bind,
    Nat.reduceAdd]
  cases Abi.bytesAt arguments 192 <;> rfl

/-- Whatever relay call is read from the calldata of a request is for its operation type and its
sender, even where the sizes do not fit and reading fails. -/
theorem readRequest_header (dynamic : signatures.isDynamic = true) {request : WireRequest}
    (read : readRequest (Abi.encode [encoded.toAbi, signatures]) = .ok request) :
    request.typeHash = encoded.typeHash ∧ request.sender = encoded.sender := by
  rw [readRequest_encode dynamic] at read
  obtain ⟨data, -, rfl⟩ := Outcome.map_eq_ok.1 read
  exact ⟨rfl, rfl⟩

theorem readRequest_eq_ok (dynamic : signatures.isDynamic = true)
    (small : (Abi.encode [encoded.toAbi, signatures]).length < Text.wordLimit) :
    readRequest (Abi.encode [encoded.toAbi, signatures]) = .ok {
      typeHash := encoded.typeHash
      sender := encoded.sender
      nonce := BitVec.ofNat 256 encoded.nonce.toNat
      data := encoded.data } := by
  have stands := encoded.data_standsAt dynamic
  have bound := stands.length_le
  rw [Abi.length_lengthAndBytes] at bound
  rw [readRequest_encode dynamic, Abi.bytesAt_eq_ok stands (by omega), Outcome.map_ok]

theorem byteStrings_map (contents : List Bytes) : byteStrings (contents.map .bytes) = contents := by
  induction contents with
  | nil => rfl
  | cons content rest ih => rw [List.map_cons, byteStrings, ih]

/-- The offset of the signatures, which stand behind the request. -/
theorem signaturesOffset_eq_ok (dynamic : signatures.isDynamic = true)
    (small : (Abi.encode [encoded.toAbi, signatures]).length < Text.wordLimit) :
    Abi.offsetAt (Abi.encode [encoded.toAbi, signatures]) 32
      = .ok (64 + (Abi.encodeValue encoded.toAbi).length) := by
  have bound := (encoded.request_standsAt dynamic).length_le
  have whole := Bytes.standsAt_self (Abi.encode [encoded.toAbi, signatures])
  nth_rewrite 1 [encoded.encode_arguments dynamic] at whole
  exact Abi.offsetAt_eq_ok (by simpa using whole.right.left) (by omega)

theorem readSignatures_single {signature : Bytes}
    (small : (Abi.encode [encoded.toAbi, .bytes signature]).length < Text.wordLimit) :
    readSignatures (Abi.encode [encoded.toAbi, .bytes signature]) false = .ok [signature] := by
  have dynamic : (AbiValue.bytes signature).isDynamic = true := rfl
  have stands : StandsAt (Abi.lengthAndBytes signature) _ _ := encoded.signatures_standsAt dynamic
  have bound := stands.length_le
  rw [Abi.length_lengthAndBytes] at bound
  unfold readSignatures
  rw [signaturesOffset_eq_ok dynamic small]
  simp only [Outcome.ok_bind, Bool.false_eq_true, if_false, Abi.bytesAt_eq_ok stands (by omega)]
  rfl

theorem readSignatures_several {contents : List Bytes}
    (small : (Abi.encode [encoded.toAbi, .array (contents.map .bytes)]).length < Text.wordLimit) :
    readSignatures (Abi.encode [encoded.toAbi, .array (contents.map .bytes)]) true
      = .ok contents := by
  have dynamic : (AbiValue.array (contents.map .bytes)).isDynamic = true := rfl
  have typed : (AbiValue.array (contents.map .bytes)).HasType (.array .bytes) := by
    refine AbiValue.allHaveType_iff.2 fun item member => ?_
    obtain ⟨content, -, rfl⟩ := List.mem_map.1 member
    trivial
  have valid : (AbiType.array .bytes).Valid := trivial
  unfold readSignatures
  rw [signaturesOffset_eq_ok dynamic small]
  simp only [Outcome.ok_bind, if_true,
    Abi.readsBack small valid _ _ typed (encoded.signatures_standsAt dynamic), byteStrings_map]
  rfl

/-- The two relay functions have different selectors. -/
theorem executeSelectors_ne :
    Abi.functionSelector executeSingleSignature
      ≠ Abi.functionSelector executeThresholdSignature := by
  decide +kernel

theorem pathOf?_single :
    pathOf? (selectorBytes (Abi.functionSelector executeSingleSignature)) = some false := by
  unfold pathOf?
  rw [if_pos rfl]

theorem pathOf?_threshold :
    pathOf? (selectorBytes (Abi.functionSelector executeThresholdSignature)) = some true := by
  have different : selectorBytes (Abi.functionSelector executeThresholdSignature)
      ≠ selectorBytes (Abi.functionSelector executeSingleSignature) := by
    intro same
    have selectors := congrArg selectorOfBytes same
    rw [selectorOfBytes_selectorBytes, selectorOfBytes_selectorBytes] at selectors
    exact executeSelectors_ne selectors.symm
  unfold pathOf?
  rw [if_neg different, if_pos rfl]

/-- A call of a relay function is read from its arguments. -/
theorem decode_encodeCall {signature : String} {arguments : List AbiValue} {thresholdPath : Bool}
    (path : pathOf? (selectorBytes (Abi.functionSelector signature)) = some thresholdPath) :
    decode (Abi.encodeCall signature arguments) = (do
      let request ← readRequest (Abi.encode arguments)
      let signatures ← readSignatures (Abi.encode arguments) thresholdPath
      return { request, signatures, thresholdPath }) := by
  have long : ¬(Abi.encodeCall signature arguments).length < 4 := by
    rw [Abi.length_encodeCall]
    omega
  unfold decode
  rw [if_neg long, Abi.take_encodeCall, path, Abi.drop_encodeCall]

/-- The digest that a verifier rebuilds from the data is the one that was signed. -/
theorem structHash_of_encode {operation : OperationType} (declared : operation.Declared)
    {request : Request} (accepted : request.encode operation = .ok encoded)
    (small : encoded.data.length < Text.wordLimit) :
    WireRequest.structHash {
      typeHash := encoded.typeHash
      sender := encoded.sender
      nonce := BitVec.ofNat 256 encoded.nonce.toNat
      data := encoded.data } operation = .ok encoded.structHash := by
  obtain ⟨body, decodes, digest⟩ := Request.decode_data declared accepted small
  have sameHash : operation.typeHash = encoded.typeHash := by
    obtain ⟨-, values, -, rfl⟩ := Request.encode_eq_ok accepted
    rfl
  unfold WireRequest.structHash
  simp only [if_pos sameHash, Abi.toNat_uint64Word, if_pos encoded.nonce.toNat_lt_size, decodes,
    Outcome.ok_bind, Outcome.pure_eq_ok,
    UInt64.ofNat_toNat, digest]

theorem decode_single {signature : Bytes}
    (small : (Abi.encodeCall executeSingleSignature [encoded.toAbi, .bytes signature]).length
      < Text.wordLimit) :
    decode (Abi.encodeCall executeSingleSignature [encoded.toAbi, .bytes signature]) = .ok {
      request := {
        typeHash := encoded.typeHash
        sender := encoded.sender
        nonce := BitVec.ofNat 256 encoded.nonce.toNat
        data := encoded.data }
      signatures := [signature]
      thresholdPath := false } := by
  rw [Abi.encodeCall, List.length_append] at small
  rw [decode_encodeCall pathOf?_single, readRequest_eq_ok rfl (by omega),
    readSignatures_single (by omega)]
  rfl

theorem decode_threshold {contents : List Bytes}
    (small : (Abi.encodeCall executeThresholdSignature
      [encoded.toAbi, .array (contents.map .bytes)]).length < Text.wordLimit) :
    decode (Abi.encodeCall executeThresholdSignature
        [encoded.toAbi, .array (contents.map .bytes)]) = .ok {
      request := {
        typeHash := encoded.typeHash
        sender := encoded.sender
        nonce := BitVec.ofNat 256 encoded.nonce.toNat
        data := encoded.data }
      signatures := contents
      thresholdPath := true } := by
  rw [Abi.encodeCall, List.length_append] at small
  rw [decode_encodeCall pathOf?_threshold, readRequest_eq_ok rfl (by omega),
    readSignatures_several (by omega)]
  rfl

end RelayCall

/-- A set that goes through the path of a single key has exactly one signature. -/
theorem AccountPolicy.selectPath_single {policy : AccountPolicy} {set : SignatureSet}
    (selected : policy.selectPath set = .ok .singleKey) :
    ∃ signature, set.signatures = [signature] := by
  unfold selectPath at selected
  dsimp only at selected
  split at selected
  · cases selected
  · cases policy with
    | singleKey =>
      dsimp only at selected
      split at selected
      · rename_i one
        obtain ⟨entry, only⟩ := List.length_eq_one_iff.1 one
        refine ⟨entry.signature, ?_⟩
        rw [SignatureSet.signatures, only]
        rfl
      · cases selected
    | threshold owners required =>
      dsimp only at selected
      split at selected
      · cases selected
      · split at selected
        · cases selected
        · split at selected <;> cases selected

/-- Client and verifier agree: for a request that an operation type accepts and signatures that a
policy admits, the verifier reads from the relay call the request, the signatures in the order of
the set and the path, and rebuilds the digest that was signed. -/
theorem verifier_agrees_with_client {operation : OperationType} (declared : operation.Declared)
    {request : Request} {encoded : EncodedRequest}
    (accepted : request.encode operation = .ok encoded) {policy : AccountPolicy}
    {set : SignatureSet} {path : RelayPath} (selected : policy.selectPath set = .ok path) :
    ∃ calldata, encoded.relayCalldata policy set = .ok calldata ∧
      (calldata.length < Text.wordLimit →
        ∃ call, RelayCall.decode calldata = .ok call ∧
          call.request.typeHash = encoded.typeHash ∧ call.request.sender = encoded.sender ∧
          call.request.nonce.toNat = encoded.nonce.toNat ∧ call.request.data = encoded.data ∧
          call.signatures = set.signatures ∧ (call.thresholdPath = true ↔ path = .threshold) ∧
          call.request.structHash operation = .ok encoded.structHash) := by
  have nonce := Abi.toNat_uint64Word encoded.nonce
  have dataSmall : ∀ (signature : String) (signatures : AbiValue), signatures.isDynamic = true →
      (Abi.encodeCall signature [encoded.toAbi, signatures]).length < Text.wordLimit →
      encoded.data.length < Text.wordLimit := by
    intro signature signatures dynamic small
    have stands := (encoded.data_standsAt dynamic).length_le
    rw [Abi.length_lengthAndBytes] at stands
    rw [Abi.encodeCall, List.length_append] at small
    omega
  unfold EncodedRequest.relayCalldata
  rw [selected]
  cases path with
  | singleKey =>
    obtain ⟨signature, only⟩ := AccountPolicy.selectPath_single selected
    simp only [only]
    refine ⟨_, rfl, fun small =>
      ⟨_, RelayCall.decode_single small, rfl, rfl, nonce, rfl, rfl, ?_, ?_⟩⟩
    · simp
    · exact RelayCall.structHash_of_encode declared accepted (dataSmall _ _ rfl small)
  | threshold =>
    refine ⟨_, rfl, fun small =>
      ⟨_, RelayCall.decode_threshold small, rfl, rfl, nonce, rfl, rfl, ?_, ?_⟩⟩
    · simp
    · exact RelayCall.structHash_of_encode declared accepted (dataSmall _ _ rfl small)

/-- A proxied operation with an opaque data field and a nested type, signed by two owners. -/
theorem verifier_agrees_with_client_tagged :
    let operation : OperationType :=
      ⟨"TagProxied", [.sender, .nonce, .data, .destination, ⟨"tags", .array .string⟩], 2, 7⟩
    let body : List AbiValue := [.address 3, .array [.string "x", .string ""]]
    let encoded : EncodedRequest :=
      ⟨operation.typeHash, 9, 4, Abi.encode body, messageHash operation 9 4 (Abi.encode body) body⟩
    let set : SignatureSet := ⟨[⟨5, [1, 2]⟩, ⟨6, [3]⟩]⟩
    let calldata := Abi.encodeCall executeThresholdSignature
      [encoded.toAbi, .array [.bytes [1, 2], .bytes [3]]]
    operation.Declared ∧
    Request.encode ⟨"TagProxied", 9, 4, [("tags", .array [.string "x", .string ""]),
      ("destination", .string "0x0000000000000000000000000000000000000003")]⟩ operation
        = .ok encoded ∧
    AccountPolicy.selectPath (.threshold [5, 6, 7] 2) set = .ok .threshold ∧
    calldata.length < Text.wordLimit ∧
    ∃ call, RelayCall.decode calldata = .ok call ∧ call.signatures = [[1, 2], [3]] ∧
      call.request.structHash operation = .ok encoded.structHash := by
  intro operation body encoded set calldata
  have declared : operation.Declared := by
    refine ⟨"Tag", [⟨"tags", .array .string⟩], 2, 7, ⟨"Tag", _, 2, 7⟩, ?_, rfl, .inr (by rfl)⟩
    intro field member
    rw [List.mem_singleton.1 member]
    exact ⟨"string[]", by rfl⟩
  have accepted : Request.encode ⟨"TagProxied", 9, 4, [("tags", .array [.string "x", .string ""]),
      ("destination", .string "0x0000000000000000000000000000000000000003")]⟩ operation
        = .ok encoded := by
    have destination :
        Abi.coerceAddress (.string "0x0000000000000000000000000000000000000003") = .ok 3 := by
      decide +kernel
    have values : Request.bodyValues ⟨"TagProxied", 9, 4,
        [("tags", .array [.string "x", .string ""]), ("destination", .string "0x0000000000000000000000000000000000000003")]⟩ operation
          = .ok body := by
      simp [Request.bodyValues, Request.firstExtra?, Request.resolve, operation, body,
        OperationType.body, OperationType.headerLength, OperationType.hasOpaqueData, Field.data,
        Field.destination, Json.lookup?, Abi.fromPayload, Abi.forField, Abi.coerce, Abi.coerceItems,
        destination]
    unfold Request.encode
    rw [if_pos rfl, values]
    rfl
  have selected : AccountPolicy.selectPath (.threshold [5, 6, 7] 2) set = .ok .threshold := by
    decide
  have small : calldata.length < Text.wordLimit := by decide +kernel
  obtain ⟨found, built, agrees⟩ := verifier_agrees_with_client declared accepted selected
  have same : found = calldata := by
    unfold EncodedRequest.relayCalldata at built
    rw [selected] at built
    exact (Except.ok.inj built).symm
  subst same
  obtain ⟨call, decodes, -, -, -, -, signatures, -, digest⟩ := agrees small
  exact ⟨declared, accepted, selected, small, call, decodes, signatures, digest⟩

end GaslessRelay

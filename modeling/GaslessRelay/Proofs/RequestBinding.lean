import GaslessRelay.Proofs.DigestBinding
import GaslessRelay.Proofs.FieldLists
import GaslessRelay.Proofs.RequestEncoding
import GaslessRelay.Request.RelayCall

/-!
What a signature binds of a request. Main statements: the digest that is signed binds the domain,
the sender, the sequence number and every value of the payload (`digest_binds_request`); the digest
that a verifier rebuilds binds the data byte for byte where the message has the opaque data field,
and up to the end of the last field where it has none (`rebuilt_digest_binds_request`).
-/

namespace GaslessRelay

open Digest (Collide)
open Outcome (bind_eq_ok map_eq_ok)

namespace Abi

variable {data : Bytes}

theorem forall_of_readItems {type : AbiType} {read : Nat → Except CodecError AbiValue}
    {property : AbiValue → Prop} (each : ∀ place value, read place = .ok value → property value)
    {base count offset : Nat} {items : List AbiValue}
    (readAll : readItems data type read base count offset = .ok items) :
    ∀ item ∈ items, property item := by
  induction count generalizing offset items with
  | zero =>
    cases readAll
    simp
  | succ count ih =>
    obtain ⟨place, -, rest⟩ := bind_eq_ok.1 readAll
    obtain ⟨item, one, rest⟩ := bind_eq_ok.1 rest
    obtain ⟨others, more, same⟩ := bind_eq_ok.1 rest
    cases same
    intro candidate member
    rcases List.mem_cons.1 member with rfl | member
    · exact each place candidate one
    · exact ih more candidate member

theorem describes_of_decodeAt {type : AbiType} {place : Nat} {value : AbiValue}
    (decoded : decodeAt data type place = .ok value) : type.Describes value := by
  induction type generalizing place value with
  | address | int _ | bytes =>
    obtain ⟨content, -, rfl⟩ := map_eq_ok.1 decoded
    exact ⟨content, rfl⟩
  | bool =>
    obtain ⟨word, -, decoded⟩ := bind_eq_ok.1 decoded
    split at decoded
    · cases decoded
      exact ⟨_, rfl⟩
    · split at decoded <;> cases decoded
      exact ⟨_, rfl⟩
  | string =>
    obtain ⟨content, -, decoded⟩ := bind_eq_ok.1 decoded
    split at decoded <;> cases decoded
    exact ⟨_, rfl⟩
  | uint _ | fixedBytes _ =>
    obtain ⟨word, -, decoded⟩ := bind_eq_ok.1 decoded
    split at decoded <;> cases decoded
    exact ⟨_, rfl⟩
  | array item ih =>
    obtain ⟨length, -, decoded⟩ := bind_eq_ok.1 decoded
    split at decoded
    · cases decoded
    · obtain ⟨items, read, rfl⟩ := map_eq_ok.1 decoded
      exact ⟨items, rfl, forall_of_readItems (fun _ _ => ih) read⟩
  | fixedArray item length ih =>
    obtain ⟨items, read, rfl⟩ := map_eq_ok.1 decoded
    exact ⟨items, rfl, forall_of_readItems (fun _ _ => ih) read⟩

theorem describes_of_decodeTuple {types : List AbiType} {base offset : Nat}
    {values : List AbiValue} (decoded : decodeTuple data base types offset = .ok values) :
    List.Forall₂ AbiType.Describes types values := by
  induction types generalizing offset values with
  | nil =>
    cases decoded
    exact .nil
  | cons type rest ih =>
    obtain ⟨place, -, decoded⟩ := bind_eq_ok.1 decoded
    obtain ⟨value, one, decoded⟩ := bind_eq_ok.1 decoded
    obtain ⟨others, more, same⟩ := bind_eq_ok.1 decoded
    cases same
    exact .cons (describes_of_decodeAt one) (ih more)

/-- A coerced value is built like those of its type, also where the type's widths are out of
range. -/
theorem describes_of_coerce {type : AbiType} {json : Json} {value : AbiValue}
    (coerced : coerce type json = .ok value) : type.Describes value := by
  induction type generalizing json value with
  | address | bool | bytes =>
    obtain ⟨content, -, rfl⟩ := map_eq_ok.1 coerced
    exact ⟨content, rfl⟩
  | string =>
    unfold coerce at coerced
    split at coerced <;> cases coerced
    exact ⟨_, rfl⟩
  | fixedBytes _ | uint _ =>
    obtain ⟨content, -, coerced⟩ := bind_eq_ok.1 coerced
    split at coerced <;> cases coerced
    exact ⟨_, rfl⟩
  | int _ =>
    obtain ⟨content, -, coerced⟩ := bind_eq_ok.1 coerced
    dsimp only at coerced
    split at coerced <;> cases coerced
    exact ⟨_, rfl⟩
  | array item ih =>
    unfold coerce at coerced
    split at coerced
    · obtain ⟨items, read, rfl⟩ := map_eq_ok.1 coerced
      refine ⟨items, rfl, fun entry member => ?_⟩
      obtain ⟨source, one⟩ := (coerceItems_eq_ok read).2 entry member
      exact ih one
    · cases coerced
  | fixedArray item length ih =>
    unfold coerce at coerced
    split at coerced
    · split at coerced
      · obtain ⟨items, read, rfl⟩ := map_eq_ok.1 coerced
        refine ⟨items, rfl, fun entry member => ?_⟩
        obtain ⟨source, one⟩ := (coerceItems_eq_ok read).2 entry member
        exact ih one
      · cases coerced
    · cases coerced

theorem describes_of_fromPayload {field : String} {type : AbiType} {json : Json} {value : AbiValue}
    (read : fromPayload field type json = .ok value) : type.Describes value :=
  describes_of_coerce (fromPayload_eq_ok.1 read)

theorem take_of_wordAt {place : Nat} {word : Word} (read : wordAt data place = .ok word) :
    (data.drop place).take 32 = wordBytes word := by
  unfold wordAt at read
  split at read
  · rename_i part slice
    obtain ⟨bound, rfl⟩ := Bytes.slice?_eq_some.1 slice
    cases read
    refine (wordBytes_wordOfBytes ?_).symm
    rw [List.length_take, List.length_drop]
    omega
  · cases read

/-- A value that is no array and no byte string stands in the data as the word that is hashed. -/
theorem take_of_decodeAt {type : AbiType} (scalar : type.isVariable = false) {place : Nat}
    {value : AbiValue} (decoded : decodeAt data type place = .ok value) :
    (data.drop place).take 32 = wordBytes (TypedData.fieldWord value) := by
  cases type with
  | address =>
    obtain ⟨address, read, rfl⟩ := map_eq_ok.1 decoded
    obtain ⟨word, atPlace, read⟩ := bind_eq_ok.1 read
    split at read <;> cases read
    rename_i clean
    have widened : (word.setWidth 160).setWidth 256 = word := by
      apply BitVec.eq_of_toNat_eq
      rw [BitVec.toNat_setWidth_of_le (by decide), BitVec.toNat_setWidth]
      exact Nat.mod_eq_of_lt clean
    rw [take_of_wordAt atPlace, TypedData.fieldWord, widened]
  | bool =>
    obtain ⟨word, atPlace, decoded⟩ := bind_eq_ok.1 decoded
    have bytes := take_of_wordAt atPlace
    split at decoded
    · rename_i zero
      cases decoded
      rwa [zero] at bytes
    · split at decoded <;> cases decoded
      rename_i one
      rwa [one] at bytes
  | uint _ | fixedBytes _ =>
    obtain ⟨word, atPlace, decoded⟩ := bind_eq_ok.1 decoded
    split at decoded <;> cases decoded
    exact take_of_wordAt atPlace
  | int _ =>
    obtain ⟨word, atPlace, rfl⟩ := map_eq_ok.1 decoded
    exact take_of_wordAt atPlace
  | string | bytes | array _ | fixedArray _ _ => cases scalar

/-- A tuple without arrays and byte strings stands in the data as the words that are hashed; what
stands behind them is not read. -/
theorem take_of_decodeTuple {types : List AbiType}
    (scalars : ∀ type ∈ types, type.isVariable = false) {base offset : Nat}
    {values : List AbiValue} (decoded : decodeTuple data base types offset = .ok values) :
    (data.drop offset).take (32 * types.length) = TypedData.fieldWords values := by
  induction types generalizing offset values with
  | nil =>
    cases decoded
    simp [TypedData.fieldWords]
  | cons type rest ih =>
    obtain ⟨place, placed, decoded⟩ := bind_eq_ok.1 decoded
    obtain ⟨value, one, decoded⟩ := bind_eq_ok.1 decoded
    obtain ⟨others, more, same⟩ := bind_eq_ok.1 decoded
    cases same
    have scalar := scalars type List.mem_cons_self
    have inPlace : type.isDynamic = false ∧ slotSize type = 32 := by
      cases type <;> first | exact ⟨rfl, rfl⟩ | cases scalar
    rw [itemPlace_static inPlace.1] at placed
    cases placed
    rw [inPlace.2] at more
    have first := take_of_decodeAt scalar one
    have behind := ih (fun other member => scalars other (List.mem_cons_of_mem _ member)) more
    rw [List.length_cons, Nat.mul_succ, Nat.add_comm, List.take_add, List.drop_drop, first, behind,
      TypedData.fieldWords]

end Abi

namespace OperationType

/-- The operation type is built from declared fields of any types, and perhaps made proxied. -/
def Built (operation : OperationType) : Prop :=
  ∃ key declared target selector base,
    ofDeclared key declared target selector = .ok base ∧
    (operation = base ∨ base.proxied = .ok operation)

/-- Behind the sender and the nonce stands the data field, or only fields of a single word. -/
def Shaped (operation : OperationType) : Prop :=
  (∃ rest, operation.fields = [.sender, .nonce, .data] ++ rest) ∨
  ∃ rest, operation.fields = [.sender, .nonce] ++ rest ∧
    ∀ field ∈ rest, field.name ≠ Field.data.name ∧ field.type.isVariable = false

theorem shaped_of_ofDeclared {key : String} {declared : List Field} {target : Address}
    {selector : Selector} {base : OperationType}
    (built : ofDeclared key declared target selector = .ok base) : base.Shaped := by
  obtain ⟨fields, headed, same⟩ := bind_eq_ok.1 built
  cases same
  obtain ⟨distinct, rfl⟩ := Field.withHeader_eq_ok.1 headed
  by_cases anyVariable : declared.any (·.type.isVariable) = true
  · rw [anyVariable]
    exact .inl ⟨declared, rfl⟩
  · rw [Bool.not_eq_true] at anyVariable
    rw [anyVariable]
    refine .inr ⟨declared, rfl, fun field member => ⟨?_, ?_⟩⟩
    · intro same
      exact distinct.1 field member (same ▸ by decide)
    · exact Bool.eq_false_iff.2 (List.any_eq_false.1 anyVariable field member)

theorem Shaped.proxied {base operation : OperationType} (shaped : base.Shaped)
    (made : base.proxied = .ok operation) : operation.Shaped := by
  unfold OperationType.proxied at made
  split at made
  · cases made
  · cases made
    rcases shaped with ⟨rest, fields⟩ | ⟨rest, fields, clear⟩
    · obtain ⟨opaqueData, body⟩ := shape_with_data fields
      refine .inl ⟨.destination :: rest, ?_⟩
      simp only [headerLength, opaqueData, if_true, body, fields]
      rfl
    · obtain ⟨noData, body⟩ := shape_without_data fields fun field member => (clear field member).1
      refine .inr ⟨.destination :: rest, ?_, ?_⟩
      · simp only [headerLength, noData, Bool.false_eq_true, if_false, body, fields]
        rfl
      · intro field member
        rcases List.mem_cons.1 member with rfl | member
        · decide
        · exact clear field member

theorem Built.shaped {operation : OperationType} (built : operation.Built) : operation.Shaped := by
  obtain ⟨key, declared, target, selector, base, made, rfl | proxied⟩ := built
  · exact shaped_of_ofDeclared made
  · exact (shaped_of_ofDeclared made).proxied proxied

/-- Without the opaque data field, no field of the body is variable-length. -/
theorem Built.scalars {operation : OperationType} (built : operation.Built)
    (clear : operation.hasOpaqueData = false) :
    ∀ type ∈ operation.body.map (·.type), type.isVariable = false := by
  intro type member
  obtain ⟨field, inBody, rfl⟩ := List.mem_map.1 member
  rcases built.shaped with ⟨rest, fields⟩ | ⟨rest, fields, scalars⟩
  · rw [(shape_with_data fields).1] at clear
    cases clear
  · rw [(shape_without_data fields fun field member => (scalars field member).1).2] at inBody
    exact (scalars field inBody).2

end OperationType

/-- What a message says: its header and the data and values of its body. -/
structure Message where
  sender : Address
  nonce : UInt64
  data : Bytes
  body : List AbiValue

namespace Message

/-- The values that stand for a message in its digest. -/
def values (message : Message) (operation : OperationType) : List AbiValue :=
  [.address message.sender, .ofNat message.nonce.toNat]
    ++ (if operation.hasOpaqueData then [.bytes message.data] else []) ++ message.body

def hash (message : Message) (operation : OperationType) : Hash :=
  messageHash operation message.sender message.nonce message.data message.body

/-- The byte strings that are hashed for the digest of a message. -/
def hashed (message : Message) (operation : OperationType) : List Bytes :=
  TypedData.hashedStruct operation.typeHash (message.values operation)

/-- The byte strings that are hashed for what is signed. -/
def hashedUnder (message : Message) (operation : OperationType) (domain : Domain) : List Bytes :=
  TypedData.signingMessage domain.separator (message.hash operation)
    :: (domain.hashed ++ message.hashed operation)

variable {operation : OperationType} {types : List AbiType} {first second : Message}

theorem describes_values (described : List.Forall₂ AbiType.Describes types first.body) :
    List.Forall₂ AbiType.Describes
      ([.address, .uint 256] ++ (if operation.hasOpaqueData then [.bytes] else []) ++ types)
      (first.values operation) := by
  unfold values
  split
  · exact .cons ⟨_, rfl⟩ (.cons ⟨_, rfl⟩ (.cons ⟨_, rfl⟩ described))
  · exact .cons ⟨_, rfl⟩ (.cons ⟨_, rfl⟩ described)

theorem eq_of_values (same : first.values operation = second.values operation) :
    first.sender = second.sender ∧ first.nonce = second.nonce ∧ first.body = second.body ∧
      (operation.hasOpaqueData = true → first.data = second.data) := by
  unfold values at same
  split at same
  · simp only [List.cons_append, List.nil_append, List.cons.injEq, AbiValue.address.injEq,
      AbiValue.bytes.injEq] at same
    obtain ⟨senders, nonces, data, bodies⟩ := same
    exact ⟨senders, AbiValue.ofNat_injective nonces, bodies, fun _ => data⟩
  · rename_i clear
    simp only [List.cons_append, List.nil_append, List.cons.injEq, AbiValue.address.injEq] at same
    obtain ⟨senders, nonces, bodies⟩ := same
    refine ⟨senders, AbiValue.ofNat_injective nonces, bodies, ?_⟩
    exact fun opaqueData => absurd opaqueData clear

/-- The digest of a message binds the header, the values of the body and, where it is a field, the
data. -/
theorem hash_binds (described : List.Forall₂ AbiType.Describes types first.body)
    (described' : List.Forall₂ AbiType.Describes types second.body)
    (same : first.hash operation = second.hash operation) :
    (first.sender = second.sender ∧ first.nonce = second.nonce ∧ first.body = second.body ∧
        (operation.hasOpaqueData = true → first.data = second.data))
      ∨ Collide (first.hashed operation) (second.hashed operation) := by
  have bound := TypedData.structHash_binds
    (TypedData.forall₂_binds (describes_values described) (describes_values described')) same
  exact bound.imp_left eq_of_values

theorem signed_binds {domain domain' : Domain}
    (described : List.Forall₂ AbiType.Describes types first.body)
    (described' : List.Forall₂ AbiType.Describes types second.body)
    (same : TypedData.signingDigest domain.separator (first.hash operation)
      = TypedData.signingDigest domain'.separator (second.hash operation)) :
    (domain = domain' ∧ first.sender = second.sender ∧ first.nonce = second.nonce ∧
        first.body = second.body ∧ (operation.hasOpaqueData = true → first.data = second.data))
      ∨ Collide (first.hashedUnder operation domain) (second.hashedUnder operation domain') := by
  rcases TypedData.signingDigest_binds same _ _ with ⟨separators, hashes⟩ | collide
  · rcases Domain.separator_binds separators with rfl | collide
    · rcases hash_binds described described' hashes with agree | collide
      · exact .inl ⟨rfl, agree⟩
      · exact .inr ((collide.right _ _).behind _ _)
    · exact .inr ((collide.left _ _).behind _ _)
  · exact .inr collide

end Message

namespace Request

/-- The byte strings that are hashed for what is signed of a request, if it is accepted. -/
def hashed (request : Request) (operation : OperationType) (domain : Domain) : List Bytes :=
  match request.bodyValues operation with
  | .ok body =>
    Message.hashedUnder ⟨request.sender, request.sequence, Abi.encode body, body⟩ operation domain
  | .error _ => []

theorem describes_of_resolve {payload : List (String × Json)} {fields : List Field}
    {values : List AbiValue} (resolved : resolve payload fields = .ok values) :
    List.Forall₂ AbiType.Describes (fields.map (·.type)) values := by
  refine (resolve_fromPayload resolved).flip.imp ?_
  rintro type value ⟨field, json, read⟩
  exact Abi.describes_of_fromPayload read

theorem message_of_encode {request : Request} {operation : OperationType}
    {encoded : EncodedRequest} (accepted : request.encode operation = .ok encoded) :
    ∃ body, request.bodyValues operation = .ok body ∧
      List.Forall₂ AbiType.Describes (operation.body.map (·.type)) body ∧
      encoded.data = Abi.encode body ∧
      encoded.structHash
        = Message.hash ⟨request.sender, request.sequence, Abi.encode body, body⟩ operation := by
  unfold encode at accepted
  split at accepted
  · obtain ⟨body, values, same⟩ := bind_eq_ok.1 accepted
    cases same
    have resolved := values
    unfold bodyValues at resolved
    split at resolved
    · cases resolved
    · exact ⟨body, values, describes_of_resolve resolved, rfl, rfl⟩
  · cases accepted

end Request

/-- Equal digests are signed for the same request only: the same domain, sender, sequence number and
payload values, and so the same data, unless hashing collides. -/
theorem digest_binds_request {operation : OperationType} {request request' : Request}
    {encoded encoded' : EncodedRequest} (accepted : request.encode operation = .ok encoded)
    (accepted' : request'.encode operation = .ok encoded') {domain domain' : Domain}
    (same : encoded.digest domain = encoded'.digest domain') :
    (domain = domain' ∧ request.sender = request'.sender ∧ request.sequence = request'.sequence ∧
        encoded.data = encoded'.data ∧ ∃ body,
          request.bodyValues operation = .ok body ∧ request'.bodyValues operation = .ok body)
      ∨ Collide (request.hashed operation domain) (request'.hashed operation domain') := by
  obtain ⟨body, values, described, data, hash⟩ := Request.message_of_encode accepted
  obtain ⟨body', values', described', data', hash'⟩ := Request.message_of_encode accepted'
  unfold EncodedRequest.digest at same
  rw [hash, hash'] at same
  unfold Request.hashed
  rw [values, values']
  refine (Message.signed_binds described described' same).imp_left ?_
  rintro ⟨domains, senders, sequences, bodies, -⟩
  dsimp only at senders sequences bodies
  subst bodies
  exact ⟨domains, senders, sequences, data.trans data'.symm, body, rfl, rfl⟩

/-- One number, spelled in two ways. -/
theorem digest_binds_request_spelling :
    let operation : OperationType := ⟨"BurnToken", [.sender, .nonce, ⟨"tokenId", .uint 256⟩], 1, 7⟩
    let request : Request := ⟨"BurnToken", 9, 4, [("tokenId", .integer 5)]⟩
    let request' : Request := ⟨"BurnToken", 9, 4, [("tokenId", .string "5")]⟩
    let encoded : EncodedRequest := ⟨operation.typeHash, 9, 4, Abi.encode [.uint 5],
      messageHash operation 9 4 (Abi.encode [.uint 5]) [.uint 5]⟩
    let domain : Domain := ⟨"Relay", "1", 7, 3⟩
    request.encode operation = .ok encoded ∧ request'.encode operation = .ok encoded ∧
    ((domain = domain ∧ request.sender = request'.sender ∧ request.sequence = request'.sequence ∧
        encoded.data = encoded.data ∧ ∃ body,
          request.bodyValues operation = .ok body ∧ request'.bodyValues operation = .ok body)
      ∨ Collide (request.hashed operation domain) (request'.hashed operation domain)) := by
  intro operation request request' encoded domain
  have values : request.bodyValues operation = .ok [.uint 5] := by rfl
  have number : Abi.coerceNat (.string "5") = .ok 5 := by decide +kernel
  have values' : request'.bodyValues operation = .ok [.uint 5] := by
    show (Abi.forField "tokenId" (Abi.coerceNat (.string "5") >>= _) >>= _) = _
    rw [number]
    rfl
  have accepted : request.encode operation = .ok encoded := by
    unfold Request.encode
    rw [if_pos rfl, values]
    rfl
  have accepted' : request'.encode operation = .ok encoded := by
    unfold Request.encode
    rw [if_pos rfl, values']
    rfl
  exact ⟨accepted, accepted', digest_binds_request accepted accepted' rfl⟩

namespace WireRequest

/-- The message of a request whose data was decoded. -/
def message (request : WireRequest) (body : List AbiValue) : Message :=
  ⟨request.sender, UInt64.ofNat request.nonce.toNat, request.data, body⟩

/-- The byte strings that are hashed when the digest of a request is rebuilt, if its data can be
decoded. -/
def hashed (request : WireRequest) (operation : OperationType) : List Bytes :=
  match Abi.decode (operation.body.map (·.type)) request.data with
  | .ok body => (request.message body).hashed operation
  | .error _ => []

/-- The byte strings that are hashed for what its signers signed. -/
def hashedUnder (request : WireRequest) (operation : OperationType) (domain : Domain) :
    List Bytes :=
  match Abi.decode (operation.body.map (·.type)) request.data with
  | .ok body => (request.message body).hashedUnder operation domain
  | .error _ => []

/-- Two requests say the same to an operation: their data is one byte for byte where it is a field
of the message, and up to the end of the last field of the body where it is none. -/
structure Agrees (operation : OperationType) (first second : WireRequest) : Prop where
  typeHash : first.typeHash = second.typeHash
  sender : first.sender = second.sender
  nonce : first.nonce = second.nonce
  body : Abi.decode (operation.body.map (·.type)) first.data
    = Abi.decode (operation.body.map (·.type)) second.data
  opaqueData : operation.hasOpaqueData = true → first.data = second.data
  scalars : operation.hasOpaqueData = false →
    first.data.take (32 * operation.body.length) = second.data.take (32 * operation.body.length)

theorem structHash_eq_ok {request : WireRequest} {operation : OperationType} {hash : Hash}
    (rebuilt : request.structHash operation = .ok hash) :
    operation.typeHash = request.typeHash ∧ request.nonce.toNat < UInt64.size ∧
      ∃ body, Abi.decode (operation.body.map (·.type)) request.data = .ok body ∧
        hash = (request.message body).hash operation := by
  unfold structHash at rebuilt
  split at rebuilt
  · rename_i sameType
    split at rebuilt
    · rename_i small
      obtain ⟨body, decoded, same⟩ := bind_eq_ok.1 rebuilt
      cases same
      exact ⟨sameType, small, body, decoded, rfl⟩
    · cases rebuilt
  · cases rebuilt

theorem structHash_of_decode {request : WireRequest} {operation : OperationType}
    (sameType : operation.typeHash = request.typeHash) (small : request.nonce.toNat < UInt64.size)
    {body : List AbiValue}
    (decoded : Abi.decode (operation.body.map (·.type)) request.data = .ok body) :
    request.structHash operation = .ok ((request.message body).hash operation) := by
  unfold structHash
  rw [if_pos sameType, if_pos small, decoded]
  rfl

theorem agrees_of_message {operation : OperationType} (built : operation.Built)
    {request request' : WireRequest} {hash hash' : Hash}
    (rebuilt : request.structHash operation = .ok hash)
    (rebuilt' : request'.structHash operation = .ok hash') {body : List AbiValue}
    (decoded : Abi.decode (operation.body.map (·.type)) request.data = .ok body)
    (decoded' : Abi.decode (operation.body.map (·.type)) request'.data = .ok body)
    (senders : request.sender = request'.sender)
    (nonces : UInt64.ofNat request.nonce.toNat = UInt64.ofNat request'.nonce.toNat)
    (data : operation.hasOpaqueData = true → request.data = request'.data) :
    Agrees operation request request' where
  typeHash := (structHash_eq_ok rebuilt).1.symm.trans (structHash_eq_ok rebuilt').1
  sender := senders
  nonce := by
    have numbers := congrArg UInt64.toNat nonces
    rw [UInt64.toNat_ofNat_of_lt' (structHash_eq_ok rebuilt).2.1,
      UInt64.toNat_ofNat_of_lt' (structHash_eq_ok rebuilt').2.1] at numbers
    exact BitVec.eq_of_toNat_eq numbers
  body := decoded.trans decoded'.symm
  opaqueData := data
  scalars := by
    intro clear
    have words := Abi.take_of_decodeTuple (built.scalars clear) decoded
    have words' := Abi.take_of_decodeTuple (built.scalars clear) decoded'
    rw [List.length_map, List.drop_zero] at words words'
    exact words.trans words'.symm

end WireRequest

/-- Equal digests are rebuilt from requests that say the same only, and so are equal digests under
domains, unless hashing collides. -/
theorem rebuilt_digest_binds_request {operation : OperationType} (built : operation.Built)
    {request request' : WireRequest} {hash hash' : Hash}
    (rebuilt : request.structHash operation = .ok hash)
    (rebuilt' : request'.structHash operation = .ok hash') :
    (hash = hash' →
      WireRequest.Agrees operation request request'
        ∨ Collide (request.hashed operation) (request'.hashed operation)) ∧
    ∀ domain domain' : Domain,
      TypedData.signingDigest domain.separator hash
        = TypedData.signingDigest domain'.separator hash' →
      (domain = domain' ∧ WireRequest.Agrees operation request request')
        ∨ Collide (request.hashedUnder operation domain)
            (request'.hashedUnder operation domain') := by
  obtain ⟨-, -, body, decoded, rfl⟩ := WireRequest.structHash_eq_ok rebuilt
  obtain ⟨-, -, body', decoded', rfl⟩ := WireRequest.structHash_eq_ok rebuilt'
  have described := Abi.describes_of_decodeTuple decoded
  have described' := Abi.describes_of_decodeTuple decoded'
  have agrees := WireRequest.agrees_of_message built rebuilt rebuilt' decoded
  unfold WireRequest.hashed WireRequest.hashedUnder
  rw [decoded, decoded']
  constructor
  · intro same
    refine (Message.hash_binds described described' same).imp_left ?_
    rintro ⟨senders, nonces, bodies, data⟩
    have sameBody : body = body' := bodies
    subst sameBody
    exact agrees decoded' senders nonces data
  · intro domain domain' same
    refine (Message.signed_binds described described' same).imp_left ?_
    rintro ⟨domains, senders, nonces, bodies, data⟩
    have sameBody : body = body' := bodies
    subst sameBody
    exact ⟨domains, agrees decoded' senders nonces data⟩

/-- The data of one request goes on behind the only field of the body. -/
theorem rebuilt_digest_binds_request_tail :
    let operation : OperationType := ⟨"BurnToken", [.sender, .nonce, ⟨"tokenId", .uint 256⟩], 1, 7⟩
    let request : WireRequest := ⟨operation.typeHash, 9, 4, wordBytes 5⟩
    let request' : WireRequest := ⟨operation.typeHash, 9, 4, wordBytes 5 ++ [1]⟩
    let hash := messageHash operation 9 4 [] [.uint 5]
    operation.Built ∧ request.structHash operation = .ok hash ∧
    request'.structHash operation = .ok hash ∧
    (WireRequest.Agrees operation request request'
      ∨ Collide (request.hashed operation) (request'.hashed operation)) := by
  intro operation request request' hash
  have built : operation.Built :=
    ⟨"BurnToken", [⟨"tokenId", .uint 256⟩], 1, 7, operation, rfl, .inl rfl⟩
  have rebuilt : request.structHash operation = .ok hash :=
    WireRequest.structHash_of_decode rfl (by decide) rfl
  have rebuilt' : request'.structHash operation = .ok hash :=
    WireRequest.structHash_of_decode rfl (by decide) rfl
  exact ⟨built, rebuilt, rebuilt', (rebuilt_digest_binds_request built rebuilt rebuilt').1 rfl⟩

/-- Without the opaque data field the data itself is not bound: what stands behind the last field is
not hashed. -/
theorem rebuilt_digest_misses_tail :
    ¬∀ (operation : OperationType), operation.Built →
      ∀ (request request' : WireRequest) (hash : Hash),
        request.structHash operation = .ok hash → request'.structHash operation = .ok hash →
        (request.sender = request'.sender ∧ request.nonce = request'.nonce ∧
            request.data = request'.data)
          ∨ Collide (request.hashed operation) (request'.hashed operation) := by
  intro claimed
  let operation : OperationType := ⟨"BurnToken", [.sender, .nonce, ⟨"tokenId", .uint 256⟩], 1, 7⟩
  let request : WireRequest := ⟨operation.typeHash, 9, 4, wordBytes 5⟩
  let request' : WireRequest := ⟨operation.typeHash, 9, 4, wordBytes 5 ++ [1]⟩
  have built : operation.Built :=
    ⟨"BurnToken", [⟨"tokenId", .uint 256⟩], 1, 7, operation, rfl, .inl rfl⟩
  have rebuilt : request.structHash operation = .ok (messageHash operation 9 4 [] [.uint 5]) :=
    WireRequest.structHash_of_decode rfl (by decide) rfl
  have rebuilt' : request'.structHash operation = .ok (messageHash operation 9 4 [] [.uint 5]) :=
    WireRequest.structHash_of_decode rfl (by decide) rfl
  rcases claimed operation built request request' _ rebuilt rebuilt' with agree | collide
  · exact absurd agree.2.2 (by decide)
  · obtain ⟨message, member, other, memberOther, different, -⟩ := collide
    have same : request.hashed operation = request'.hashed operation := by rfl
    have single : ∃ only, request'.hashed operation = [only] := ⟨_, rfl⟩
    obtain ⟨only, single⟩ := single
    rw [same, single] at member
    rw [single] at memberOther
    exact different ((List.mem_singleton.1 member).trans (List.mem_singleton.1 memberOther).symm)

end GaslessRelay

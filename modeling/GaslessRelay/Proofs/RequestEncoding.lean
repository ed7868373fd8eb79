import GaslessRelay.Proofs.AbiRoundTrip
import GaslessRelay.Proofs.FieldLists
import GaslessRelay.Request.Basic

/-!
Requests and the values of their bodies. The fields of an operation type built from read types are
valid, so the body of an accepted request has the types of its fields and its data decodes to it.
-/

namespace GaslessRelay

namespace OperationType

/-- The operation type is built from declared fields whose types were read, and perhaps made
proxied. -/
def Declared (operation : OperationType) : Prop :=
  ∃ key declared target selector base,
    (∀ field ∈ declared, ∃ typeName, Field.parse field.name typeName = .ok field) ∧
    ofDeclared key declared target selector = .ok base ∧
    (operation = base ∨ base.proxied = .ok operation)

theorem field_valid_of_parse {name typeName : String} {field : Field}
    (read : Field.parse name typeName = .ok field) : field.type.Valid := by
  obtain ⟨type, named, same⟩ := Outcome.bind_eq_ok.1 read
  cases same
  exact AbiType.valid_of_parse named

theorem header_valid {opaqueData : Bool} :
    ∀ field ∈ Field.header opaqueData, field.type.Valid := by
  cases opaqueData <;>
    simp [Field.header, Field.sender, Field.nonce, Field.data, AbiType.Valid]

theorem withHeader_valid {declared fields : List Field}
    (built : Field.withHeader declared = .ok fields)
    (valid : ∀ field ∈ declared, field.type.Valid) : ∀ field ∈ fields, field.type.Valid := by
  obtain ⟨-, rfl⟩ := Field.withHeader_eq_ok.1 built
  intro field member
  rcases List.mem_append.1 member with inHeader | inDeclared
  · exact header_valid field inHeader
  · exact valid field inDeclared

theorem proxied_valid {base operation : OperationType} (made : base.proxied = .ok operation)
    (valid : ∀ field ∈ base.fields, field.type.Valid) :
    ∀ field ∈ operation.fields, field.type.Valid := by
  unfold proxied at made
  split at made
  · cases made
  · cases made
    intro field member
    rcases List.mem_append.1 member with inHeader | inBody
    · exact valid field (List.mem_of_mem_take inHeader)
    · rcases List.mem_cons.1 inBody with rfl | inBody
      · trivial
      · exact valid field (List.mem_of_mem_drop inBody)

theorem Declared.fields_valid {operation : OperationType} (declared : operation.Declared) :
    ∀ field ∈ operation.fields, field.type.Valid := by
  obtain ⟨key, fields, target, selector, base, read, built, same⟩ := declared
  obtain ⟨whole, headed, sameBase⟩ := Outcome.bind_eq_ok.1 built
  cases sameBase
  have valid : ∀ field ∈ fields, field.type.Valid := by
    intro field member
    obtain ⟨typeName, fieldRead⟩ := read field member
    exact field_valid_of_parse fieldRead
  have baseValid : ∀ field ∈ whole, field.type.Valid := withHeader_valid headed valid
  rcases same with rfl | made
  · exact baseValid
  · exact proxied_valid made baseValid

/-- The types of the body are valid. -/
theorem Declared.body_valid {operation : OperationType} (declared : operation.Declared) :
    ∀ type ∈ operation.body.map (·.type), type.Valid := by
  intro type member
  obtain ⟨field, inBody, rfl⟩ := List.mem_map.1 member
  exact declared.fields_valid field (List.mem_of_mem_drop inBody)

end OperationType

namespace Request

theorem resolve_fromPayload {payload : List (String × Json)} {fields : List Field}
    {values : List AbiValue} (resolved : resolve payload fields = .ok values) :
    List.Forall₂ (fun value type => ∃ field json, Abi.fromPayload field type json = .ok value)
      values (fields.map (·.type)) := by
  induction fields generalizing values with
  | nil =>
    cases resolved
    exact .nil
  | cons field rest ih =>
    unfold resolve at resolved
    split at resolved
    · cases resolved
    · rename_i json found
      obtain ⟨value, read, others⟩ := Outcome.bind_eq_ok.1 resolved
      obtain ⟨restValues, restResolved, same⟩ := Outcome.bind_eq_ok.1 others
      cases same
      exact .cons ⟨field.name, json, read⟩ (ih restResolved)

/-- What an accepted request is encoded to: everything is taken from the request and its body. -/
theorem encode_eq_ok {request : Request} {operation : OperationType} {encoded : EncodedRequest}
    (accepted : request.encode operation = .ok encoded) :
    operation.key = request.operationKey ∧ ∃ body,
      resolve request.payload operation.body = .ok body ∧
      encoded = operation.encoded request.sender request.sequence body := by
  unfold encode at accepted
  split at accepted
  · rename_i sameKey
    obtain ⟨body, values, same⟩ := Outcome.bind_eq_ok.1 accepted
    cases same
    unfold bodyValues at values
    split at values
    · cases values
    · exact ⟨sameKey, body, values, rfl⟩
  · cases accepted

/-- The data of an accepted request decodes to the values that its digest was made from. -/
theorem decode_data {request : Request} {operation : OperationType} {encoded : EncodedRequest}
    (declared : operation.Declared) (accepted : request.encode operation = .ok encoded)
    (small : encoded.data.length < Text.wordLimit) :
    ∃ body, Abi.decode (operation.body.map (·.type)) encoded.data = .ok body ∧
      encoded.structHash
        = messageHash operation encoded.sender encoded.nonce encoded.data body := by
  obtain ⟨-, body, resolved, rfl⟩ := encode_eq_ok accepted
  have typed :=
    Abi.forall₂_hasType_of_fromPayload declared.body_valid (resolve_fromPayload resolved)
  exact ⟨body, Abi.decode_encode_of_valid declared.body_valid typed small, rfl⟩

end Request

end GaslessRelay

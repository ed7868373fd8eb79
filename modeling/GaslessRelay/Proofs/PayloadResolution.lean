import GaslessRelay.Proofs.RequestBinding
import GaslessRelay.Request.MachineRequest
import Mathlib.Data.List.Forall2
import Mathlib.Data.List.Nodup

/-!
How payloads are resolved against the body of an operation type. The machine never stops at a field
list that holds its header, with types whose values go into words. What a payload gives a field is
found by its name, so the order of the members decides nothing but which of several extra names is
reported (`payload_resolved_in_any_order`).
-/

namespace GaslessRelay

open Outcome (bind_eq_ok mapError_bind mapError_map ok_bind)

/-- The fixed-size bytes of the type go into a word, and its signed integers have bits. -/
def AbiType.FitsWords : AbiType → Prop
  | fixedBytes size => size ≤ 32
  | int bits => bits ≠ 0
  | array item | fixedArray item _ => item.FitsWords
  | _ => True

theorem AbiType.Valid.fitsWords {type : AbiType} (valid : type.Valid) : type.FitsWords := by
  induction type with
  | fixedBytes size => exact valid.2
  | int bits => exact valid.1
  | array item ih => exact ih valid
  | fixedArray item length ih => exact ih valid.2
  | _ => trivial

namespace OperationType

/-- What the machine relies on: the field list holds its header, and the values of the body go into
words. -/
structure Sound (operation : OperationType) : Prop where
  headed : operation.headerLength ≤ operation.fields.length
  fits : ∀ field ∈ operation.body, field.type.FitsWords

variable {operation : OperationType}

theorem Shaped.headed (shaped : operation.Shaped) :
    operation.headerLength ≤ operation.fields.length := by
  rcases shaped with ⟨rest, fields⟩ | ⟨rest, fields, clear⟩
  · rw [headerLength, (shape_with_data fields).1, fields]
    simp
  · rw [headerLength, (shape_without_data fields fun field member => (clear field member).1).1,
      fields]
    simp

theorem Built.sound (built : operation.Built)
    (fits : ∀ field ∈ operation.body, field.type.FitsWords) : operation.Sound :=
  ⟨built.shaped.headed, fits⟩

theorem Declared.sound (declared : operation.Declared) : operation.Sound := by
  have fits : ∀ field ∈ operation.body, field.type.FitsWords := by
    intro field member
    exact (declared.fields_valid field (List.mem_of_mem_drop member)).fitsWords
  obtain ⟨key, fields, target, selector, base, -, built⟩ := declared
  exact Built.sound ⟨key, fields, target, selector, base, built⟩ fits

end OperationType

namespace Machine

variable {field : String} {type : AbiType}

theorem coerceItems_eq
    (each : ∀ json, coerce field type json = reported field (Abi.coerce type json))
    (items : List Json) :
    Abi.coerceItems (coerce field type) items
      = reported field (Abi.coerceItems (Abi.coerce type) items) := by
  induction items with
  | nil => rfl
  | cons item rest ih =>
    rw [Abi.coerceItems, Abi.coerceItems, reported, mapError_bind, each, ih]
    unfold reported
    congr 1
    funext value
    rw [mapError_bind]
    rfl

/-- Where the type fits words, the machine coerces a value and does not stop. -/
theorem coerce_eq (fits : type.FitsWords) (json : Json) :
    coerce field type json = reported field (Abi.coerce type json) := by
  induction type generalizing json with
  | int bits =>
    rw [coerce, Abi.coerce, difference, if_pos (Nat.one_le_iff_ne_zero.2 fits)]
    cases Abi.coerceInt json with
    | error fault => rfl
    | ok value =>
      show (if _ then _ else _) = reported field (if _ then _ else _)
      split <;> rfl
  | fixedBytes size =>
    rw [coerce, Abi.coerce]
    cases Abi.coerceBytes json with
    | error fault => rfl
    | ok content =>
      show (if _ then _ else _) = reported field (if _ then _ else _)
      split
      · rename_i length
        rw [wordFrom, if_pos (length ▸ fits), length]
        rfl
      · rfl
  | array item ih =>
    cases json with
    | array items =>
      rw [coerce, Abi.coerce, coerceItems_eq (ih fits)]
      exact mapError_map.symm
    | _ => rfl
  | fixedArray item length ih =>
    cases json with
    | array items =>
      rw [coerce, Abi.coerce]
      split
      · rw [coerceItems_eq (ih fits)]
        exact mapError_map.symm
      · rfl
    | _ => rfl
  | _ => rfl

theorem checked_fromPayload (json : Json) :
    checked (Abi.fromPayload field type json) = reported field (Abi.coerce type json) := by
  unfold Abi.fromPayload
  cases Abi.coerce type json with
  | ok value => rfl
  | error fault => rfl

theorem resolve_eq {payload : List (String × Json)} {fields : List Field}
    (fits : ∀ field ∈ fields, field.type.FitsWords) :
    resolve payload fields = checked (Request.resolve payload fields) := by
  induction fields with
  | nil => rfl
  | cons field rest ih =>
    obtain ⟨first, others⟩ := List.forall_mem_cons.1 fits
    rw [resolve, Request.resolve, ih others]
    cases Json.lookup? payload field.name with
    | none => rfl
    | some json =>
      simp only [coerce_eq first, ← checked_fromPayload, checked, mapError_bind]
      rfl

variable {request : Request} {operation : OperationType}

theorem bodyValues_eq (sound : operation.Sound) :
    bodyValues request operation = checked (request.bodyValues operation) := by
  rw [bodyValues, bodyFields, if_pos sound.headed, ok_bind, Request.bodyValues]
  cases Request.firstExtra? operation.body request.payload with
  | some name => rfl
  | none => exact resolve_eq sound.fits

theorem encodeRequest_eq (sound : operation.Sound) :
    encodeRequest request operation = checked (request.encode operation) := by
  unfold encodeRequest Request.encode
  split
  · rw [bodyValues_eq sound, checked, checked, mapError_bind]
    rfl
  · rfl

end Machine

namespace Json

variable {members others : List (String × Json)} {name : String} {value : Json}

theorem lookup?_eq_none_iff : lookup? members name = none ↔ name ∉ members.map Prod.fst := by
  induction members with
  | nil => simp [lookup?]
  | cons member rest ih =>
    obtain ⟨key, first⟩ := member
    by_cases same : key = name
    · simp [lookup?, same]
    · simp [lookup?, same, Ne.symm same, ih]

/-- Where no name repeats, the first member of a name is the only one. -/
theorem lookup?_eq_some_iff (distinct : (members.map Prod.fst).Nodup) :
    lookup? members name = some value ↔ (name, value) ∈ members := by
  induction members with
  | nil => simp [lookup?]
  | cons member rest ih =>
    obtain ⟨key, first⟩ := member
    rw [List.map_cons, List.nodup_cons] at distinct
    obtain ⟨fresh, distinctRest⟩ := distinct
    by_cases same : key = name
    · subst same
      have absent : (key, value) ∉ rest := by
        intro member
        exact fresh (List.mem_map.2 ⟨(key, value), member, rfl⟩)
      simp [lookup?, absent, eq_comm]
    · simp [lookup?, same, Ne.symm same, ih distinctRest]

end Json

namespace Request

variable {payload : List (String × Json)} {fields : List Field} {field : Field}
  {values : List AbiValue} {error : CodecError} {name : String}

/-- What a payload gives a field: the value of its member as the field's type has it, or an error. -/
inductive Gives (payload : List (String × Json)) (field : Field) :
    Except CodecError AbiValue → Prop
  | missing (absent : field.name ∉ payload.map Prod.fst) :
      Gives payload field (.error (.missingField field.name))
  | member {json : Json} (present : (field.name, json) ∈ payload) :
      Gives payload field (Abi.fromPayload field.name field.type json)

/-- The first name of the payload that is no field's. -/
def FirstExtra (fields : List Field) (payload : List (String × Json)) (name : String) : Prop :=
  ∃ before after json, payload = before ++ (name, json) :: after ∧
    name ∉ fields.map (·.name) ∧ ∀ entry ∈ before, entry.1 ∈ fields.map (·.name)

/-- The error of the first field that the payload gives none of its values. -/
def FirstRefused (payload : List (String × Json)) (fields : List Field) (error : CodecError) :
    Prop :=
  ∃ before field after, fields = before ++ field :: after ∧
    (∀ earlier ∈ before, ∃ value, Gives payload earlier (.ok value)) ∧
    Gives payload field (.error error)

theorem fromPayload_eq_ok_iff {json : Json} {value : AbiValue} :
    Abi.fromPayload field.name field.type json = .ok value
      ↔ Abi.coerce field.type json = .ok value := by
  unfold Abi.fromPayload Abi.forField
  cases Abi.coerce field.type json with
  | ok other => simp
  | error fault => simp

theorem gives_ok_iff {value : AbiValue} :
    Gives payload field (.ok value)
      ↔ ∃ json, (field.name, json) ∈ payload ∧ Abi.coerce field.type json = .ok value := by
  constructor
  · intro given
    generalize outcome : (Except.ok value : Except CodecError AbiValue) = result at given
    cases given with
    | missing absent => cases outcome
    | member present => exact ⟨_, present, fromPayload_eq_ok_iff.1 outcome.symm⟩
  · rintro ⟨json, present, coerced⟩
    rw [← fromPayload_eq_ok_iff.2 coerced]
    exact .member present

/-- What a payload gives a field depends on its members and not on their order. -/
theorem Gives.of_perm {other : List (String × Json)} {result : Except CodecError AbiValue}
    (permuted : payload.Perm other) (given : Gives payload field result) :
    Gives other field result := by
  cases given with
  | missing absent =>
    apply Gives.missing
    rwa [← (permuted.map Prod.fst).mem_iff]
  | member present => exact .member (permuted.mem_iff.1 present)

/-- What a payload gives a field, by a search for its name. -/
def given (payload : List (String × Json)) (field : Field) : Except CodecError AbiValue :=
  match Json.lookup? payload field.name with
  | none => .error (.missingField field.name)
  | some json => Abi.fromPayload field.name field.type json

theorem given_eq_iff (distinct : (payload.map Prod.fst).Nodup)
    {result : Except CodecError AbiValue} :
    given payload field = result ↔ Gives payload field result := by
  unfold given
  constructor
  · rintro rfl
    split
    · rename_i absent
      exact .missing (Json.lookup?_eq_none_iff.1 absent)
    · rename_i json found
      exact .member ((Json.lookup?_eq_some_iff distinct).1 found)
  · intro gives
    cases gives with
    | missing absent => rw [Json.lookup?_eq_none_iff.2 absent]
    | member present => rw [(Json.lookup?_eq_some_iff distinct).2 present]

theorem resolve_cons (payload : List (String × Json)) (field : Field) (rest : List Field) :
    resolve payload (field :: rest) = (do
      let value ← given payload field
      let values ← resolve payload rest
      return value :: values) := by
  rw [resolve, given]
  cases Json.lookup? payload field.name with
  | none => rfl
  | some json => rfl

theorem resolve_eq_ok (distinct : (payload.map Prod.fst).Nodup) :
    resolve payload fields = .ok values
      ↔ List.Forall₂ (fun field value => Gives payload field (.ok value)) fields values := by
  induction fields generalizing values with
  | nil => simp [resolve, eq_comm]
  | cons field rest ih =>
    simp only [resolve_cons, bind_eq_ok, given_eq_iff distinct, ih, List.forall₂_cons_left_iff]
    constructor
    · rintro ⟨value, gives, others, resolved, made⟩
      exact ⟨value, others, gives, resolved, (Except.ok.inj made).symm⟩
    · rintro ⟨value, others, gives, resolved, rfl⟩
      exact ⟨value, gives, others, resolved, rfl⟩

theorem firstRefused_cons : FirstRefused payload (field :: fields) error
    ↔ Gives payload field (.error error) ∨
      (∃ value, Gives payload field (.ok value)) ∧ FirstRefused payload fields error := by
  constructor
  · rintro ⟨before, refused, after, split, accepted, gives⟩
    rcases List.cons_eq_append_iff.1 split with ⟨rfl, same⟩ | ⟨others, rfl, same⟩
    · cases same
      exact .inl gives
    · refine .inr ⟨accepted field List.mem_cons_self, others, refused, after, same, ?_, gives⟩
      intro earlier member
      exact accepted earlier (List.mem_cons_of_mem _ member)
  · rintro (gives | ⟨accepts, before, refused, after, rfl, accepted, gives⟩)
    · exact ⟨[], field, fields, rfl, by simp, gives⟩
    · refine ⟨field :: before, refused, after, rfl, ?_, gives⟩
      intro earlier member
      rcases List.mem_cons.1 member with rfl | member
      · exact accepts
      · exact accepted earlier member

theorem resolve_eq_error (distinct : (payload.map Prod.fst).Nodup) :
    resolve payload fields = .error error ↔ FirstRefused payload fields error := by
  induction fields with
  | nil => simp [resolve, FirstRefused]
  | cons field rest ih =>
    rw [resolve_cons, firstRefused_cons, ← ih]
    simp only [← given_eq_iff distinct]
    cases given payload field with
    | error other => simp
    | ok value => cases resolve payload rest <;> simp

theorem firstExtra?_eq_some :
    firstExtra? fields payload = some name ↔ FirstExtra fields payload name := by
  have named : (!fields.any (·.name = name)) = true ↔ name ∉ fields.map (·.name) := by
    simp
  rw [firstExtra?, List.find?_eq_some_iff_append, named]
  constructor
  · rintro ⟨extra, before, after, split, listed⟩
    obtain ⟨entries, rest, rfl, rfl, made⟩ := List.map_eq_append_iff.1 split
    obtain ⟨⟨key, json⟩, others, rfl, rfl, rfl⟩ := List.map_eq_cons_iff.1 made
    refine ⟨entries, others, json, rfl, extra, ?_⟩
    intro entry member
    simpa using listed entry.1 (List.mem_map_of_mem member)
  · rintro ⟨before, after, json, rfl, extra, listed⟩
    refine ⟨extra, before.map Prod.fst, after.map Prod.fst, by simp, ?_⟩
    intro key member
    obtain ⟨entry, inBefore, rfl⟩ := List.mem_map.1 member
    simpa using listed entry inBefore

theorem firstExtra?_eq_none : firstExtra? fields payload = none
    ↔ ∀ name ∈ payload.map Prod.fst, name ∈ fields.map (·.name) := by
  rw [firstExtra?, List.find?_eq_none]
  simp

variable {request other : Request} {operation : OperationType} {encoded : EncodedRequest}

theorem bodyValues_eq_ok (distinct : (request.payload.map Prod.fst).Nodup) :
    request.bodyValues operation = .ok values
      ↔ (∀ name ∈ request.payload.map Prod.fst, name ∈ operation.body.map (·.name)) ∧
        List.Forall₂ (fun field value => Gives request.payload field (.ok value))
          operation.body values := by
  rw [← firstExtra?_eq_none, ← resolve_eq_ok distinct, bodyValues]
  cases firstExtra? operation.body request.payload with
  | some name => simp
  | none => simp

theorem bodyValues_eq_error (distinct : (request.payload.map Prod.fst).Nodup) :
    request.bodyValues operation = .error error
      ↔ (∃ name, FirstExtra operation.body request.payload name ∧
          error = .unexpectedField name) ∨
        (∀ name ∈ request.payload.map Prod.fst, name ∈ operation.body.map (·.name)) ∧
          FirstRefused request.payload operation.body error := by
  simp only [← firstExtra?_eq_none, ← firstExtra?_eq_some, ← resolve_eq_error distinct, bodyValues]
  cases firstExtra? operation.body request.payload with
  | some name => simp [eq_comm]
  | none => simp

theorem exists_gives_all_iff :
    (∃ values, List.Forall₂ (fun field value => Gives payload field (.ok value)) fields values)
      ↔ ∀ field ∈ fields, ∃ value, Gives payload field (.ok value) := by
  induction fields with
  | nil => simp
  | cons field rest ih =>
    rw [List.forall_mem_cons, ← ih]
    simp only [List.forall₂_cons_left_iff]
    constructor
    · rintro ⟨values, value, others, gives, behind, rfl⟩
      exact ⟨⟨value, gives⟩, others, behind⟩
    · rintro ⟨⟨value, gives⟩, others, behind⟩
      exact ⟨value :: others, value, others, gives, behind, rfl⟩

/-- A body resolves when the payload names its fields and gives each a value. -/
theorem exists_bodyValues_iff (distinct : (request.payload.map Prod.fst).Nodup) :
    (∃ values, request.bodyValues operation = .ok values)
      ↔ (∀ name, name ∈ request.payload.map Prod.fst ↔ name ∈ operation.body.map (·.name)) ∧
        ∀ field ∈ operation.body, ∀ json, (field.name, json) ∈ request.payload →
          ∃ value, Abi.coerce field.type json = .ok value := by
  simp only [bodyValues_eq_ok distinct, exists_and_left, exists_gives_all_iff]
  simp only [gives_ok_iff]
  constructor
  · rintro ⟨listed, given⟩
    refine ⟨fun name => ⟨listed name, ?_⟩, ?_⟩
    · intro named
      obtain ⟨field, member, rfl⟩ := List.mem_map.1 named
      obtain ⟨value, json, present, -⟩ := given field member
      exact List.mem_map.2 ⟨(field.name, json), present, rfl⟩
    · intro field member json present
      obtain ⟨value, other, presentOther, coerced⟩ := given field member
      have found := (Json.lookup?_eq_some_iff distinct).2 present
      rw [(Json.lookup?_eq_some_iff distinct).2 presentOther] at found
      cases found
      exact ⟨value, coerced⟩
  · rintro ⟨same, coerce⟩
    refine ⟨fun name => (same name).1, ?_⟩
    intro field member
    have named := (same field.name).2 (List.mem_map.2 ⟨field, member, rfl⟩)
    obtain ⟨⟨key, json⟩, present, rfl⟩ := List.mem_map.1 named
    obtain ⟨value, coerced⟩ := coerce field member json present
    exact ⟨value, json, present, coerced⟩

theorem bodyValues_perm (distinct : (request.payload.map Prod.fst).Nodup)
    (permuted : other.payload.Perm request.payload) :
    other.bodyValues operation = .ok values ↔ request.bodyValues operation = .ok values := by
  have names := permuted.map Prod.fst
  have gives : ∀ field result, Gives other.payload field result
      ↔ Gives request.payload field result :=
    fun field result => ⟨.of_perm permuted, .of_perm permuted.symm⟩
  rw [bodyValues_eq_ok distinct, bodyValues_eq_ok (names.nodup_iff.2 distinct)]
  simp only [names.mem_iff, gives]

/-- An encoding depends on the payload by the values of the body only. -/
theorem encode_congr (sameKey : other.operationKey = request.operationKey)
    (sameSender : other.sender = request.sender) (sameSequence : other.sequence = request.sequence)
    (sameValues : ∀ values, other.bodyValues operation = .ok values
      ↔ request.bodyValues operation = .ok values) :
    other.encode operation = .ok encoded ↔ request.encode operation = .ok encoded := by
  unfold encode
  rw [sameKey, sameSender, sameSequence]
  split
  · simp only [bind_eq_ok, sameValues]
  · simp

/-- The machine resolves and encodes a payload without stopping. A payload without repeated names
resolves exactly when its names are those of the body and every value is one of its field's type,
and then to these values in the order of the fields. Otherwise the first extra name of the payload
is reported, or else the first field without a value. So permuted payloads have the same encodings.
-/
theorem payload_resolved_in_any_order {operation : OperationType} (sound : operation.Sound)
    {request : Request} (distinct : (request.payload.map Prod.fst).Nodup) :
    Machine.bodyValues request operation = Machine.checked (request.bodyValues operation) ∧
    Machine.encodeRequest request operation = Machine.checked (request.encode operation) ∧
    ((∃ values, request.bodyValues operation = .ok values) ↔
      (∀ name, name ∈ request.payload.map Prod.fst ↔ name ∈ operation.body.map (·.name)) ∧
      ∀ field ∈ operation.body, ∀ json, (field.name, json) ∈ request.payload →
        ∃ value, Abi.coerce field.type json = .ok value) ∧
    (∀ values, request.bodyValues operation = .ok values →
      List.Forall₂ (fun field value => ∃ json, (field.name, json) ∈ request.payload ∧
        Abi.coerce field.type json = .ok value) operation.body values) ∧
    (∀ error, request.bodyValues operation = .error error ↔
      (∃ name, FirstExtra operation.body request.payload name ∧ error = .unexpectedField name) ∨
      (∀ name ∈ request.payload.map Prod.fst, name ∈ operation.body.map (·.name)) ∧
        FirstRefused request.payload operation.body error) ∧
    ∀ payload, payload.Perm request.payload → ∀ encoded,
      { request with payload }.encode operation = .ok encoded
        ↔ request.encode operation = .ok encoded := by
  refine ⟨Machine.bodyValues_eq sound, Machine.encodeRequest_eq sound,
    exists_bodyValues_iff distinct, ?_, fun error => bodyValues_eq_error distinct, ?_⟩
  · intro values resolved
    have gives := ((bodyValues_eq_ok distinct).1 resolved).2
    simpa only [gives_ok_iff] using gives
  · intro payload permuted encoded
    exact encode_congr rfl rfl rfl fun values => bodyValues_perm distinct permuted

/-- A token is minted with its two values in the other order. -/
theorem payload_resolved_in_any_order_mint :
    let mint : OperationType := ⟨"MintToken",
      [.sender, .nonce, .data, ⟨"tokenId", .uint 256⟩, ⟨"metadataCID", .string⟩], 1, 2⟩
    let payload := [("tokenId", Json.integer 5), ("metadataCID", Json.string "bafy")]
    let request : Request := ⟨"MintToken", 7, 0, payload⟩
    mint.Sound ∧ (payload.map Prod.fst).Nodup ∧
      Machine.bodyValues request mint = .ok [.uint 5, .string "bafy"] ∧
      { request with payload := payload.reverse }.encode mint = request.encode mint := by
  intro mint payload request
  have distinct : (payload.map Prod.fst).Nodup := by decide
  have values : request.bodyValues mint = .ok [.uint 5, .string "bafy"] := rfl
  obtain ⟨encoded, accepted⟩ : ∃ encoded, request.encode mint = .ok encoded := by
    unfold encode
    rw [if_pos rfl, values]
    exact ⟨_, rfl⟩
  have declared : ∀ field ∈ ([⟨"tokenId", .uint 256⟩, ⟨"metadataCID", .string⟩] : List Field),
      ∃ typeName, Field.parse field.name typeName = .ok field := by
    simp only [List.forall_mem_cons, List.not_mem_nil, false_imp_iff, implies_true, and_true]
    exact ⟨⟨"uint256", by decide +kernel⟩, ⟨"string", by decide +kernel⟩⟩
  have sound : mint.Sound :=
    OperationType.Declared.sound ⟨"MintToken", _, 1, 2, mint, declared, rfl, .inl rfl⟩
  obtain ⟨resolved, -, -, -, -, reordered⟩ :=
    @payload_resolved_in_any_order mint sound request distinct
  refine ⟨sound, distinct, resolved.trans (by rw [values]; rfl), ?_⟩
  rw [(reordered payload.reverse (List.reverse_perm payload) encoded).2 accepted, accepted]

end Request

end GaslessRelay

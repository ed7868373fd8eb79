import GaslessRelay.Operation.Basic
import GaslessRelay.Proofs.Outcome
import Mathlib.Data.List.Induction
import Mathlib.Data.List.Nodup

/-!
The field lists of operation types. Whether a message has opaque data or a destination is read off
the names at fixed places of its list; a declared field cannot stand for either, since its name is
not reserved (`field_lists_keep_shape`).
-/

namespace GaslessRelay

open Outcome (bind_eq_ok)

namespace Field

variable {declared before rest : List Field} {field : Field}

/-- No name is reserved, and none repeats an earlier one. -/
def Distinct (declared : List Field) : Prop :=
  (∀ field ∈ declared, field.name ∉ reserved) ∧ (declared.map (·.name)).Nodup

/-- The first field whose name is reserved or repeats an earlier one. -/
def FirstClash (declared : List Field) (field : Field) : Prop :=
  ∃ before after, declared = before ++ field :: after ∧ Distinct before ∧
    (field.name ∈ reserved ∨ field.name ∈ before.map (·.name))

/-- The fields before the body. -/
def header (opaqueData : Bool) : List Field :=
  [sender, nonce] ++ if opaqueData then [data] else []

theorem FirstClash.append (clash : FirstClash declared field) (rest : List Field) :
    FirstClash (declared ++ rest) field := by
  obtain ⟨before, after, rfl, distinct, clashes⟩ := clash
  exact ⟨before, after ++ rest, by simp, distinct, clashes⟩

theorem Distinct.snoc (distinct : Distinct declared)
    (fresh : ¬ (field.name ∈ reserved ∨ field.name ∈ declared.map (·.name))) :
    Distinct (declared ++ [field]) := by
  obtain ⟨unreserved, new⟩ := not_or.1 fresh
  refine ⟨?_, ?_⟩
  · intro other member
    rcases List.mem_append.1 member with member | member
    · exact distinct.1 other member
    · rwa [List.mem_singleton.1 member]
  · rw [List.map_append, List.map_singleton, ← List.concat_eq_append]
    exact distinct.2.concat new

theorem distinct_or_firstClash (declared : List Field) :
    Distinct declared ∨ ∃ field, FirstClash declared field := by
  induction declared using List.reverseRecOn with
  | nil => exact .inl ⟨by simp, .nil⟩
  | append_singleton declared field ih =>
    rcases ih with distinct | ⟨earlier, clash⟩
    · by_cases clashes : field.name ∈ reserved ∨ field.name ∈ declared.map (·.name)
      · exact .inr ⟨field, declared, [], rfl, distinct, clashes⟩
      · exact .inl (distinct.snoc clashes)
    · exact .inr ⟨earlier, clash.append [field]⟩

/-- The search passes fields of new names, and has then seen those names. -/
theorem firstClash?_append {seen : List String} (distinct : Distinct before)
    (unseen : ∀ field ∈ before, field.name ∉ seen) :
    firstClash? seen (before ++ rest)
      = firstClash? ((before.map (·.name)).reverse ++ seen) rest := by
  induction before generalizing seen with
  | nil => rfl
  | cons field others ih =>
    obtain ⟨unreserved, different⟩ := distinct
    obtain ⟨unlike, differentRest⟩ := List.nodup_cons.1 different
    have fresh : ¬ (field.name ∈ reserved ∨ field.name ∈ seen) :=
      not_or.2 ⟨unreserved field List.mem_cons_self, unseen field List.mem_cons_self⟩
    have distinctOthers : Distinct others :=
      ⟨fun other member => unreserved other (List.mem_cons_of_mem _ member), differentRest⟩
    rw [List.cons_append, firstClash?, if_neg fresh, ih distinctOthers]
    · simp
    · intro other member
      rw [List.mem_cons, not_or]
      refine ⟨?_, unseen other (List.mem_cons_of_mem _ member)⟩
      intro same
      exact unlike (List.mem_map.2 ⟨other, member, same⟩)

theorem withHeader_of_distinct (distinct : Distinct declared) :
    withHeader declared = .ok (header (declared.any (·.type.isVariable)) ++ declared) := by
  have none : firstClash? [] declared = none := by
    have passed : firstClash? [] (declared ++ []) = _ := firstClash?_append distinct (by simp)
    rwa [List.append_nil] at passed
  unfold withHeader
  rw [none]
  simp [header]

theorem withHeader_of_firstClash (clash : FirstClash declared field) :
    withHeader declared = .error (.duplicateField field.name) := by
  obtain ⟨before, after, rfl, distinct, clashes⟩ := clash
  have found : firstClash? [] (before ++ field :: after) = some field.name := by
    rw [firstClash?_append distinct (by simp), firstClash?, if_pos (by simpa using clashes)]
  unfold withHeader
  rw [found]

theorem withHeader_eq_error {error : CodecError} :
    withHeader declared = .error error
      ↔ ∃ field, FirstClash declared field ∧ error = .duplicateField field.name := by
  constructor
  · intro refused
    rcases distinct_or_firstClash declared with distinct | ⟨field, clash⟩
    · rw [withHeader_of_distinct distinct] at refused
      cases refused
    · rw [withHeader_of_firstClash clash] at refused
      cases refused
      exact ⟨field, clash, rfl⟩
  · rintro ⟨field, clash, rfl⟩
    exact withHeader_of_firstClash clash

theorem withHeader_eq_ok {fields : List Field} :
    withHeader declared = .ok fields
      ↔ Distinct declared ∧ fields = header (declared.any (·.type.isVariable)) ++ declared := by
  constructor
  · intro headed
    rcases distinct_or_firstClash declared with distinct | ⟨field, clash⟩
    · rw [withHeader_of_distinct distinct] at headed
      exact ⟨distinct, (Except.ok.inj headed).symm⟩
    · rw [withHeader_of_firstClash clash] at headed
      cases headed
  · rintro ⟨distinct, rfl⟩
    exact withHeader_of_distinct distinct

/-- A body whose fields are not named like those of the header. -/
def Behind (body : List Field) : Prop :=
  (body.map (·.name)).Nodup ∧ ∀ field ∈ body, field.name ∉ (header true).map (·.name)

theorem Distinct.behind (distinct : Distinct declared) : Behind declared := by
  refine ⟨distinct.2, fun field member inHeader => distinct.1 field member ?_⟩
  exact List.mem_of_mem_take (i := 3) inHeader

theorem Distinct.destination_behind (distinct : Distinct declared) :
    Behind (destination :: declared) := by
  refine ⟨List.nodup_cons.2 ⟨?_, distinct.2⟩, ?_⟩
  · intro declaredToo
    obtain ⟨field, member, same⟩ := List.mem_map.1 declaredToo
    exact distinct.1 field member (same ▸ by decide)
  · intro field member
    rcases List.mem_cons.1 member with rfl | member
    · decide
    · exact distinct.behind.2 field member

theorem Behind.names_nodup {body : List Field} (behind : Behind body) (opaqueData : Bool) :
    ((header opaqueData ++ body).map (·.name)).Nodup := by
  rw [List.map_append, List.nodup_append']
  refine ⟨by cases opaqueData <;> decide, behind.1, ?_⟩
  intro name inHeader inBody
  obtain ⟨field, member, rfl⟩ := List.mem_map.1 inBody
  refine behind.2 field member ?_
  cases opaqueData with
  | true => exact inHeader
  | false => exact List.mem_of_mem_take (i := 2) inHeader

end Field

namespace OperationType

variable {operation base : OperationType} {opaqueData : Bool} {body declared : List Field}

theorem shape_with_data {operation : OperationType} {rest : List Field}
    (fields : operation.fields = [.sender, .nonce, .data] ++ rest) :
    operation.hasOpaqueData = true ∧ operation.body = rest := by
  have opaqueData : operation.hasOpaqueData = true := by
    unfold hasOpaqueData
    rw [fields]
    rfl
  exact ⟨opaqueData, by rw [body, headerLength, if_pos opaqueData, fields]; rfl⟩

theorem shape_without_data {operation : OperationType} {rest : List Field}
    (fields : operation.fields = [.sender, .nonce] ++ rest)
    (names : ∀ field ∈ rest, field.name ≠ Field.data.name) :
    operation.hasOpaqueData = false ∧ operation.body = rest := by
  have clear : operation.hasOpaqueData = false := by
    unfold hasOpaqueData
    rw [fields]
    cases rest with
    | nil => rfl
    | cons field others => exact beq_eq_false_iff_ne.2 (names field List.mem_cons_self)
  exact ⟨clear, by rw [body, headerLength, if_neg (by simp [clear]), fields]; rfl⟩

/-- The fields are a header and a body that is not named like it. -/
def Lists (operation : OperationType) (opaqueData : Bool) (body : List Field) : Prop :=
  operation.fields = Field.header opaqueData ++ body ∧ Field.Behind body

/-- The header is found again by the name at its third place. -/
theorem Lists.parts (lists : operation.Lists opaqueData body) :
    operation.hasOpaqueData = opaqueData
      ∧ operation.headerLength = (Field.header opaqueData).length ∧ operation.body = body := by
  obtain ⟨fields, behind⟩ := lists
  cases opaqueData with
  | true =>
    obtain ⟨found, rest⟩ := shape_with_data fields
    exact ⟨found, by simp [headerLength, found, Field.header], rest⟩
  | false =>
    have unlike : ∀ field ∈ body, field.name ≠ Field.data.name := by
      intro field member same
      exact behind.2 field member (same ▸ by decide)
    obtain ⟨found, rest⟩ := shape_without_data fields unlike
    exact ⟨found, by simp [headerLength, found, Field.header], rest⟩

theorem Lists.names_nodup (lists : operation.Lists opaqueData body) :
    (operation.fields.map (·.name)).Nodup :=
  lists.1 ▸ lists.2.names_nodup opaqueData

theorem lists_of_withHeader (headed : Field.withHeader declared = .ok base.fields) :
    base.Lists (declared.any (·.type.isVariable)) declared := by
  obtain ⟨distinct, fields⟩ := Field.withHeader_eq_ok.1 headed
  exact ⟨fields, distinct.behind⟩

/-- The variant with a destination has the same header, and the destination begins its body. -/
theorem Lists.proxied (lists : base.Lists opaqueData declared)
    (distinct : Field.Distinct declared) :
    ∃ variant, base.proxied = .ok variant
      ∧ variant.Lists opaqueData (Field.destination :: declared)
      ∧ variant.key = base.key ++ "Proxied" ∧ variant.target = base.target
      ∧ variant.selector = base.selector := by
  have without : base.fields.any (·.name = Field.destination.name) = false := by
    rw [lists.1, List.any_append, Bool.or_eq_false_iff]
    refine ⟨by cases opaqueData <;> decide, ?_⟩
    simp only [List.any_eq_false, decide_eq_true_eq]
    intro field member same
    exact distinct.1 field member (same ▸ by decide)
  obtain ⟨-, length, body⟩ := lists.parts
  unfold OperationType.proxied
  rw [if_neg (by simp [without])]
  refine ⟨_, rfl, ⟨?_, distinct.destination_behind⟩, rfl, rfl, rfl⟩
  simp only [length, body, lists.1, List.take_left']

theorem proxied_of_destination (lists : operation.Lists opaqueData (Field.destination :: declared)) :
    operation.proxied = .error (.duplicateField Field.destination.name) := by
  have found : operation.fields.any (·.name = Field.destination.name) = true := by
    rw [lists.1, List.any_append]
    simp
  unfold OperationType.proxied
  rw [if_pos found]

theorem isProxied_of_declared (distinct : Field.Distinct declared)
    (body : base.body = declared) : base.isProxied = false := by
  unfold isProxied
  rw [body]
  cases declared with
  | nil => rfl
  | cons field rest =>
    refine beq_eq_false_iff_ne.2 fun same => ?_
    exact distinct.1 field List.mem_cons_self (same ▸ by decide)

/-- A list of declared fields is refused at its first clash and stands behind its header otherwise;
an operation type built from it gives the list back as its body, and takes a destination before the
list once. -/
theorem field_lists_keep_shape (declared : List Field) :
    (∀ error, Field.withHeader declared = .error error
        ↔ ∃ field, Field.FirstClash declared field ∧ error = .duplicateField field.name) ∧
    (∀ fields, Field.withHeader declared = .ok fields
        ↔ Field.Distinct declared ∧ fields = [.sender, .nonce]
            ++ (if ∃ field ∈ declared, field.type.isVariable then [.data] else []) ++ declared) ∧
    ∀ key target selector base, ofDeclared key declared target selector = .ok base →
      Field.withHeader declared = .ok base.fields ∧ (base.fields.map (·.name)).Nodup ∧
      (base.hasOpaqueData = true ↔ ∃ field ∈ declared, field.type.isVariable) ∧
      base.body = declared ∧ base.isProxied = false ∧
      ∃ variant, base.proxied = .ok variant ∧ variant.key = base.key ++ "Proxied" ∧
        variant.headerLength = base.headerLength ∧
        variant.target = base.target ∧ variant.selector = base.selector ∧
        variant.body = Field.destination :: declared ∧ variant.isProxied = true ∧
        (variant.fields.map (·.name)).Nodup ∧
        variant.proxied = .error (.duplicateField Field.destination.name) := by
  refine ⟨fun error => Field.withHeader_eq_error, ?_, ?_⟩
  · intro fields
    rw [Field.withHeader_eq_ok, Field.header]
    simp only [List.any_eq_true]
  · intro key target selector base built
    obtain ⟨fields, headed, same⟩ := bind_eq_ok.1 built
    cases same
    obtain ⟨distinct, -⟩ := Field.withHeader_eq_ok.1 headed
    have lists : Lists ⟨key, fields, target, selector⟩ _ declared := lists_of_withHeader headed
    obtain ⟨opaqueData, length, body⟩ := lists.parts
    obtain ⟨variant, made, variantLists, sameKey, sameTarget, sameSelector⟩ := lists.proxied distinct
    obtain ⟨-, variantLength, variantBody⟩ := variantLists.parts
    have proxied : variant.isProxied = true := by
      unfold isProxied
      rw [variantBody]
      exact beq_self_eq_true _
    refine ⟨headed, lists.names_nodup, ?_, body, isProxied_of_declared distinct body, variant, made,
      sameKey, variantLength.trans length.symm, sameTarget, sameSelector, variantBody, proxied,
      variantLists.names_nodup, proxied_of_destination variantLists⟩
    rw [opaqueData, List.any_eq_true]

/-- A record with a text has opaque data. -/
theorem field_lists_keep_shape_record :
    ∃ base, ofDeclared "Note" [⟨"id", .fixedBytes 32⟩, ⟨"text", .string⟩] 1 2 = .ok base ∧
      base.hasOpaqueData = true ∧ base.body = [⟨"id", .fixedBytes 32⟩, ⟨"text", .string⟩] ∧
      ∃ variant, base.proxied = .ok variant ∧ variant.isProxied = true := by
  obtain ⟨-, -, shape⟩ := field_lists_keep_shape [⟨"id", .fixedBytes 32⟩, ⟨"text", .string⟩]
  obtain ⟨-, -, opaqueData, body, -, variant, made, -, -, -, -, -, proxied, -⟩ :=
    shape "Note" 1 2 _ rfl
  exact ⟨_, rfl, opaqueData.2 (by decide), body, variant, made, proxied⟩

end OperationType

end GaslessRelay

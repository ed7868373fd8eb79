import GaslessRelay.Dispatch.Interface
import GaslessRelay.Proofs.Outcome
import Mathlib.Tactic.SplitIfs

/-!
What a JSON interface describes. A function is its name and the types of its parameters, which are
trees of tuples; whatever else the interface holds does not count. Main statements: an interface is
read exactly as the signatures of the functions that it describes (`functionSignatures_eq_ok`), and
cannot be read exactly if one of its functions is malformed (`functionSignatures_isError`).
-/

namespace GaslessRelay

open Outcome

namespace Json

variable {members : List (String × Json)} {name : String} {value : Json}

theorem sizeOf_lookup? (found : lookup? members name = some value) :
    sizeOf value < sizeOf members := by
  induction members with
  | nil => cases found
  | cons member rest ih =>
    obtain ⟨key, held⟩ := member
    unfold lookup? at found
    split_ifs at found
    · cases found
      simp only [List.cons.sizeOf_spec, Prod.mk.sizeOf_spec]
      omega
    · have inRest := ih found
      simp only [List.cons.sizeOf_spec]
      omega

/-- What holds of a value as soon as it holds of the items of its members holds of all values. -/
theorem memberInduction {motive : Json → Prop}
    (step : ∀ json, (∀ name items item, json.member? name = some (.array items) → item ∈ items →
      motive item) → motive json) (json : Json) : motive json := by
  apply step
  intro name items item held inside
  have smaller : sizeOf item < sizeOf json := by
    cases json with
    | object members =>
      have found := sizeOf_lookup? held
      have member := List.sizeOf_lt_of_mem inside
      simp only [array.sizeOf_spec, object.sizeOf_spec] at found ⊢
      omega
    | _ => cases held
  exact memberInduction step item
termination_by sizeOf json

end Json

namespace Dispatch

/-- The type of a parameter: a plain type by its name, or a tuple of types with an array suffix. -/
inductive ParameterTree where
  | named (name : String)
  | tuple (components : List ParameterTree) (suffix : String)

namespace ParameterTree

mutual

/-- The type as it stands in a signature. -/
def text : ParameterTree → String
  | named name => name
  | tuple components suffix => "(" ++ String.intercalate "," (texts components) ++ ")" ++ suffix

def texts : List ParameterTree → List String
  | [] => []
  | tree :: rest => tree.text :: texts rest

end

theorem texts_eq_map (trees : List ParameterTree) : texts trees = trees.map text := by
  induction trees with
  | nil => rfl
  | cons tree rest ih => rw [texts, ih, List.map_cons]

theorem text_tuple (components : List ParameterTree) (suffix : String) :
    (tuple components suffix).text
      = "(" ++ String.intercalate "," (components.map text) ++ ")" ++ suffix := by
  rw [text, texts_eq_map]

end ParameterTree

/-- A JSON value describes a parameter of a type. -/
inductive Describes : Json → ParameterTree → Prop where
  | named {parameter : Json} {name : String}
      (type : parameter.member? "type" = some (.string name))
      (plain : ¬"tuple".toList <+: name.toList) : Describes parameter (.named name)
  | tuple {parameter : Json} {suffix : String} {items : List Json}
      {components : List ParameterTree}
      (type : parameter.member? "type" = some (.string ("tuple" ++ suffix)))
      (held : parameter.member? "components" = some (.array items))
      (each : List.Forall₂ Describes items components) :
      Describes parameter (.tuple components suffix)

/-- A JSON value, or one of its components at any depth, describes no parameter. -/
inductive Malformed : Json → Prop where
  | typeless {parameter : Json}
      (none : ∀ name, parameter.member? "type" ≠ some (.string name)) : Malformed parameter
  | bare {parameter : Json} {suffix : String}
      (type : parameter.member? "type" = some (.string ("tuple" ++ suffix)))
      (none : ∀ items, parameter.member? "components" ≠ some (.array items)) :
      Malformed parameter
  | component {parameter item : Json} {suffix : String} {items : List Json}
      (type : parameter.member? "type" = some (.string ("tuple" ++ suffix)))
      (held : parameter.member? "components" = some (.array items)) (inside : item ∈ items)
      (malformed : Malformed item) : Malformed parameter

/-- A function: its name and the types of its parameters. -/
structure FunctionType where
  name : String
  parameters : List ParameterTree

def FunctionType.signature (function : FunctionType) : String :=
  function.name ++ "(" ++ String.intercalate "," (function.parameters.map ParameterTree.text) ++ ")"

/-- An entry of an interface describes a function. -/
inductive DescribesFunction (entry : Json) : FunctionType → Prop where
  | bare {name : String} (named : entry.member? "name" = some (.string name))
      (none : entry.member? "inputs" = none) : DescribesFunction entry ⟨name, []⟩
  | given {name : String} {inputs : List Json} {parameters : List ParameterTree}
      (named : entry.member? "name" = some (.string name))
      (held : entry.member? "inputs" = some (.array inputs))
      (each : List.Forall₂ Describes inputs parameters) :
      DescribesFunction entry ⟨name, parameters⟩

/-- An entry of an interface describes no function. -/
inductive MalformedFunction (entry : Json) : Prop where
  | nameless (none : ∀ name, entry.member? "name" ≠ some (.string name))
  | badInputs {value : Json} (held : entry.member? "inputs" = some value)
      (other : ∀ inputs, value ≠ .array inputs)
  | parameter {inputs : List Json} {parameter : Json}
      (held : entry.member? "inputs" = some (.array inputs)) (inside : parameter ∈ inputs)
      (malformed : Malformed parameter)

/-- An artifact holds the entries of an interface: it is their array, or has it as `abi`. -/
def Holds (artifact : Json) (entries : List Json) : Prop :=
  artifact = .array entries ∨ artifact.member? "abi" = some (.array entries)

/-- The function entries of an artifact describe these functions. -/
def DescribesFunctions (artifact : Json) (functions : List FunctionType) : Prop :=
  ∃ entries, Holds artifact entries ∧
    List.Forall₂ DescribesFunction (entries.filter isFunction) functions

/-- An artifact holds no entries, or a function entry that describes no function. -/
def MalformedInterface (artifact : Json) : Prop :=
  (∀ entries, ¬Holds artifact entries) ∨
    ∃ entries entry, Holds artifact entries ∧ entry ∈ entries ∧
      entry.member? "type" = some (.string "function") ∧ MalformedFunction entry

theorem parameterTypes_eq (parameters : List Json) :
    parameterTypes parameters = parameters.mapM parameterType := by
  induction parameters with
  | nil => rfl
  | cons parameter rest ih => rw [parameterTypes, ih, List.mapM_cons]

theorem componentTypes_held {members : List (String × Json)} {items : List Json}
    (held : Json.lookup? members "components" = some (.array items)) :
    componentTypes members = items.mapM parameterType := by
  induction members with
  | nil => cases held
  | cons member rest ih =>
    obtain ⟨name, value⟩ := member
    unfold Json.lookup? at held
    unfold componentTypes
    split_ifs at held ⊢
    · cases held
      exact parameterTypes_eq items
    · exact ih held

theorem componentTypes_none {members : List (String × Json)}
    (none : ∀ items, Json.lookup? members "components" ≠ some (.array items)) :
    componentTypes members = .error .tupleWithoutComponents := by
  induction members with
  | nil => rfl
  | cons member rest ih =>
    obtain ⟨name, value⟩ := member
    unfold Json.lookup? at none
    unfold componentTypes
    split_ifs at none ⊢
    · cases value with
      | array items => exact absurd rfl (none items)
      | _ => rfl
    · exact ih none

section

variable {parameter : Json} {name suffix : String} {items : List Json}

/-- What `type` may be: no text, a plain type, or a tuple. -/
theorem type_cases (parameter : Json) :
    (∀ name, parameter.member? "type" ≠ some (.string name)) ∨
    (∃ name, parameter.member? "type" = some (.string name) ∧ ¬"tuple".toList <+: name.toList) ∨
    ∃ suffix, parameter.member? "type" = some (.string ("tuple" ++ suffix)) := by
  by_cases text : ∃ name, parameter.member? "type" = some (.string name)
  · obtain ⟨name, type⟩ := text
    refine .inr ?_
    by_cases tuple : "tuple".toList <+: name.toList
    · obtain ⟨suffix, parted⟩ := tuple
      have same : name = "tuple" ++ String.ofList suffix := by
        apply String.toList_inj.1
        rw [String.toList_append, @String.toList_ofList suffix, parted]
      exact .inr ⟨String.ofList suffix, by rw [type, same]⟩
    · exact .inl ⟨name, type, tuple⟩
  · exact .inl fun name type => text ⟨name, type⟩

theorem parameterType_typeless (none : ∀ name, parameter.member? "type" ≠ some (.string name)) :
    parameterType parameter = .error .typelessParameter := by
  cases parameter with
  | object members =>
    rw [parameterType]
    split
    · rename_i type found
      exact absurd found (none type)
    · rfl
  | _ => rfl

theorem parameterType_plain (type : parameter.member? "type" = some (.string name))
    (plain : ¬"tuple".toList <+: name.toList) : parameterType parameter = .ok name := by
  have rest : Text.dropStart? "tuple".toList name.toList = none := by
    rw [Option.eq_none_iff_forall_ne_some]
    intro suffix found
    exact plain ⟨suffix, (Text.dropStart?_eq_some.1 found).symm⟩
  cases parameter with
  | object members =>
    have found : Json.lookup? members "type" = some (.string name) := type
    rw [parameterType, found]
    dsimp only
    rw [rest]
  | _ => cases type

theorem parameterType_components {members : List (String × Json)}
    (type : Json.lookup? members "type" = some (.string ("tuple" ++ suffix))) :
    parameterType (.object members)
      = (fun types => "(" ++ String.intercalate "," types ++ ")" ++ suffix) <$>
        componentTypes members := by
  have rest : Text.dropStart? "tuple".toList ("tuple" ++ suffix).toList = some suffix.toList := by
    rw [Text.dropStart?_eq_some, String.toList_append]
  rw [parameterType, type]
  dsimp only
  rw [rest]
  dsimp only
  rw [String.ofList_toList]
  rfl

theorem parameterType_tuple (type : parameter.member? "type" = some (.string ("tuple" ++ suffix)))
    (held : parameter.member? "components" = some (.array items)) :
    parameterType parameter
      = (fun types => "(" ++ String.intercalate "," types ++ ")" ++ suffix) <$>
        items.mapM parameterType := by
  cases parameter with
  | object members => rw [parameterType_components type, componentTypes_held held]
  | _ => cases type

theorem parameterType_bare (type : parameter.member? "type" = some (.string ("tuple" ++ suffix)))
    (none : ∀ items, parameter.member? "components" ≠ some (.array items)) :
    parameterType parameter = .error .tupleWithoutComponents := by
  cases parameter with
  | object members => rw [parameterType_components type, componentTypes_none none, map_error]
  | _ => cases type

theorem tuple_leads : "tuple".toList <+: ("tuple" ++ suffix).toList :=
  ⟨suffix.toList, String.toList_append.symm⟩

theorem describes_plain_iff (type : parameter.member? "type" = some (.string name))
    (plain : ¬"tuple".toList <+: name.toList) {tree : ParameterTree} :
    Describes parameter tree ↔ tree = .named name := by
  constructor
  · rintro (⟨type', -⟩ | ⟨type', -, -⟩)
    · cases type.symm.trans type'
      rfl
    · cases type.symm.trans type'
      exact absurd tuple_leads plain
  · rintro rfl
    exact .named type plain

theorem describes_tuple_iff (type : parameter.member? "type" = some (.string ("tuple" ++ suffix)))
    {tree : ParameterTree} :
    Describes parameter tree ↔ ∃ items components,
      parameter.member? "components" = some (.array items) ∧
      List.Forall₂ Describes items components ∧ tree = .tuple components suffix := by
  constructor
  · rintro (⟨type', plain⟩ | @⟨_, suffix', items, components, type', held, each⟩)
    · cases type.symm.trans type'
      exact absurd tuple_leads plain
    · have same : "tuple" ++ suffix = "tuple" ++ suffix' :=
        Json.string.inj (Option.some.inj (type.symm.trans type'))
      rw [(String.append_right_inj "tuple").1 same]
      exact ⟨items, components, held, each, rfl⟩
  · rintro ⟨items, components, held, each, rfl⟩
    exact .tuple type held each

theorem not_malformed_plain (type : parameter.member? "type" = some (.string name))
    (plain : ¬"tuple".toList <+: name.toList) : ¬Malformed parameter := by
  rintro (none | ⟨type', -⟩ | ⟨type', -, -, -⟩)
  · exact none name type
  · cases type.symm.trans type'
    exact plain tuple_leads
  · cases type.symm.trans type'
    exact plain tuple_leads

theorem malformed_tuple_iff (type : parameter.member? "type" = some (.string ("tuple" ++ suffix)))
    (held : parameter.member? "components" = some (.array items)) :
    Malformed parameter ↔ ∃ item ∈ items, Malformed item := by
  constructor
  · rintro (none | ⟨-, none⟩ | ⟨-, held', inside, malformed⟩)
    · exact absurd type (none _)
    · exact absurd held (none _)
    · cases held.symm.trans held'
      exact ⟨_, inside, malformed⟩
  · rintro ⟨item, inside, malformed⟩
    exact .component type held inside malformed

end

/-- A parameter is read as its type, by induction on what it holds. -/
theorem parameterType_eq_ok (parameter : Json) : ∀ text, parameterType parameter = .ok text ↔
    ∃ tree, Describes parameter tree ∧ tree.text = text := by
  induction parameter using Json.memberInduction with
  | step parameter ih =>
    intro text
    rcases type_cases parameter with none | ⟨name, type, plain⟩ | ⟨suffix, type⟩
    · rw [parameterType_typeless none]
      constructor
      · rintro ⟨⟩
      · rintro ⟨_, ⟨type, -⟩ | ⟨type, -, -⟩, -⟩
        · exact absurd type (none _)
        · exact absurd type (none _)
    · simp [parameterType_plain type plain, describes_plain_iff type plain, ParameterTree.text]
    · by_cases components : ∃ items, parameter.member? "components" = some (.array items)
      · obtain ⟨items, held⟩ := components
        have each := @mapM_eq_ok_of_each _ _ _ _ items parameterType Describes ParameterTree.text
          (fun item inside => ih "components" items item held inside)
        rw [parameterType_tuple type held, map_eq_ok]
        simp only [describes_tuple_iff type, each]
        constructor
        · rintro ⟨_, ⟨trees, describes, rfl⟩, rfl⟩
          exact ⟨_, ⟨items, trees, held, describes, rfl⟩, ParameterTree.text_tuple trees suffix⟩
        · rintro ⟨_, ⟨items', trees, held', describes, rfl⟩, rfl⟩
          cases held.symm.trans held'
          exact ⟨_, ⟨trees, describes, rfl⟩, (ParameterTree.text_tuple trees suffix).symm⟩
      · have none := not_exists.1 components
        rw [parameterType_bare type none]
        simp only [describes_tuple_iff type]
        constructor
        · rintro ⟨⟩
        · rintro ⟨_, ⟨items, _, held, -⟩, -⟩
          exact absurd held (none items)

theorem parameterType_isError (parameter : Json) :
    (∃ fault, parameterType parameter = .error fault) ↔ Malformed parameter := by
  induction parameter using Json.memberInduction with
  | step parameter ih =>
    rcases type_cases parameter with none | ⟨name, type, plain⟩ | ⟨suffix, type⟩
    · exact iff_of_true ⟨_, parameterType_typeless none⟩ (.typeless none)
    · simp [parameterType_plain type plain, not_malformed_plain type plain]
    · by_cases components : ∃ items, parameter.member? "components" = some (.array items)
      · obtain ⟨items, held⟩ := components
        simp only [parameterType_tuple type held, map_eq_error, mapM_isError,
          malformed_tuple_iff type held]
        exact exists_congr fun item => and_congr_right fun inside =>
          ih "components" items item held inside
      · have none := not_exists.1 components
        exact iff_of_true ⟨_, parameterType_bare type none⟩ (.bare type none)

section

variable {entry artifact : Json}

/-- What `inputs` may be: absent, parameters, or anything else. -/
theorem inputs_cases (entry : Json) :
    entry.member? "inputs" = none ∨
    (∃ inputs, entry.member? "inputs" = some (.array inputs)) ∨
    ∃ value, entry.member? "inputs" = some value ∧ ∀ inputs, value ≠ .array inputs := by
  rcases held : entry.member? "inputs" with _ | value
  · exact .inl rfl
  · by_cases array : ∃ inputs, value = .array inputs
    · obtain ⟨inputs, rfl⟩ := array
      exact .inr (.inl ⟨inputs, rfl⟩)
    · exact .inr (.inr ⟨value, rfl, not_exists.1 array⟩)

theorem functionSignature_nameless
    (none : ∀ name, entry.member? "name" ≠ some (.string name)) :
    functionSignature entry = .error .namelessFunction := by
  unfold functionSignature
  split
  · rename_i name named
    exact absurd named (none name)
  · rfl

section

variable {name : String} (named : entry.member? "name" = some (.string name))
include named

theorem functionSignature_bare (none : entry.member? "inputs" = none) :
    functionSignature entry = .ok (FunctionType.signature ⟨name, []⟩) := by
  unfold functionSignature
  rw [named, none]
  rfl

theorem functionSignature_given {inputs : List Json}
    (held : entry.member? "inputs" = some (.array inputs)) :
    functionSignature entry
      = (fun types => name ++ "(" ++ String.intercalate "," types ++ ")") <$>
        inputs.mapM parameterType := by
  unfold functionSignature
  rw [named, held, ← parameterTypes_eq]
  rfl

theorem functionSignature_badInputs {value : Json} (held : entry.member? "inputs" = some value)
    (other : ∀ inputs, value ≠ .array inputs) :
    functionSignature entry = .error (.badInputs name) := by
  unfold functionSignature
  rw [named, held]
  cases value with
  | array inputs => exact absurd rfl (other inputs)
  | _ => rfl

end

/-- An entry is read as the signature of its function. -/
theorem functionSignature_eq_ok (entry : Json) (signature : String) :
    functionSignature entry = .ok signature ↔
      ∃ function, DescribesFunction entry function ∧ function.signature = signature := by
  by_cases text : ∃ name, entry.member? "name" = some (.string name)
  · obtain ⟨name, named⟩ := text
    rcases inputs_cases entry with none | ⟨inputs, held⟩ | ⟨value, held, other⟩
    · rw [functionSignature_bare named none]
      constructor
      · intro same
        exact ⟨_, .bare named none, Except.ok.inj same⟩
      · rintro ⟨_, ⟨named', -⟩ | ⟨-, held, -⟩, rfl⟩
        · cases named.symm.trans named'
          rfl
        · cases none.symm.trans held
    · rw [functionSignature_given named held, map_eq_ok]
      simp only [mapM_eq_ok_of_each fun parameter _ => parameterType_eq_ok parameter]
      constructor
      · rintro ⟨_, ⟨parameters, describes, rfl⟩, rfl⟩
        exact ⟨_, .given named held describes, rfl⟩
      · rintro ⟨_, ⟨-, none⟩ | ⟨named', held', describes⟩, rfl⟩
        · cases held.symm.trans none
        · cases named.symm.trans named'
          cases held.symm.trans held'
          exact ⟨_, ⟨_, describes, rfl⟩, rfl⟩
    · rw [functionSignature_badInputs named held other]
      constructor
      · rintro ⟨⟩
      · rintro ⟨_, ⟨-, none⟩ | ⟨-, held', -⟩, -⟩
        · cases held.symm.trans none
        · exact absurd (Option.some.inj (held.symm.trans held')) (other _)
  · have none := not_exists.1 text
    rw [functionSignature_nameless none]
    constructor
    · rintro ⟨⟩
    · rintro ⟨_, ⟨named, -⟩ | ⟨named, -, -⟩, -⟩
      · exact absurd named (none _)
      · exact absurd named (none _)

theorem functionSignature_isError (entry : Json) :
    (∃ fault, functionSignature entry = .error fault) ↔ MalformedFunction entry := by
  by_cases text : ∃ name, entry.member? "name" = some (.string name)
  · obtain ⟨name, named⟩ := text
    rcases inputs_cases entry with none | ⟨inputs, held⟩ | ⟨value, held, other⟩
    · rw [functionSignature_bare named none]
      refine iff_of_false (by simp) ?_
      rintro (nameless | ⟨held, -⟩ | ⟨held, -, -⟩)
      · exact nameless name named
      · cases none.symm.trans held
      · cases none.symm.trans held
    · simp only [functionSignature_given named held, map_eq_error, mapM_isError,
        parameterType_isError]
      constructor
      · rintro ⟨parameter, inside, malformed⟩
        exact .parameter held inside malformed
      · rintro (nameless | ⟨held', other⟩ | ⟨held', inside, malformed⟩)
        · exact absurd named (nameless name)
        · exact absurd (Option.some.inj (held'.symm.trans held)) (other inputs)
        · cases held.symm.trans held'
          exact ⟨_, inside, malformed⟩
    · exact iff_of_true ⟨_, functionSignature_badInputs named held other⟩ (.badInputs held other)
  · have none := not_exists.1 text
    exact iff_of_true ⟨_, functionSignature_nameless none⟩ (.nameless none)

theorem isFunction_iff : isFunction entry = true ↔
    entry.member? "type" = some (.string "function") := by
  unfold isFunction
  split
  · rename_i type held
    simp [held]
  · rename_i other
    exact iff_of_false Bool.false_ne_true fun held => other _ held

theorem interfaceEntries_eq_ok {entries : List Json} :
    interfaceEntries artifact = .ok entries ↔ Holds artifact entries := by
  unfold Holds
  cases artifact with
  | array items => simp [interfaceEntries, Json.member?]
  | object members =>
    unfold interfaceEntries Json.member?
    dsimp only
    split
    · rename_i items found
      simp [found]
    · rename_i other
      refine iff_of_false nofun ?_
      rintro (⟨⟨⟩⟩ | held)
      exact other _ held
  | _ => simp [interfaceEntries, Json.member?]

/-- The signatures that are read are those of the functions that the interface describes. -/
theorem functionSignatures_eq_ok {signatures : List String} :
    functionSignatures artifact = .ok signatures ↔
      ∃ functions, DescribesFunctions artifact functions ∧
        functions.map FunctionType.signature = signatures := by
  unfold functionSignatures DescribesFunctions
  rw [mapError_eq_ok, bind_eq_ok]
  simp only [interfaceEntries_eq_ok,
    mapM_eq_ok_of_each fun entry _ => functionSignature_eq_ok entry]
  constructor
  · rintro ⟨entries, holds, functions, describes, same⟩
    exact ⟨functions, ⟨entries, holds, describes⟩, same⟩
  · rintro ⟨functions, ⟨entries, holds, describes⟩, same⟩
    exact ⟨entries, holds, functions, describes, same⟩

theorem functionSignatures_isError :
    (∃ error, functionSignatures artifact = .error error) ↔ MalformedInterface artifact := by
  unfold functionSignatures MalformedInterface
  rw [mapError_isError]
  cases read : interfaceEntries artifact with
  | error fault =>
    refine iff_of_true ⟨fault, rfl⟩ (.inl fun entries holds => ?_)
    cases read.symm.trans (interfaceEntries_eq_ok.2 holds)
  | ok entries =>
    have holds := interfaceEntries_eq_ok.1 read
    simp only [ok_bind, mapM_isError, List.mem_filter, isFunction_iff, functionSignature_isError]
    constructor
    · rintro ⟨entry, ⟨inside, function⟩, malformed⟩
      exact .inr ⟨entries, entry, holds, inside, function, malformed⟩
    · rintro (none | ⟨entries', entry, holds', inside, function, malformed⟩)
      · exact absurd holds (none entries)
      · cases read.symm.trans (interfaceEntries_eq_ok.2 holds')
        exact ⟨entry, ⟨inside, function⟩, malformed⟩

end

end Dispatch

end GaslessRelay

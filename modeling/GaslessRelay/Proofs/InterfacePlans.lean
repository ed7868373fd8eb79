import GaslessRelay.Client.ModuleUpgrade
import GaslessRelay.Proofs.DispatchEdits
import GaslessRelay.Proofs.InterfaceReading

/-!
Upgrades planned between interfaces. Main statement: between interfaces of the same functions a plan
only replaces their selectors, and one malformed function makes the whole plan fail
(`plans_follow_functions`).
-/

namespace GaslessRelay

open Outcome

namespace SelectorSet

variable {selector : Selector}

theorem mem_foldl_insert {selectors : List Selector} {set : SelectorSet} :
    selector ∈ (selectors.foldl insert set).toList ↔
      selector ∈ set.toList ∨ selector ∈ selectors := by
  induction selectors generalizing set with
  | nil => simp
  | cons first rest ih =>
    rw [List.foldl_cons, ih, insert, mem_insertInto, List.mem_cons]
    tauto

theorem mem_ofList {selectors : List Selector} :
    selector ∈ (ofList selectors).toList ↔ selector ∈ selectors := by
  rw [ofList, mem_foldl_insert]
  simp [empty]

theorem mem_filter {set : SelectorSet} {keep : Selector → Bool} :
    selector ∈ (set.filter keep).toList ↔ selector ∈ set.toList ∧ keep selector = true :=
  List.mem_filter

/-- Sets with the same members are equal, since both list them in ascending order. -/
theorem eq_of_mem_iff {set other : SelectorSet}
    (same : ∀ selector, selector ∈ set.toList ↔ selector ∈ other.toList) : set = other := by
  have listed : set.toList = other.toList :=
    ((List.perm_ext_iff_of_nodup set.nodup other.nodup).2 same).eq_of_pairwise
      (fun _ _ _ _ below above => absurd above (BitVec.lt_asymm below))
      set.ascending other.ascending
  cases set
  cases other
  cases listed
  rfl

end SelectorSet

namespace UpgradePlan

/-- Between equal sets without introspection there is nothing to add and nothing to remove. -/
theorem edits_between_self {selectors : SelectorSet} (target : Address)
    (unrouted : Dispatch.introspectionSelector ∉ selectors.toList) :
    (between selectors selectors).edits target
      = if selectors.isEmpty then [] else [⟨target, .replace, selectors⟩] := by
  have added : (between selectors selectors).added = .empty :=
    SelectorSet.eq_of_mem_iff fun selector => by simp +contextual [mem_added, SelectorSet.empty]
  have replaced : (between selectors selectors).replaced = selectors := by
    refine SelectorSet.eq_of_mem_iff fun selector => mem_replaced.trans ?_
    exact ⟨And.left, fun member => ⟨member, member, fun same => unrouted (same ▸ member)⟩⟩
  have removed : (between selectors selectors).removed = .empty :=
    SelectorSet.eq_of_mem_iff fun selector => by simp +contextual [mem_removed, SelectorSet.empty]
  have none : SelectorSet.empty.isEmpty = true := rfl
  unfold edits
  rw [added, replaced, removed]
  cases empty : selectors.isEmpty with
  | true => simp [empty, none]
  | false => simp [empty, none]

end UpgradePlan

namespace Dispatch

variable {artifact : Json} {functions : List FunctionType}

theorem functionSignatures_of_describes (describes : DescribesFunctions artifact functions) :
    functionSignatures artifact = .ok (functions.map FunctionType.signature) :=
  functionSignatures_eq_ok.2 ⟨functions, describes, rfl⟩

theorem moduleSelectors_of_describes (describes : DescribesFunctions artifact functions) :
    ∃ selectors, moduleSelectors artifact = .ok selectors ∧
      ∀ selector, selector ∈ selectors.toList ↔ selector ≠ introspectionSelector ∧
        ∃ function ∈ functions, Abi.functionSelector function.signature = selector := by
  refine ⟨_, bind_eq_ok.2 ⟨_, functionSignatures_of_describes describes, rfl⟩, fun selector => ?_⟩
  simp [SelectorSet.mem_filter, SelectorSet.mem_ofList, and_comm]

theorem moduleSelectors_isError :
    (∃ error, moduleSelectors artifact = .error error) ↔ MalformedInterface artifact := by
  unfold moduleSelectors
  rw [bind_isError, functionSignatures_isError]
  simp

theorem plan_isError {earlier : Option Json} {new : Json} {target : Address} :
    (∃ error, ModuleUpgrade.plan earlier new target = .error error) ↔
      (∃ artifact, earlier = some artifact ∧ MalformedInterface artifact) ∨
        MalformedInterface new := by
  unfold ModuleUpgrade.plan UpgradePlan.ofInterfaces
  rw [mapError_isError, ← moduleSelectors_isError]
  cases earlier with
  | none => simp [bind_isError]
  | some artifact =>
    simp only [Option.some.injEq, exists_eq_left', ← moduleSelectors_isError, bind_isError]
    cases moduleSelectors artifact with
    | error error => simp
    | ok selectors => simp

/-- Upgrade plans depend only on the functions that the interfaces describe. Each function is read
as its signature. If two interfaces describe the same functions, in any order and however often,
their selectors are the same, and a plan between them at most replaces these selectors. A plan fails
exactly if one of the interfaces is malformed, wherever the malformed parameter stands. -/
theorem plans_follow_functions (old new : Json) (target : Address) :
    (∀ functions, DescribesFunctions old functions →
      functionSignatures old = .ok (functions.map FunctionType.signature)) ∧
    (∀ functions functions', DescribesFunctions old functions →
      DescribesFunctions new functions' →
      (∀ function, function ∈ functions ↔ function ∈ functions') →
      ∃ selectors, moduleSelectors old = .ok selectors ∧ moduleSelectors new = .ok selectors ∧
        (∀ selector, selector ∈ selectors.toList ↔ selector ≠ introspectionSelector ∧
          ∃ function ∈ functions, Abi.functionSelector function.signature = selector) ∧
        ModuleUpgrade.plan (some old) new target
          = .ok (if selectors.isEmpty then [] else [⟨target, .replace, selectors⟩])) ∧
    ∀ earlier : Option Json,
      (∃ error, ModuleUpgrade.plan earlier new target = .error error) ↔
        (∃ artifact, earlier = some artifact ∧ MalformedInterface artifact) ∨
          MalformedInterface new := by
  refine ⟨fun _ => functionSignatures_of_describes, ?_, fun _ => plan_isError⟩
  intro functions functions' describesOld describesNew same
  obtain ⟨selectors, readOld, membersOld⟩ := moduleSelectors_of_describes describesOld
  obtain ⟨selectors', readNew, membersNew⟩ := moduleSelectors_of_describes describesNew
  have equal : selectors = selectors' := SelectorSet.eq_of_mem_iff fun selector => by
    simp only [membersOld, membersNew, same]
  subst equal
  refine ⟨selectors, readOld, readNew, membersOld, ?_⟩
  have unrouted : introspectionSelector ∉ selectors.toList := fun member =>
    ((membersOld _).1 member).1 rfl
  rw [← UpgradePlan.edits_between_self target unrouted]
  unfold ModuleUpgrade.plan UpgradePlan.ofInterfaces
  simp only [readOld, readNew]
  rfl

/-- A function with a nested tuple, once beside an event and introspection, once twice in an
artifact that names its parameters otherwise. -/
theorem plans_follow_functions_reordered :
    let parameter (name type : String) : Json :=
      .object [("name", .string name), ("type", .string type)]
    let tuple (suffix : String) (components : List Json) : Json :=
      .object [("components", .array components), ("type", .string ("tuple" ++ suffix))]
    let function (name : String) (inputs : List Json) : Json :=
      .object [("inputs", .array inputs), ("name", .string name), ("type", .string "function")]
    let submit (data : Json) : Json :=
      function "submit" [tuple "[]" [parameter "to" "address", tuple "[2]" [data]]]
    let old : Json := .array [.object [("type", .string "event")],
      function "supportsInterface" [parameter "id" "bytes4"], submit (parameter "data" "bytes")]
    let new : Json := .object [("name", .string "Registry"), ("abi", .array
      [submit (parameter "payload" "bytes"), function "supportsInterface" [parameter "" "bytes4"],
        submit (parameter "" "bytes")])]
    functionSignatures old
      = .ok ["supportsInterface(bytes4)", "submit((address,(bytes)[2])[])"] ∧
    (∃ selectors, moduleSelectors old = .ok selectors ∧ moduleSelectors new = .ok selectors ∧
      ModuleUpgrade.plan (some old) new 7 = .ok [⟨7, .replace, selectors⟩]) ∧
    ∃ error, ModuleUpgrade.plan (some old) (.array [submit (.object [])]) 7 = .error error := by
  intro parameter tuple function submit old new
  let bytes4 : ParameterTree := .named "bytes4"
  let nested : ParameterTree := .tuple [.named "address", .tuple [.named "bytes"] "[2]"] "[]"
  have supports (name : String) :
      DescribesFunction (function "supportsInterface" [parameter name "bytes4"])
        ⟨"supportsInterface", [bytes4]⟩ :=
    .given rfl rfl (.cons (.named rfl (by decide)) .nil)
  have submits (name : String) :
      DescribesFunction (submit (parameter name "bytes")) ⟨"submit", [nested]⟩ :=
    .given rfl rfl (.cons (.tuple rfl rfl (.cons (.named rfl (by decide)) (.cons
      (.tuple rfl rfl (.cons (.named rfl (by decide)) .nil)) .nil))) .nil)
  have describesOld : DescribesFunctions old
      [⟨"supportsInterface", [bytes4]⟩, ⟨"submit", [nested]⟩] :=
    ⟨_, .inl rfl, .cons (supports _) (.cons (submits _) .nil)⟩
  have describesNew : DescribesFunctions new
      [⟨"submit", [nested]⟩, ⟨"supportsInterface", [bytes4]⟩, ⟨"submit", [nested]⟩] :=
    ⟨_, .inr rfl, .cons (submits _) (.cons (supports _) (.cons (submits _) .nil))⟩
  obtain ⟨signed, replaced, -⟩ := plans_follow_functions old new 7
  obtain ⟨selectors, readOld, readNew, members, planned⟩ :=
    replaced _ _ describesOld describesNew (by simp [or_comm])
  refine ⟨(signed _ describesOld).trans rfl, ⟨selectors, readOld, readNew, ?_⟩, ?_⟩
  · have member : Abi.functionSelector "submit((address,(bytes)[2])[])" ∈ selectors.toList :=
      (members _).2 ⟨by decide +kernel, ⟨"submit", [nested]⟩, by simp, rfl⟩
    have inhabited : selectors.isEmpty = false :=
      List.isEmpty_eq_false_iff_exists_mem.2 ⟨_, member⟩
    rw [planned, inhabited]
    rfl
  · refine ((plans_follow_functions old (.array [submit (.object [])]) 7).2.2 (some old)).2
      (.inr (.inr ⟨_, submit (.object []), .inl rfl, by simp, rfl, ?_⟩))
    exact .parameter rfl List.mem_cons_self (.component rfl rfl (.tail _ (.head _))
      (.component rfl rfl (.head _) (.typeless nofun)))

end Dispatch

end GaslessRelay

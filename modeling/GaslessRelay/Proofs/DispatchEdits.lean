import GaslessRelay.Proofs.OwnedCalls
import GaslessRelay.Proofs.TableChanges

/-!
Edits of the dispatch table. The relay reads back the edits that a client spells in calldata
(`edits_survive_calldata`), and the edits between two versions of a module move its selectors from
the old version to the new one (`applyEdits_between`).
-/

namespace GaslessRelay

open Bytes (StandsAt)
open Machine (checked_ok product_eq_ok room_eq_ok sum_eq_ok)
open Outcome

theorem SelectorSet.nodup (set : SelectorSet) : set.toList.Nodup :=
  set.ascending.imp fun below => BitVec.ne_of_lt below

namespace Chain

def editValue (edit : DispatchEdit) : WireEdit :=
  ⟨edit.target, edit.action.number, edit.selectors.toList⟩

theorem selectorsOf_map (selectors : List Selector) :
    selectorsOf (selectors.map AbiValue.ofSelector) = selectors := by
  induction selectors with
  | nil => rfl
  | cons selector rest ih =>
    have read : (selector.setWidth 256 <<< 224).extractLsb' 224 32 = selector := by
      ext index bound
      have inWord : 224 + index < 256 ∧ index < 256 ∧ ¬224 + index < 224 := by omega
      simp [inWord, BitVec.getLsbD_eq_getElem bound]
    simp only [List.map_cons, AbiValue.ofSelector, selectorsOf, read]
    exact congrArg _ ih

variable {data : Bytes}

theorem encodeValue_toAbi (edit : DispatchEdit) :
    Abi.encodeValue edit.toAbi
      = wordBytes (edit.target.setWidth 256) ++ (Abi.numberWord edit.action.number ++
          (Abi.numberWord 96 ++
            Abi.encodeValue (.array (edit.selectors.toList.map AbiValue.ofSelector)))) := by
  simp [DispatchEdit.toAbi, Abi.encodeValue, Abi.encodeParts, Abi.assemble, Abi.heads, Abi.tails,
    Abi.headLength, AbiValue.isDynamic, AbiValue.headSize, AbiValue.ofNat, Abi.numberWord]

theorem editAt_of_standsAt (small : data.length < Text.wordLimit) {edit : DispatchEdit}
    {place : Nat} (stands : StandsAt (Abi.encodeValue edit.toAbi) data place) :
    editAt data place = .ok (editValue edit) := by
  rw [encodeValue_toAbi] at stands
  have number := stands.right.left
  have offset := stands.right.right.left
  have array := stands.right.right.right
  rw [length_wordBytes] at number offset array
  rw [Abi.length_numberWord, Nat.add_assoc] at offset array
  rw [Abi.length_numberWord, Nat.add_assoc] at array
  have target := Abi.addressAt_eq_ok stands.left
  have action : Abi.decodeAt data (.uint 8) (place + 32) = .ok (.ofNat edit.action.number) := by
    refine Abi.readsBack small (by simp [AbiType.Valid]) _ _ ?_ number
    cases edit.action <;> simp [AbiValue.ofNat, AbiValue.HasType, DispatchAction.number]
  have typed : (AbiValue.array (edit.selectors.toList.map AbiValue.ofSelector)).HasType
      (.array (.fixedBytes 4)) := by
    refine AbiValue.allHaveType_iff.2 fun item member => ?_
    obtain ⟨selector, -, rfl⟩ := List.mem_map.1 member
    exact AbiValue.hasType_ofSelector selector
  have selectors := Abi.readsBack small (by simp [AbiType.Valid]) _ _ typed array
  have kind : (BitVec.ofNat 256 edit.action.number).toNat = edit.action.number := by
    cases edit.action <;> rfl
  have within := array.length_le
  unfold editAt
  rw [target, sum_eq_ok (by omega), sum_eq_ok (by omega), checked_ok, ok_bind, ok_bind, action,
    checked_ok, ok_bind, ok_bind, Abi.offsetAt_eq_ok offset (by decide), checked_ok, ok_bind,
    sum_eq_ok (by omega), ok_bind, selectors, checked_ok, ok_bind]
  simp only [AbiValue.ofNat, selectorsOf_map, kind, pure_eq_ok, editValue]

/-- The edits are read back from their offsets, and the tails that they lead to. The induction is on
the edits; the offset of the next tail moves on with each of them. -/
theorem editsFrom_of_standsAt (small : data.length < Text.wordLimit) {base : Nat}
    {edits : List DispatchEdit} {index tailOffset : Nat}
    (headsStand : StandsAt (Abi.heads tailOffset (Abi.encodeParts (edits.map DispatchEdit.toAbi)))
      data (base + index * 32))
    (tailsStand : StandsAt (Abi.tails (Abi.encodeParts (edits.map DispatchEdit.toAbi))) data
      (base + tailOffset)) :
    editsFrom data base edits.length index = .ok (edits.map editValue) := by
  induction edits generalizing index tailOffset with
  | nil => rfl
  | cons edit rest ih =>
    have dynamic : edit.toAbi.isDynamic = true := rfl
    simp only [List.map_cons, Abi.encodeParts, Abi.heads, Abi.tails, if_pos dynamic]
      at headsStand tailsStand
    have others := headsStand.right
    rw [Abi.length_numberWord, Nat.add_assoc, ← Nat.succ_mul] at others
    have otherTails := tailsStand.right
    rw [Nat.add_assoc] at otherTails
    have placed := tailsStand.left.length_le
    have head := headsStand.left.length_le
    rw [List.length_cons, editsFrom, product_eq_ok (by omega), ok_bind, sum_eq_ok (by omega),
      ok_bind, Abi.offsetAt_eq_ok headsStand.left (by omega), checked_ok, ok_bind,
      sum_eq_ok (by omega), ok_bind, editAt_of_standsAt small tailsStand.left, ok_bind,
      ih others otherTails]
    rfl

theorem headLength_edits (edits : List DispatchEdit) :
    Abi.headLength (Abi.encodeParts (edits.map DispatchEdit.toAbi)) = 32 * edits.length := by
  induction edits with
  | nil => rfl
  | cons edit rest ih =>
    have dynamic : edit.toAbi.isDynamic = true := rfl
    rw [List.map_cons, Abi.encodeParts, Abi.headLength_cons, ih, if_pos dynamic, List.length_cons]
    dsimp only
    omega

theorem length_tails_edits (edits : List DispatchEdit) :
    128 * edits.length ≤ (Abi.tails (Abi.encodeParts (edits.map DispatchEdit.toAbi))).length := by
  induction edits with
  | nil => exact Nat.le_refl 0
  | cons edit rest ih =>
    have dynamic : edit.toAbi.isDynamic = true := rfl
    rw [List.map_cons, Abi.encodeParts, Abi.tails, if_pos dynamic, List.length_append,
      encodeValue_toAbi, Abi.encodeValue]
    simp only [List.length_append, length_wordBytes, Abi.length_numberWord, List.length_cons]
    omega

/-- Honest edits fit into memory: each of them takes more bytes of calldata. -/
theorem decodeEdits_encode {edits : List DispatchEdit} {target : Address} {payload : Bytes}
    (small : (Abi.encode [.array (edits.map DispatchEdit.toAbi), .address target,
      .bytes payload]).length < Text.wordLimit) :
    decodeEdits (Abi.encode [.array (edits.map DispatchEdit.toAbi), .address target,
      .bytes payload]) = .ok (edits.map editValue) := by
  have whole := Bytes.standsAt_self (Abi.encode [.array (edits.map DispatchEdit.toAbi),
    .address target, .bytes payload])
  generalize laid : Abi.encode [.array (edits.map DispatchEdit.toAbi), .address target,
    .bytes payload] = data at small whole ⊢
  have layout : data = Abi.numberWord 96 ++ (wordBytes (target.setWidth 256) ++
      (Abi.numberWord (96 + (Abi.encodeValue (.array (edits.map DispatchEdit.toAbi))).length) ++
        (Abi.numberWord (edits.map DispatchEdit.toAbi).length ++
          (Abi.assemble (Abi.encodeParts (edits.map DispatchEdit.toAbi)) ++
            Abi.lengthAndBytes payload)))) := by
    rw [← laid]
    simp [Abi.encode, Abi.encodeValue, Abi.encodeParts, Abi.assemble, Abi.heads, Abi.tails,
      Abi.headLength, AbiValue.isDynamic, AbiValue.headSize]
  nth_rewrite 1 [layout] at whole
  -- The array stands behind the three heads, and its offsets count from behind its length.
  have count := whole.right.right.right.left
  have items := whole.right.right.right.right.left
  simp only [Abi.length_numberWord, length_wordBytes, List.length_map] at count items
  have itemsEnd := items.length_le
  have headsEnd := items.left.length_le
  rw [Abi.length_heads_encodeParts, headLength_edits] at headsEnd
  have tailsStand := items.right
  rw [Abi.length_heads_encodeParts] at tailsStand
  have tailsEnd := tailsStand.length_le
  have many := length_tails_edits edits
  have half : 2 * Nat.pow 2 63 = Text.wordLimit := by decide
  have fits : editSize * edits.length < Nat.pow 2 63 := by
    unfold editSize
    omega
  unfold decodeEdits
  rw [Abi.offsetAt_eq_ok whole.left (by decide), checked_ok, ok_bind,
    Abi.offsetAt_eq_ok count (by omega), checked_ok, ok_bind, sum_eq_ok (by omega), ok_bind,
    room_eq_ok fits, ok_bind]
  exact editsFrom_of_standsAt small items.left tailsStand

/-- Edits survive their calldata, whatever initialisation goes with them: they are read back in
their order, each with its target, the number of its action, and its selectors in ascending order.
Lengths have 64 bits, so there is no longer calldata. -/
theorem edits_survive_calldata (edits : List DispatchEdit) (target : Address) (payload : Bytes)
    (small : (Dispatch.applyEditsCalldata edits target payload).length < Text.wordLimit) :
    ∃ read, decodeEdits ((Dispatch.applyEditsCalldata edits target payload).drop 4) = .ok read ∧
      List.Forall₂ (fun edit wire => wire.target = edit.target ∧
        wire.action = edit.action.number ∧ wire.selectors.Pairwise (· < ·) ∧
        ∀ selector, selector ∈ wire.selectors ↔ selector ∈ edit.selectors.toList) edits read := by
  refine ⟨edits.map editValue, ?_, ?_⟩
  · rw [Dispatch.applyEditsCalldata, Abi.length_encodeCall] at small
    rw [Dispatch.applyEditsCalldata, Abi.drop_encodeCall]
    exact decodeEdits_encode (by omega)
  · rw [List.forall₂_map_right_iff, List.forall₂_same]
    exact fun edit _ => ⟨rfl, rfl, edit.selectors.ascending, fun selector => Iff.rfl⟩

/-- An addition of two selectors, and a removal of none. -/
theorem edits_survive_calldata_pair :
    let edits : List DispatchEdit :=
      [⟨0x11, .add, ⟨[0x01ffc9a7, 0xaabbcc01], by decide⟩⟩, ⟨0, .remove, .empty⟩]
    (Dispatch.applyEditsCalldata edits 0x22 [1, 2, 3]).length < Text.wordLimit ∧
      ∃ read, decodeEdits ((Dispatch.applyEditsCalldata edits 0x22 [1, 2, 3]).drop 4) = .ok read ∧
        read.map WireEdit.action = [0, 2] := by
  intro edits
  have small : (Dispatch.applyEditsCalldata edits 0x22 [1, 2, 3]).length < Text.wordLimit := by
    decide +kernel
  obtain ⟨read, decoded, same⟩ := edits_survive_calldata edits 0x22 [1, 2, 3] small
  refine ⟨small, read, decoded, ?_⟩
  simp only [edits, List.forall₂_cons_left_iff, List.forall₂_nil_left_iff] at same
  obtain ⟨first, _, ⟨-, added, -⟩, ⟨second, _, ⟨-, removed, -⟩, rfl, rfl⟩, rfl⟩ := same
  simp [added, removed, DispatchAction.number]

end Chain

namespace DispatchAction

/-- Whether the selectors of an edit must be routed before it. -/
def present : DispatchAction → Bool
  | add => false
  | replace | remove => true

def refusal : DispatchAction → Selector → Chain.Revert
  | add => .selectorExists
  | replace | remove => .selectorMissing

/-- Where the selectors of an edit are routed after it. -/
def entry (target : Address) : DispatchAction → Option Address
  | add | replace => some target
  | remove => none

end DispatchAction

namespace UpgradePlan

open Dispatch (introspectionSelector)

variable {old new : SelectorSet} {selector : Selector}

theorem mem_added : selector ∈ (between old new).added.toList ↔
    selector ∈ new.toList ∧ selector ∉ old.toList ∧ selector ≠ introspectionSelector := by
  simp [between, SelectorSet.filter, SelectorSet.contains]

theorem mem_replaced : selector ∈ (between old new).replaced.toList ↔
    selector ∈ new.toList ∧ selector ∈ old.toList ∧ selector ≠ introspectionSelector := by
  simp [between, SelectorSet.filter, SelectorSet.contains]

theorem mem_removed : selector ∈ (between old new).removed.toList ↔
    selector ∈ old.toList ∧ selector ∉ new.toList ∧ selector ≠ introspectionSelector := by
  simp [between, SelectorSet.filter, SelectorSet.contains]

end UpgradePlan

namespace Chain

variable {table : Table 32 Address} {target : Address}

theorem applyEdit_eq (target : Address) (action : DispatchAction) (table : Table 32 Address)
    (selector : Selector) :
    applyEdit target action.number table selector
      = Table.change action.present action.refusal table (selector, action.entry target) := by
  unfold applyEdit Table.change
  cases action <;> cases table.contains selector <;> rfl

theorem foldlM_applyEdit {action : DispatchAction} {selectors : List Selector}
    (distinct : selectors.Nodup)
    (sound : ∀ selector ∈ selectors, table.contains selector = action.present) :
    ∃ after, selectors.foldlM (applyEdit target action.number) table = .ok after ∧
      ∀ selector, after.get? selector
        = if selector ∈ selectors then action.entry target else table.get? selector := by
  have keys : (selectors.map fun selector => (selector, action.entry target)).map Prod.fst
      = selectors := by
    rw [List.map_map]
    exact List.map_id _
  have steps : selectors.foldlM (applyEdit target action.number) table
      = (selectors.map fun selector => (selector, action.entry target)).foldlM
        (Table.change action.present action.refusal) table := by
    rw [List.foldlM_map]
    exact congrArg (selectors.foldlM · table) (funext fun table => funext fun selector =>
      applyEdit_eq target action table selector)
  refine ⟨_, steps.trans (Table.foldlM_change (keys.symm ▸ distinct) (keys.symm ▸ sound)), ?_⟩
  intro selector
  by_cases member : selector ∈ selectors
  · rw [if_pos member]
    exact Table.get?_putAll_of_mem (keys.symm ▸ distinct) _ (List.mem_map_of_mem member)
  · rw [if_neg member]
    exact Table.get?_putAll_of_notMem (keys.symm ▸ member)

/-- Edits without selectors can be left out. -/
theorem applyEdits_filter (edits : List DispatchEdit) (table : Table 32 Address) :
    applyEdits table ((edits.filter fun edit => !edit.selectors.isEmpty).map editValue)
      = applyEdits table (edits.map editValue) := by
  unfold applyEdits
  induction edits generalizing table with
  | nil => rfl
  | cons edit rest ih =>
    by_cases none : edit.selectors.toList = []
    · rw [List.filter_cons_of_neg (by simp [SelectorSet.isEmpty, none]), ih, List.map_cons,
        List.foldlM_cons]
      simp only [editValue, none, List.foldlM_nil, pure_eq_ok, ok_bind]
    · rw [List.filter_cons_of_pos (by simp [SelectorSet.isEmpty, none])]
      simp only [List.map_cons, List.foldlM_cons, ih]

/-- The edits between two versions route the selectors of the new one, drop those that only the old
one had, and leave all others alone. -/
theorem applyEdits_between {old new : SelectorSet}
    (oldRouted : Dispatch.introspectionSelector ∉ old.toList)
    (newRouted : Dispatch.introspectionSelector ∉ new.toList)
    (held : ∀ selector ∈ old.toList, table.contains selector = true)
    (free : ∀ selector ∈ new.toList, selector ∉ old.toList → table.contains selector = false) :
    ∃ after,
      applyEdits table (((UpgradePlan.between old new).edits target).map editValue) = .ok after ∧
      ∀ selector, after.get? selector
        = if selector ∈ new.toList then some target
          else if selector ∈ old.toList then none
          else table.get? selector := by
  have routed : ∀ selector, selector ∈ old.toList ∨ selector ∈ new.toList →
      selector ≠ Dispatch.introspectionSelector := by
    rintro selector (inOld | inNew) rfl
    · exact oldRouted inOld
    · exact newRouted inNew
  -- The three sets have no selector in common, so no edit disturbs what the next one must find.
  obtain ⟨added, adds, afterAdd⟩ :=
    @foldlM_applyEdit table target .add _ (UpgradePlan.between old new).added.nodup (by
      intro selector member
      obtain ⟨inNew, notOld, -⟩ := UpgradePlan.mem_added.1 member
      exact free selector inNew notOld)
  obtain ⟨replaced, replaces, afterReplace⟩ :=
    @foldlM_applyEdit added target .replace _ (UpgradePlan.between old new).replaced.nodup (by
      intro selector member
      obtain ⟨-, inOld, -⟩ := UpgradePlan.mem_replaced.1 member
      have kept : selector ∉ (UpgradePlan.between old new).added.toList :=
        fun fresh => (UpgradePlan.mem_added.1 fresh).2.1 inOld
      unfold Table.contains
      rw [afterAdd, if_neg kept]
      exact held selector inOld)
  obtain ⟨removed, removes, afterRemove⟩ :=
    @foldlM_applyEdit replaced 0 .remove _ (UpgradePlan.between old new).removed.nodup (by
      intro selector member
      obtain ⟨inOld, notNew, -⟩ := UpgradePlan.mem_removed.1 member
      have kept : selector ∉ (UpgradePlan.between old new).replaced.toList :=
        fun common => notNew (UpgradePlan.mem_replaced.1 common).1
      have kept' : selector ∉ (UpgradePlan.between old new).added.toList :=
        fun fresh => notNew (UpgradePlan.mem_added.1 fresh).1
      unfold Table.contains
      rw [afterReplace, if_neg kept, afterAdd, if_neg kept']
      exact held selector inOld)
  refine ⟨removed, ?_, ?_⟩
  · rw [UpgradePlan.edits, applyEdits_filter]
    simp only [applyEdits, List.map_cons, List.map_nil, List.foldlM_cons, List.foldlM_nil, editValue,
      adds, replaces, removes, ok_bind, pure_eq_ok]
  · intro selector
    rw [afterRemove, afterReplace, afterAdd]
    simp only [UpgradePlan.mem_added, UpgradePlan.mem_replaced, UpgradePlan.mem_removed,
      DispatchAction.entry]
    by_cases inNew : selector ∈ new.toList
    · by_cases inOld : selector ∈ old.toList
      · simp [inNew, inOld, routed selector (.inl inOld)]
      · simp [inNew, inOld, routed selector (.inr inNew)]
    · by_cases inOld : selector ∈ old.toList
      · simp [inNew, inOld, routed selector (.inl inOld)]
      · simp [inNew, inOld]

/-- The state with another dispatch table. -/
def State.withDispatch (state : State) (table : Table 32 Address) : State :=
  { state with dispatch := table }

theorem execute_applyEditsCalldata {contracts : Contracts} {state : State}
    {edits : List DispatchEdit} {payload : Bytes}
    (small : (Dispatch.applyEditsCalldata edits target payload).length < Text.wordLimit) :
    execute contracts state contracts.custody contracts.relay
        (Dispatch.applyEditsCalldata edits target payload)
      = state.withDispatch <$> reverting (applyEdits state.dispatch (edits.map editValue)) := by
  have different : Abi.functionSelector Dispatch.applyEditsSignature
        ≠ Abi.functionSelector Registration.registerSignature ∧
      Abi.functionSelector Dispatch.applyEditsSignature
        ≠ Abi.functionSelector Registration.unregisterSignature := by
    decide +kernel
  rw [Dispatch.applyEditsCalldata, Abi.length_encodeCall] at small
  have read := decodeEdits_encode (Nat.lt_of_le_of_lt (Nat.le_add_left _ _) small)
  rw [Dispatch.applyEditsCalldata, execute_owned (by simp [ownedSignatures]), executeOwned,
    if_neg different.1, if_neg different.2, if_pos rfl, executeEdits, read]
  show (do
    let table ← reverting (applyEdits state.dispatch (edits.map editValue))
    return { state with dispatch := table }) = _
  cases applyEdits state.dispatch (edits.map editValue) <;> rfl

end Chain

end GaslessRelay

import GaslessRelay.Operation.Catalog
import GaslessRelay.Proofs.Outcome
import Mathlib.Data.List.Nodup

/-!
The entries of catalogs: those that were inserted, under keys that differ. The built-in entries have
different type hashes too, so that a type hash tells which of them is meant (`key_eq_of_typeHash`).
-/

namespace GaslessRelay.Catalog

open Outcome

theorem perm_insertSorted (operation : OperationType) (entries : List OperationType) :
    (insertSorted operation entries).Perm (operation :: entries) := by
  induction entries with
  | nil => exact .refl _
  | cons entry rest ih =>
    unfold insertSorted
    split
    · exact .refl _
    · exact (ih.cons entry).trans (.swap operation entry rest)

theorem not_mem_keys_of_get? {catalog : Catalog} {key : String}
    (absent : catalog.get? key = none) : key ∉ catalog.entries.map (·.key) := by
  intro member
  obtain ⟨entry, present, rfl⟩ := List.mem_map.1 member
  have different := List.find?_eq_none.1 absent entry present
  simp at different

theorem insert_eq_ok {catalog after : Catalog} {operation : OperationType}
    (inserted : catalog.insert operation = .ok after) :
    operation.key ∉ catalog.entries.map (·.key)
      ∧ after.entries.Perm (operation :: catalog.entries) := by
  unfold insert at inserted
  split at inserted
  · cases inserted
  · rename_i absent
    cases inserted
    exact ⟨not_mem_keys_of_get? absent, perm_insertSorted operation catalog.entries⟩

/-- Insertion refuses a key that is taken, so that the keys stay different. -/
theorem foldlM_insert {operations : List OperationType} {catalog after : Catalog}
    (distinct : (catalog.entries.map (·.key)).Nodup)
    (inserted : operations.foldlM Catalog.insert catalog = .ok after) :
    (after.entries.map (·.key)).Nodup ∧ after.entries.Perm (operations ++ catalog.entries) := by
  induction operations generalizing catalog with
  | nil =>
    cases inserted
    exact ⟨distinct, .refl _⟩
  | cons operation rest ih =>
    rw [List.foldlM_cons] at inserted
    obtain ⟨middle, first, others⟩ := bind_eq_ok.1 inserted
    obtain ⟨fresh, permuted⟩ := insert_eq_ok first
    have keys := permuted.map (·.key)
    have distinctMiddle : (middle.entries.map (·.key)).Nodup :=
      keys.nodup_iff.2 (List.nodup_cons.2 ⟨fresh, distinct⟩)
    obtain ⟨distinctAfter, whole⟩ := ih distinctMiddle others
    exact ⟨distinctAfter, (whole.trans (permuted.append_left rest)).trans List.perm_middle⟩

theorem keys_nodup_of_ofTypes {operations : List OperationType} {catalog : Catalog}
    (built : ofTypes operations = .ok catalog) : (catalog.entries.map (·.key)).Nodup := by
  have empty : ((({} : Catalog).entries).map (·.key)).Nodup := .nil
  exact (foldlM_insert empty built).1

theorem mem_entries_of_ofTypes {operations : List OperationType} {catalog : Catalog}
    (built : ofTypes operations = .ok catalog) {operation : OperationType} :
    operation ∈ catalog.entries ↔ operation ∈ operations := by
  have empty : ((({} : Catalog).entries).map (·.key)).Nodup := .nil
  have permuted := (foldlM_insert empty built).2
  simpa using permuted.mem_iff

/-- With different keys, an entry is what the catalog has under its key. -/
theorem get?_eq_some_of_mem {catalog : Catalog} {operation : OperationType}
    (distinct : (catalog.entries.map (·.key)).Nodup) (member : operation ∈ catalog.entries) :
    catalog.get? operation.key = some operation := by
  obtain ⟨entries⟩ := catalog
  unfold get?
  induction entries with
  | nil => cases member
  | cons entry rest ih =>
    obtain ⟨fresh, distinctRest⟩ := List.nodup_cons.1 distinct
    rcases List.mem_cons.1 member with rfl | later
    · simp
    · have different : entry.key ≠ operation.key := by
        intro same
        exact fresh (List.mem_map.2 ⟨operation, later, same.symm⟩)
      rw [List.find?_cons_of_neg (by simpa using different)]
      exact ih distinctRest later

theorem mem_of_byTypeHash? {catalog : Catalog} {typeHash : Hash} {operation : OperationType}
    (found : catalog.byTypeHash? typeHash = some operation) :
    operation ∈ catalog.entries ∧ operation.typeHash = typeHash := by
  have typed := List.find?_some found
  exact ⟨List.mem_of_find?_eq_some found, by simpa using typed⟩

/-- The keys and the fields of a built-in operation, which do not depend on the modules. -/
def builtinShapes (kind : OperationKind) : List (String × List Field) :=
  ((builtinTypes {} kind).toOption.getD []).map fun operation => (operation.key, operation.fields)

/-- The entries of a built-in operation. -/
def builtinEntries (modules : ModuleAddresses) (kind : OperationKind) : List OperationType :=
  (builtinShapes kind).map fun shape =>
    ⟨shape.1, shape.2, modules.get kind.module, Abi.functionSelector kind.functionSignature⟩

theorem builtinTypes_eq (modules : ModuleAddresses) (kind : OperationKind) :
    builtinTypes modules kind = .ok (builtinEntries modules kind) := by
  cases kind <;> rfl

theorem builtin_eq (modules : ModuleAddresses) :
    builtin modules = ofTypes (OperationKind.all.flatMap (builtinEntries modules)) := by
  unfold builtin
  simp only [OperationKind.all, List.mapM_cons, List.mapM_nil, builtinTypes_eq, ok_bind, pure_eq_ok]
  rfl

/-- The type hash of a key with its fields. -/
def shapeHash (shape : String × List Field) : Hash :=
  OperationType.typeHash ⟨shape.1, shape.2, 0, 0⟩

theorem shapeHashes_nodup : ((OperationKind.all.flatMap builtinShapes).map shapeHash).Nodup := by
  decide +kernel

/-- A built-in entry is one of the shapes, at the addresses of some modules. -/
theorem shape_of_mem {modules : ModuleAddresses} {catalog : Catalog} {operation : OperationType}
    (built : builtin modules = .ok catalog) (member : operation ∈ catalog.entries) :
    (operation.key, operation.fields) ∈ OperationKind.all.flatMap builtinShapes := by
  rw [builtin_eq] at built
  have listed := (mem_entries_of_ofTypes built).1 member
  obtain ⟨kind, known, entry⟩ := List.mem_flatMap.1 listed
  obtain ⟨shape, isShape, rfl⟩ := List.mem_map.1 entry
  exact List.mem_flatMap.2 ⟨kind, known, isShape⟩

/-- The type hash of a built-in entry tells its key, whatever the modules are. -/
theorem key_eq_of_typeHash {modules modules' : ModuleAddresses} {catalog catalog' : Catalog}
    (built : builtin modules = .ok catalog) (built' : builtin modules' = .ok catalog')
    {operation operation' : OperationType} (member : operation ∈ catalog.entries)
    (member' : operation' ∈ catalog'.entries) (same : operation.typeHash = operation'.typeHash) :
    operation.key = operation'.key := by
  have sameShape := List.inj_on_of_nodup_map shapeHashes_nodup (shape_of_mem built member)
    (shape_of_mem built' member') same
  exact (Prod.mk.inj sameShape).1

theorem builtin_keys_nodup {modules : ModuleAddresses} {catalog : Catalog}
    (built : builtin modules = .ok catalog) : (catalog.entries.map (·.key)).Nodup := by
  obtain ⟨types, -, whole⟩ := bind_eq_ok.1 built
  exact keys_nodup_of_ofTypes whole

end GaslessRelay.Catalog

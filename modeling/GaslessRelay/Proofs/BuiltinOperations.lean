import GaslessRelay.Proofs.CatalogEntries
import GaslessRelay.Proofs.RequestEncoding

/-!
The built-in operations: their fields have types that texts name, so that their requests are read
back, and their type hashes tell them apart, so that the chain finds the operation that was signed.
-/

namespace GaslessRelay.Catalog

open Outcome

theorem declared_parse (kind : OperationKind) :
    ∀ field ∈ kind.declared, Field.parse field.name field.type.name = .ok field := by
  cases kind <;> decide

theorem declared_of_builtin {modules : ModuleAddresses} {catalog : Catalog}
    {operation : OperationType} (built : builtin modules = .ok catalog)
    (member : operation ∈ catalog.entries) : operation.Declared := by
  rw [builtin_eq] at built
  obtain ⟨kind, -, entry⟩ := List.mem_flatMap.1 ((mem_entries_of_ofTypes built).1 member)
  obtain ⟨base, based, types⟩ := bind_eq_ok.1 (builtinTypes_eq modules kind)
  obtain ⟨proxied, made, types⟩ := bind_eq_ok.1 types
  have listed : operation ∈ [proxied, base] := by
    rw [pure_eq_ok, Except.ok.injEq] at types
    rwa [types]
  refine ⟨kind.key, kind.declared, _, _, base, ?_, based, ?_⟩
  · intro field declared
    exact ⟨field.type.name, declared_parse kind field declared⟩
  · rcases List.mem_cons.1 listed with rfl | listed
    · exact .inr made
    · exact .inl (List.mem_singleton.1 listed)

theorem byTypeHash?_of_mem {modules : ModuleAddresses} {catalog : Catalog}
    {operation : OperationType} (built : builtin modules = .ok catalog)
    (member : operation ∈ catalog.entries) :
    catalog.byTypeHash? operation.typeHash = some operation := by
  have keys := builtin_keys_nodup built
  cases found : catalog.byTypeHash? operation.typeHash with
  | none =>
    have missed := List.find?_eq_none.1 found operation member
    simp at missed
  | some other =>
    obtain ⟨otherMember, sameHash⟩ := mem_of_byTypeHash? found
    -- Equal hashes give equal keys only; that the entries are equal follows from the key lookup.
    have sameKey := key_eq_of_typeHash built built otherMember member sameHash
    have first := get?_eq_some_of_mem keys otherMember
    rw [sameKey, get?_eq_some_of_mem keys member] at first
    exact first.symm

end GaslessRelay.Catalog

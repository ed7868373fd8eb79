import GaslessRelay.Proofs.Outcome
import GaslessRelay.Table
import Mathlib.Tactic.SplitIfs

/-!
Changes of many entries of a finite map. Each of them is made only at a key that is taken, or only
at one that is free; together they go through if this holds of every key at the start and no key
comes twice (`Table.foldlM_change`), and changes that take or free their keys only then
(`Table.foldlM_change_refused`).
-/

namespace GaslessRelay.Table

open Outcome

variable {width : Nat} {ν ε : Type}

/-- The map with an entry at a key, or with none. -/
def put (table : Table width ν) (key : BitVec width) : Option ν → Table width ν
  | some value => table.insert key value
  | none => table.erase key

theorem get?_put (table : Table width ν) (key other : BitVec width) (entry : Option ν) :
    (table.put key entry).get? other = if key = other then entry else table.get? other := by
  cases entry with
  | none => exact table.get?_erase key other
  | some value => exact table.get?_insert key other value

/-- The map after changes, one after the other. -/
def putAll (table : Table width ν) (changes : List (BitVec width × Option ν)) : Table width ν :=
  changes.foldl (fun table change => table.put change.1 change.2) table

variable {table : Table width ν} {changes : List (BitVec width × Option ν)}

theorem get?_putAll_of_notMem {key : BitVec width} (absent : key ∉ changes.map Prod.fst) :
    (table.putAll changes).get? key = table.get? key := by
  induction changes generalizing table with
  | nil => rfl
  | cons change rest ih =>
    simp only [List.map_cons, List.mem_cons, not_or] at absent
    show ((table.put change.1 change.2).putAll rest).get? key = _
    rw [ih absent.2, get?_put, if_neg (Ne.symm absent.1)]

theorem get?_putAll_of_mem (distinct : (changes.map Prod.fst).Nodup) :
    ∀ change ∈ changes, (table.putAll changes).get? change.1 = change.2 := by
  induction changes generalizing table with
  | nil =>
    intro change impossible
    cases impossible
  | cons first rest ih =>
    obtain ⟨fresh, others⟩ := List.nodup_cons.1 distinct
    intro change member
    show ((table.put first.1 first.2).putAll rest).get? change.1 = _
    rcases List.mem_cons.1 member with rfl | inRest
    · rw [get?_putAll_of_notMem fresh, get?_put, if_pos rfl]
    · exact ih others change inRest

/-- A change that is made where a key is taken, or where it is free. -/
def change (present : Bool) (refusal : BitVec width → ε) (table : Table width ν)
    (change : BitVec width × Option ν) : Except ε (Table width ν) :=
  if table.contains change.1 = present then .ok (table.put change.1 change.2)
  else .error (refusal change.1)

variable {present : Bool} {refusal : BitVec width → ε}

theorem contains_put (table : Table width ν) (key other : BitVec width) (entry : Option ν) :
    (table.put key entry).contains other
      = if key = other then entry.isSome else table.contains other := by
  unfold contains
  rw [get?_put]
  split_ifs <;> rfl

theorem contains_insert (table : Table width ν) (key other : BitVec width) (value : ν) :
    (table.insert key value).contains other = if key = other then true else table.contains other :=
  table.contains_put key other (some value)

theorem contains_erase (table : Table width ν) (key other : BitVec width) :
    (table.erase key).contains other = if key = other then false else table.contains other :=
  table.contains_put key other none

theorem contains_of_get? {key : BitVec width} {value : ν} (found : table.get? key = some value) :
    table.contains key = true := by
  unfold contains
  rw [found]
  rfl

theorem foldlM_change (distinct : (changes.map Prod.fst).Nodup)
    (sound : ∀ key ∈ changes.map Prod.fst, table.contains key = present) :
    changes.foldlM (change present refusal) table = .ok (table.putAll changes) := by
  induction changes generalizing table with
  | nil => rfl
  | cons first rest ih =>
    obtain ⟨fresh, others⟩ := List.nodup_cons.1 distinct
    have made : change present refusal table first = .ok (table.put first.1 first.2) :=
      if_pos (sound _ List.mem_cons_self)
    rw [List.foldlM_cons, made, ok_bind]
    refine ih others fun key member => ?_
    have other : first.1 ≠ key := fun same => fresh (same ▸ member)
    rw [contains_put, if_neg other]
    exact sound key (List.mem_cons_of_mem _ member)

/-- A change that takes or frees its key cannot be made twice, so either all can be made or one of
them is refused. -/
theorem foldlM_change_refused {error : ε}
    (flips : ∀ change ∈ changes, change.2.isSome = !present)
    (clash : ¬((changes.map Prod.fst).Nodup ∧
      ∀ key ∈ changes.map Prod.fst, table.contains key = present)) :
    changes.foldlM (change present fun _ => error) table = .error error := by
  induction changes generalizing table with
  | nil => exact absurd ⟨List.nodup_nil, fun _ member => nomatch member⟩ clash
  | cons first rest ih =>
    rw [List.foldlM_cons, change]
    split_ifs with possible
    · refine ih (fun other member => flips other (List.mem_cons_of_mem _ member)) ?_
      rintro ⟨others, sound⟩
      -- The first change left its key in the state that the others must not find.
      have fresh : first.1 ∉ rest.map Prod.fst := by
        intro again
        have found := sound first.1 again
        rw [contains_put, if_pos rfl, flips first List.mem_cons_self] at found
        cases present <;> cases found
      refine clash ⟨List.nodup_cons.2 ⟨fresh, others⟩, ?_⟩
      intro key member
      rcases List.mem_cons.1 member with rfl | inRest
      · exact possible
      · have other : first.1 ≠ key := fun same => fresh (same ▸ inRest)
        have found := sound key inRest
        rwa [contains_put, if_neg other] at found
    · rfl

end GaslessRelay.Table

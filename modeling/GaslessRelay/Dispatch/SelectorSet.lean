import GaslessRelay.Dispatch.Interface

/-!
Finite sets of selectors as strictly ascending lists.
-/

namespace GaslessRelay

/-- A set of selectors, listed in ascending order. -/
structure SelectorSet where
  toList : List Selector
  ascending : toList.Pairwise (· < ·)

namespace SelectorSet

def empty : SelectorSet := ⟨[], .nil⟩

/-- An ascending list with one more member at its place. -/
def insertInto (selector : Selector) : List Selector → List Selector
  | [] => [selector]
  | first :: rest =>
    if selector < first then selector :: first :: rest
    else if selector = first then first :: rest
    else first :: insertInto selector rest

theorem mem_insertInto {selector other : Selector} {members : List Selector} :
    other ∈ insertInto selector members ↔ other = selector ∨ other ∈ members := by
  induction members with
  | nil => simp [insertInto]
  | cons first rest ih =>
    simp only [insertInto]
    split
    · simp
    · split
      · rename_i same; subst same; simp
      · simp only [List.mem_cons, ih]
        constructor <;> rintro (h | h | h) <;> simp [h]

theorem ascending_insertInto {selector : Selector} {members : List Selector}
    (ascending : members.Pairwise (· < ·)) : (insertInto selector members).Pairwise (· < ·) := by
  induction members with
  | nil => simp [insertInto]
  | cons first rest ih =>
    rw [List.pairwise_cons] at ascending
    simp only [insertInto]
    split
    · rename_i below
      refine List.pairwise_cons.2 ⟨?_, List.pairwise_cons.2 ascending⟩
      intro other member
      rcases List.mem_cons.1 member with rfl | inRest
      · exact below
      · exact BitVec.lt_trans below (ascending.1 other inRest)
    · split
      · exact List.pairwise_cons.2 ascending
      · rename_i notBelow different
        refine List.pairwise_cons.2 ⟨?_, ih ascending.2⟩
        intro other member
        rcases mem_insertInto.1 member with rfl | inRest
        · simp only [BitVec.lt_def] at notBelow ⊢
          have : other.toNat ≠ first.toNat := fun same => different (BitVec.eq_of_toNat_eq same)
          omega
        · exact ascending.1 other inRest

def insert (set : SelectorSet) (selector : Selector) : SelectorSet :=
  ⟨insertInto selector set.toList, ascending_insertInto set.ascending⟩

def ofList (selectors : List Selector) : SelectorSet := selectors.foldl insert empty

def filter (set : SelectorSet) (keep : Selector → Bool) : SelectorSet :=
  ⟨set.toList.filter keep, set.ascending.filter _⟩

def isEmpty (set : SelectorSet) : Bool := set.toList.isEmpty

def contains (set : SelectorSet) (selector : Selector) : Bool := set.toList.contains selector

end SelectorSet

namespace Dispatch

/-- The selectors that a module answers, introspection aside. -/
def moduleSelectors (artifact : Json) : Except CodecError SelectorSet := do
  let signatures ← functionSignatures artifact
  let selectors := SelectorSet.ofList (signatures.map Abi.functionSelector)
  return selectors.filter (· != introspectionSelector)

end Dispatch

end GaslessRelay

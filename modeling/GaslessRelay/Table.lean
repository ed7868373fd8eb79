import GaslessRelay.Bytes

/-!
Finite maps from fixed-width numbers, kept in ascending order of the keys. Main statement: two maps
with the same values at every key are equal.
-/

namespace GaslessRelay

/-- A finite map from numbers of `width` bits. -/
structure Table (width : Nat) (ν : Type) where
  entries : List (BitVec width × ν) := []
  ascending : entries.Pairwise (fun first second => first.1 < second.1) := by exact .nil

namespace Table

variable {width : Nat} {ν : Type}

instance : Inhabited (Table width ν) := ⟨{}⟩

def lookup? (entries : List (BitVec width × ν)) (key : BitVec width) : Option ν :=
  match entries with
  | [] => none
  | (other, value) :: rest => if other = key then some value else lookup? rest key

/-- Entries with one more at its place; an entry of the same key is replaced. -/
def insertInto (key : BitVec width) (value : ν) :
    List (BitVec width × ν) → List (BitVec width × ν)
  | [] => [(key, value)]
  | (other, old) :: rest =>
    if key < other then (key, value) :: (other, old) :: rest
    else if key = other then (key, value) :: rest
    else (other, old) :: insertInto key value rest

theorem key_of_mem_insertInto {key : BitVec width} {value : ν} {entry : BitVec width × ν}
    {entries : List (BitVec width × ν)} (member : entry ∈ insertInto key value entries) :
    entry.1 = key ∨ entry ∈ entries := by
  induction entries with
  | nil => simp [insertInto] at member; simp [member]
  | cons first rest ih =>
    obtain ⟨other, old⟩ := first
    simp only [insertInto] at member
    split at member
    · rcases List.mem_cons.1 member with rfl | inRest
      · exact .inl rfl
      · exact .inr inRest
    · split at member
      · rcases List.mem_cons.1 member with rfl | inRest
        · exact .inl rfl
        · exact .inr (List.mem_cons_of_mem _ inRest)
      · rcases List.mem_cons.1 member with rfl | inRest
        · exact .inr List.mem_cons_self
        · exact (ih inRest).imp_right (List.mem_cons_of_mem _)

theorem ascending_insertInto {key : BitVec width} {value : ν}
    {entries : List (BitVec width × ν)}
    (ascending : entries.Pairwise (fun first second => first.1 < second.1)) :
    (insertInto key value entries).Pairwise (fun first second => first.1 < second.1) := by
  induction entries with
  | nil => simp [insertInto]
  | cons first rest ih =>
    obtain ⟨other, old⟩ := first
    have parts := List.pairwise_cons.1 ascending
    simp only [insertInto]
    split
    · rename_i below
      refine List.pairwise_cons.2 ⟨?_, ascending⟩
      intro entry member
      rcases List.mem_cons.1 member with rfl | inRest
      · exact below
      · exact BitVec.lt_trans below (parts.1 entry inRest)
    · split
      · rename_i same
        subst same
        exact List.pairwise_cons.2 ⟨parts.1, parts.2⟩
      · rename_i notBelow different
        refine List.pairwise_cons.2 ⟨?_, ih parts.2⟩
        intro entry member
        rcases key_of_mem_insertInto member with same | inRest
        · simp only [BitVec.lt_def] at notBelow ⊢
          have : key.toNat ≠ other.toNat := fun equal => different (BitVec.eq_of_toNat_eq equal)
          rw [same]
          omega
        · exact parts.1 entry inRest

def get? (table : Table width ν) (key : BitVec width) : Option ν := lookup? table.entries key

def insert (table : Table width ν) (key : BitVec width) (value : ν) : Table width ν :=
  ⟨insertInto key value table.entries, ascending_insertInto table.ascending⟩

/-- The map without a value at a key. -/
def erase (table : Table width ν) (key : BitVec width) : Table width ν :=
  ⟨table.entries.filter (fun entry => entry.1 ≠ key), table.ascending.filter _⟩

def keys (table : Table width ν) : List (BitVec width) := table.entries.map Prod.fst

def contains (table : Table width ν) (key : BitVec width) : Bool := (table.get? key).isSome

theorem lookup?_insertInto (entries : List (BitVec width × ν)) (key other : BitVec width)
    (value : ν) :
    lookup? (insertInto key value entries) other
      = if key = other then some value else lookup? entries other := by
  induction entries with
  | nil => simp [insertInto, lookup?]
  | cons first rest ih =>
    obtain ⟨present, old⟩ := first
    simp only [insertInto]
    split
    · simp only [lookup?]
    · split
      · rename_i same
        subst same
        simp only [lookup?]
        split <;> rfl
      · rename_i different
        simp only [lookup?, ih]
        by_cases atPresent : present = other
        · have : key ≠ other := fun same => different (same.trans atPresent.symm)
          simp [atPresent, this]
        · simp [atPresent]

theorem get?_insert (table : Table width ν) (key other : BitVec width) (value : ν) :
    (table.insert key value).get? other = if key = other then some value else table.get? other :=
  lookup?_insertInto table.entries key other value

theorem lookup?_filter (entries : List (BitVec width × ν)) (key other : BitVec width) :
    lookup? (entries.filter (fun entry => entry.1 ≠ key)) other
      = if key = other then none else lookup? entries other := by
  induction entries with
  | nil => simp [lookup?]
  | cons first rest ih =>
    obtain ⟨present, value⟩ := first
    by_cases atKey : present = key
    · subst atKey
      rw [List.filter_cons_of_neg (by simp), ih]
      by_cases same : present = other <;> simp [lookup?, same]
    · rw [List.filter_cons_of_pos (by simpa using atKey), lookup?, ih, lookup?]
      by_cases atOther : present = other
      · have : key ≠ other := fun same => atKey (atOther.trans same.symm)
        simp [atOther, this]
      · simp [atOther]

theorem get?_erase (table : Table width ν) (key other : BitVec width) :
    (table.erase key).get? other = if key = other then none else table.get? other :=
  lookup?_filter table.entries key other

@[simp] theorem get?_empty (key : BitVec width) : ({} : Table width ν).get? key = none := rfl

theorem lookup?_eq_some_iff {entries : List (BitVec width × ν)} {key : BitVec width} {value : ν}
    (ascending : entries.Pairwise (fun first second => first.1 < second.1)) :
    lookup? entries key = some value ↔ (key, value) ∈ entries := by
  induction entries with
  | nil => simp [lookup?]
  | cons first rest ih =>
    obtain ⟨present, old⟩ := first
    have parts := List.pairwise_cons.1 ascending
    simp only [lookup?, List.mem_cons, Prod.mk.injEq]
    by_cases same : present = key
    · subst same
      simp only [if_true, Option.some.injEq, true_and]
      constructor
      · rintro rfl; exact .inl rfl
      · rintro (rfl | inRest)
        · rfl
        · exact absurd (parts.1 _ inRest) (BitVec.lt_irrefl _)
    · simp only [same, if_false, ih parts.2, Ne.symm same, false_and, false_or]

theorem eq_of_mem_iff {first second : List (BitVec width × ν)}
    (firstAscending : first.Pairwise (fun first second => first.1 < second.1))
    (secondAscending : second.Pairwise (fun first second => first.1 < second.1))
    (same : ∀ entry, entry ∈ first ↔ entry ∈ second) : first = second := by
  induction first generalizing second with
  | nil =>
    cases second with
    | nil => rfl
    | cons entry rest => exact absurd ((same entry).2 List.mem_cons_self) (by simp)
  | cons entry rest ih =>
    cases second with
    | nil => exact absurd ((same entry).1 List.mem_cons_self) (by simp)
    | cons other rest' =>
      have parts := List.pairwise_cons.1 firstAscending
      have parts' := List.pairwise_cons.1 secondAscending
      have heads : entry = other := by
        rcases List.mem_cons.1 ((same entry).1 List.mem_cons_self) with equal | inRest
        · exact equal
        · rcases List.mem_cons.1 ((same other).2 List.mem_cons_self) with equal | inRest'
          · exact equal.symm
          · have below := parts.1 other inRest'
            have above := parts'.1 entry inRest
            exact absurd (BitVec.lt_trans below above) (BitVec.lt_irrefl _)
      subst heads
      congr 1
      apply ih parts.2 parts'.2
      intro candidate
      have whole := same candidate
      simp only [List.mem_cons] at whole
      constructor
      · intro inFirst
        rcases whole.1 (.inr inFirst) with equal | inSecond
        · exact absurd (equal ▸ parts.1 candidate inFirst) (BitVec.lt_irrefl _)
        · exact inSecond
      · intro inSecond
        rcases whole.2 (.inr inSecond) with equal | inFirst
        · exact absurd (equal ▸ parts'.1 candidate inSecond) (BitVec.lt_irrefl _)
        · exact inFirst

theorem ext_get? {first second : Table width ν}
    (same : ∀ key, first.get? key = second.get? key) : first = second := by
  obtain ⟨firstEntries, firstAscending⟩ := first
  obtain ⟨secondEntries, secondAscending⟩ := second
  congr 1
  apply eq_of_mem_iff firstAscending secondAscending
  rintro ⟨key, value⟩
  rw [← lookup?_eq_some_iff firstAscending, ← lookup?_eq_some_iff secondAscending]
  exact Eq.to_iff (congrArg (· = some value) (same key))

end Table

end GaslessRelay

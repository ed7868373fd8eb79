import GaslessRelay.KeyStore.Files
import GaslessRelay.Proofs.Outcome
import Mathlib.Data.List.Basic

/-!
What file operations find and leave behind. Each succeeds exactly when the directories of its path
stand and no directory stands at the path itself; what it leaves differs from what it found at the
paths it names alone.
-/

namespace GaslessRelay.FileSystem

open Outcome

variable {files after : FileSystem} {path other source target : FilePath} {node : FileNode}
  {content : Bytes}

theorem node?_nil (files : FileSystem) : files.node? [] = some .directory := rfl

theorem ne_nil_of_node? (same : files.node? path ≠ some .directory) : path ≠ [] :=
  fun root => same (root ▸ node?_nil files)

theorem node?_empty (some : path ≠ []) : ({} : FileSystem).node? path = none := by
  unfold node?
  rw [if_neg (by simpa using some)]
  rfl

theorem find?_filter_ne (files : FileSystem) (different : other ≠ path) :
    (files.nodes.filter (·.1 ≠ path)).find? (·.1 = other) = files.nodes.find? (·.1 = other) := by
  rw [List.find?_filter]
  congr 1
  funext entry
  by_cases same : entry.1 = other
  · simp [same, different]
  · simp [same]

theorem node?_put (some : path ≠ []) (other : FilePath) :
    (files.put path node).node? other = if other = path then Option.some node
      else files.node? other := by
  unfold node? put
  by_cases root : other = []
  · simp [root, some.symm]
  · by_cases same : other = path
    · simp [same, some]
    · simp only [List.isEmpty_iff, root, if_false, same]
      rw [List.find?_cons_of_neg (by simpa using fun back => same back.symm),
        find?_filter_ne files same]

theorem node?_remove (some : path ≠ []) (other : FilePath) :
    (files.remove path).node? other = if other = path then none else files.node? other := by
  unfold node? remove
  by_cases root : other = []
  · simp [root, some.symm]
  · by_cases same : other = path
    · simp only [same, List.isEmpty_iff, some, if_false, if_true]
      rw [List.find?_filter]
      simp
    · simp only [List.isEmpty_iff, root, if_false, same]
      rw [find?_filter_ne files same]

/-! ### Directories -/

theorem mem_leading {directory : FilePath} :
    directory ∈ leading path ↔ directory ≠ [] ∧ directory <+: path := by
  unfold leading
  constructor
  · intro member
    obtain ⟨index, below, rfl⟩ := List.mem_map.1 member
    rw [List.mem_range] at below
    exact ⟨List.ne_nil_of_length_pos (by rw [List.length_take]; omega), List.take_prefix _ _⟩
  · rintro ⟨some, start⟩
    have positive := List.length_pos_of_ne_nil some
    refine List.mem_map.2 ⟨directory.length - 1, List.mem_range.2 ?_, ?_⟩
    · have short := start.length_le
      omega
    · rw [Nat.sub_add_cancel positive]
      exact (List.prefix_iff_eq_take.1 start).symm

/-- All that leads to the path are directories. -/
def Stands (files : FileSystem) (path : FilePath) : Prop :=
  ∀ directory ∈ leading path, files.node? directory = some .directory

theorem checkParents_eq_ok : files.checkParents path = .ok () ↔ files.Stands path.parent := by
  unfold Stands
  refine forM_eq_ok.trans (forall₂_congr fun directory _ => ?_)
  cases files.node? directory with
  | none => simp
  | some node => cases node <;> simp

/-- A directory is made where nothing stands, and one that stands is left. -/
theorem node?_of_makeDirectory (made : files.makeDirectory path = .ok after) (other : FilePath) :
    after.node? other = if other = path then some .directory else files.node? other := by
  unfold makeDirectory at made
  split at made
  · next found =>
    cases made
    split
    · next same => rw [same, found]
    · rfl
  · cases made
  · next absent =>
    cases made
    exact node?_put (fun root => by rw [root, node?_nil] at absent; cases absent) other

theorem exists_makeDirectory (free : ∀ content, files.node? path ≠ some (.file content)) :
    ∃ after, files.makeDirectory path = .ok after := by
  unfold makeDirectory
  split
  · exact ⟨_, rfl⟩
  · next found => exact absurd found (free _)
  · exact ⟨_, rfl⟩

theorem node?_of_foldlM {directories : List FilePath}
    (made : directories.foldlM makeDirectory files = .ok after) (other : FilePath) :
    after.node? other
      = if other ∈ directories then some .directory else files.node? other := by
  induction directories generalizing files with
  | nil =>
    cases made
    rfl
  | cons first rest ih =>
    obtain ⟨middle, one, more⟩ := bind_eq_ok.1 made
    rw [ih more, node?_of_makeDirectory one]
    by_cases isFirst : other = first
    · simp [isFirst]
    · simp [isFirst]

theorem exists_foldlM {directories : List FilePath}
    (free : ∀ directory ∈ directories, ∀ content, files.node? directory ≠ some (.file content)) :
    ∃ after, directories.foldlM makeDirectory files = .ok after := by
  induction directories generalizing files with
  | nil => exact ⟨files, rfl⟩
  | cons first rest ih =>
    obtain ⟨freeFirst, freeRest⟩ := List.forall_mem_cons.1 free
    obtain ⟨middle, one⟩ := exists_makeDirectory freeFirst
    have freeAfter : ∀ directory ∈ rest, ∀ content,
        middle.node? directory ≠ some (.file content) := by
      intro directory member content found
      rw [node?_of_makeDirectory one] at found
      split at found
      · cases found
      · exact freeRest directory member content found
    obtain ⟨after, more⟩ := ih freeAfter
    exact ⟨after, bind_eq_ok.2 ⟨middle, one, more⟩⟩

/-- The path and all that leads to it stand, and nothing else is changed. -/
theorem node?_of_makeDirectories (made : files.makeDirectories path = .ok after)
    (other : FilePath) :
    after.node? other = if other ∈ leading path then some .directory else files.node? other :=
  node?_of_foldlM made other

theorem stands_of_makeDirectories (made : files.makeDirectories path = .ok after) :
    after.Stands path :=
  fun directory member => by rw [node?_of_makeDirectories made, if_pos member]

/-- Directories are made unless a file is in the way. -/
theorem exists_makeDirectories
    (free : ∀ directory ∈ leading path, ∀ content, files.node? directory ≠ some (.file content)) :
    ∃ after, files.makeDirectories path = .ok after :=
  exists_foldlM free

theorem foldlM_of_directories {directories : List FilePath}
    (stand : ∀ directory ∈ directories, files.node? directory = some .directory) :
    directories.foldlM makeDirectory files = .ok files := by
  induction directories with
  | nil => rfl
  | cons first rest ih =>
    obtain ⟨one, others⟩ := List.forall_mem_cons.1 stand
    have same : files.makeDirectory first = .ok files := by rw [makeDirectory, one]
    rw [List.foldlM_cons, same]
    exact ih others

/-- Nothing is made where all directories stand. -/
theorem makeDirectories_of_stands (stands : files.Stands path) :
    files.makeDirectories path = .ok files :=
  foldlM_of_directories stands

theorem not_mem_leading_parent (some : path ≠ []) : path ∉ leading path.parent := by
  intro member
  have short := (mem_leading.1 member).2.length_le
  have positive := List.length_pos_of_ne_nil some
  rw [FilePath.parent, List.length_dropLast] at short
  omega

/-! ### Files -/

theorem read_eq_ok : files.read path = .ok content ↔
    files.Stands path.parent ∧ files.node? path = some (.file content) := by
  unfold read
  rw [bind_eq_ok, ← checkParents_eq_ok]
  constructor
  · rintro ⟨_, parents, read⟩
    refine ⟨parents, ?_⟩
    split at read
    · next found => rw [found, ← Except.ok.inj read]
    · cases read
    · cases read
  · rintro ⟨parents, found⟩
    exact ⟨(), parents, by rw [found]; rfl⟩

theorem write_eq_ok : files.write path content = .ok after ↔
    files.Stands path.parent ∧ files.node? path ≠ some .directory ∧
      after = files.put path (.file content) := by
  unfold write
  rw [bind_eq_ok, ← checkParents_eq_ok]
  constructor
  · rintro ⟨_, parents, written⟩
    split at written
    · cases written
    · next free => exact ⟨parents, free, (Except.ok.inj written).symm⟩
  · rintro ⟨parents, free, rfl⟩
    refine ⟨(), parents, ?_⟩
    split
    · next found => exact absurd found free
    · rfl

theorem rename_eq_ok : files.rename source target = .ok after ↔
    ∃ content, files.read source = .ok content ∧ files.Stands target.parent ∧
      files.node? target ≠ some .directory ∧
      after = (files.remove source).put target (.file content) := by
  unfold rename
  rw [bind_eq_ok]
  refine exists_congr fun content => and_congr_right fun _ => ?_
  rw [bind_eq_ok, ← checkParents_eq_ok]
  constructor
  · rintro ⟨_, parents, renamed⟩
    split at renamed
    · cases renamed
    · next free => exact ⟨parents, free, (Except.ok.inj renamed).symm⟩
  · rintro ⟨parents, free, rfl⟩
    refine ⟨(), parents, ?_⟩
    split
    · next found => exact absurd found free
    · rfl

theorem read_of_write (written : files.write path content = .ok after) :
    after.read path = .ok content := by
  obtain ⟨parents, free, rfl⟩ := write_eq_ok.1 written
  have some := ne_nil_of_node? free
  refine read_eq_ok.2 ⟨fun directory member => ?_, by rw [node?_put some, if_pos rfl]⟩
  have other : directory ≠ path := fun same => not_mem_leading_parent some (same ▸ member)
  rw [node?_put some, if_neg other, parents directory member]

/-- What is read at the new path was read at the old one. -/
theorem read_of_rename (renamed : files.rename source target = .ok after) :
    after.read target = files.read source := by
  obtain ⟨content, read, parents, free, rfl⟩ := rename_eq_ok.1 renamed
  obtain ⟨-, found⟩ := read_eq_ok.1 read
  have some := ne_nil_of_node? free
  have someSource : source ≠ [] := ne_nil_of_node? (by rw [found]; simp)
  rw [read]
  refine read_eq_ok.2 ⟨fun directory member => ?_, by rw [node?_put some, if_pos rfl]⟩
  have stands := parents directory member
  have other : directory ≠ target := fun same => not_mem_leading_parent some (same ▸ member)
  have notSource : directory ≠ source := by
    rintro rfl
    rw [found] at stands
    cases stands
  rw [node?_put some, if_neg other, node?_remove someSource, if_neg notSource, stands]

/-! ### Contents -/

/-- The content of the file at a path, if there is a file. -/
def content? (files : FileSystem) (path : FilePath) : Option Bytes :=
  match files.node? path with
  | some (.file content) => some content
  | _ => none

theorem content?_of_file (found : files.node? path = some (.file content)) :
    files.content? path = some content := by
  rw [content?, found]

theorem content?_of_read (read : files.read path = .ok content) :
    files.content? path = some content :=
  content?_of_file (read_eq_ok.1 read).2

theorem content?_empty (path : FilePath) : ({} : FileSystem).content? path = none := by
  unfold content?
  by_cases root : path = []
  · rw [root, node?_nil]
  · rw [node?_empty root]

theorem content?_congr (same : after.node? other = files.node? other) :
    after.content? other = files.content? other := by
  rw [content?, content?, same]

theorem content?_of_makeDirectory (made : files.makeDirectory path = .ok after)
    (other : FilePath) : after.content? other = files.content? other := by
  have node := node?_of_makeDirectory made other
  by_cases same : other = path
  · rw [if_pos same] at node
    unfold makeDirectory at made
    rw [content?, content?, node, same]
    split at made
    · next found => rw [found]
    · cases made
    · next absent => rw [absent]
  · rw [if_neg same] at node
    exact content?_congr node

theorem content?_of_foldlM {directories : List FilePath}
    (made : directories.foldlM makeDirectory files = .ok after) (other : FilePath) :
    after.content? other = files.content? other := by
  induction directories generalizing files with
  | nil =>
    cases made
    rfl
  | cons first rest ih =>
    obtain ⟨middle, one, more⟩ := bind_eq_ok.1 made
    rw [ih more, content?_of_makeDirectory one]

theorem content?_of_makeDirectories (made : files.makeDirectories path = .ok after)
    (other : FilePath) : after.content? other = files.content? other :=
  content?_of_foldlM made other

theorem content?_of_write (written : files.write path content = .ok after) (other : FilePath) :
    after.content? other = if other = path then some content else files.content? other := by
  obtain ⟨-, free, rfl⟩ := write_eq_ok.1 written
  have node : (files.put path (.file content)).node? other = _ :=
    node?_put (ne_nil_of_node? free) other
  split
  · next same => exact content?_of_file (by rw [node, if_pos same])
  · next different => exact content?_congr (by rw [node, if_neg different])

theorem content?_of_rename (renamed : files.rename source target = .ok after) :
    ∃ content, files.content? source = some content ∧ ∀ other, after.content? other
      = if other = target then some content else if other = source then none
        else files.content? other := by
  obtain ⟨content, read, -, free, rfl⟩ := rename_eq_ok.1 renamed
  obtain ⟨-, found⟩ := read_eq_ok.1 read
  refine ⟨content, content?_of_file found, fun other => ?_⟩
  have node : ((files.remove source).put target (.file content)).node? other = _ :=
    node?_put (ne_nil_of_node? free) other
  rw [node?_remove (ne_nil_of_node? (by rw [found]; simp))] at node
  split
  · next same => exact content?_of_file (by rw [node, if_pos same])
  · next different =>
    rw [if_neg different] at node
    split
    · next same => rw [content?, node, if_pos same]
    · next kept => exact content?_congr (by rw [node, if_neg kept])

end GaslessRelay.FileSystem

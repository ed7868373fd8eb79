import GaslessRelay.Proofs.KeyStoreContents
import Mathlib.Logic.Function.Basic
import Mathlib.Logic.Relation

/-!
Saves of several key stores at once. A save first writes a temporary file, so what another save does
meets it there: the saves leave each other alone exactly when no temporary path is the path of a
store, be it its own, or the temporary path of another.
-/

namespace GaslessRelay.KeyStore

open Outcome

/-- A save to be made. -/
structure Saving where
  store : KeyStore
  nonce : Bytes
  signers : List Signer

/-- What the save puts at the path of its store. -/
def Saving.bytes (saving : Saving) : Bytes :=
  saving.store.protect saving.nonce (content saving.signers)

/-- How far a save has come. -/
inductive Stage where
  | begun
  | made
  | written
  | ended (result : Except ConfigFault Unit)

/-- How the next step of a save fails. -/
def Stage.fault? : Stage → Option ConfigFault
  | begun => some .storeDirectory
  | made => some .storeWrite
  | written => some .storeRename
  | ended _ => none

/-- A step of a save. Any step may fail without a trace, and writing may also fail halfway, which
leaves any content in the temporary file. -/
inductive Advances (saving : Saving) : FileSystem → Stage → FileSystem → Stage → Prop where
  | make {files after : FileSystem} (done : saving.store.makeDirectory files = .ok after) :
    Advances saving files .begun after .made
  | write {files after : FileSystem}
      (done : saving.store.writeTemporary saving.bytes files = .ok after) :
    Advances saving files .made after .written
  | commit {files after : FileSystem} (done : saving.store.commit files = .ok after) :
    Advances saving files .written after (.ended (.ok ()))
  | refuse {files : FileSystem} {stage : Stage} {fault : ConfigFault}
      (fails : stage.fault? = some fault) :
    Advances saving files stage files (.ended (.error fault))
  | tear {files after : FileSystem} {torn : Bytes}
      (done : saving.store.writeTemporary torn files = .ok after) :
    Advances saving files .made after (.ended (.error .storeWrite))

/-- The files that the saves share, and how far each has come. -/
structure Saves (ι : Type) where
  files : FileSystem
  stage : ι → Stage

variable {ι : Type} {savings : ι → Saving}

namespace Saves

def start (files : FileSystem) : Saves ι := ⟨files, fun _ => .begun⟩

/-- A save that succeeded has put its own keys at the path of its store, and one that failed has
left there what was there before. -/
def Kept (savings : ι → Saving) (before : FileSystem) (saves : Saves ι) (who : ι) : Prop :=
  match saves.stage who with
  | .ended (.ok ()) => saves.files.content? (savings who).store.path = some (savings who).bytes
  | .ended (.error _) =>
    saves.files.content? (savings who).store.path = before.content? (savings who).store.path
  | _ => True

end Saves

/-- No temporary file stands in the place of a store's file or of another temporary file. A store
without a name for its file writes none. -/
structure PrivateTemporaries (savings : ι → Saving) : Prop where
  temporary_ne_path : ∀ who other, (savings who).store.path ≠ [] →
    (savings who).store.temporaryPath ≠ (savings other).store.path
  temporary_injective : ∀ who other,
    (savings who).store.temporaryPath = (savings other).store.temporaryPath → who = other

/-! ### What one step changes -/

section Steps

variable {saving : Saving} {files after : FileSystem} {stage next : Stage} {path : FilePath}

theorem content?_of_makeDirectory {store : KeyStore} (done : store.makeDirectory files = .ok after)
    (path : FilePath) : after.content? path = files.content? path :=
  FileSystem.content?_of_makeDirectories (mapError_eq_ok.1 done) path

/-- Only a store with a path writes anything. -/
theorem named_of_writeTemporary {store : KeyStore} {bytes : Bytes}
    (done : store.writeTemporary bytes files = .ok after) : store.path ≠ [] := by
  intro unnamed
  have some := FileSystem.ne_nil_of_node? (FileSystem.write_eq_ok.1 (mapError_eq_ok.1 done)).2.1
  rw [temporaryPath, unnamed] at some
  exact some rfl

theorem content?_of_writeTemporary {store : KeyStore} {bytes : Bytes}
    (done : store.writeTemporary bytes files = .ok after) (path : FilePath) :
    after.content? path
      = if path = store.temporaryPath then some bytes else files.content? path :=
  FileSystem.content?_of_write (mapError_eq_ok.1 done) path

theorem temporaryPath_of_unnamed {store : KeyStore} (unnamed : store.path = []) :
    store.temporaryPath = [] := by
  rw [temporaryPath, unnamed]
  rfl

/-- Committing moves the temporary file, which is at a path other than the root's. -/
theorem content?_of_commit {store : KeyStore} (done : store.commit files = .ok after) :
    store.path ≠ [] ∧ ∃ content, files.content? store.temporaryPath = some content ∧
      ∀ path, after.content? path = if path = store.path then some content
        else if path = store.temporaryPath then none else files.content? path := by
  obtain ⟨content, found, changed⟩ := FileSystem.content?_of_rename (mapError_eq_ok.1 done)
  refine ⟨fun unnamed => ?_, content, found, changed⟩
  rw [temporaryPath_of_unnamed unnamed] at found
  cases found

/-- A step leaves alone what is neither the temporary file nor, at the end, the store's file. -/
theorem Advances.content?_eq (advances : Advances saving files stage after next)
    (temporary : saving.store.path ≠ [] → path ≠ saving.store.temporaryPath)
    (target : next = .ended (.ok ()) → path ≠ saving.store.path) :
    after.content? path = files.content? path := by
  cases advances with
  | make done => exact content?_of_makeDirectory done path
  | write done =>
    rw [content?_of_writeTemporary done, if_neg (temporary (named_of_writeTemporary done))]
  | commit done =>
    obtain ⟨named, content, -, changed⟩ := content?_of_commit done
    rw [changed, if_neg (target rfl), if_neg (temporary named)]
  | refuse => rfl
  | tear done =>
    rw [content?_of_writeTemporary done, if_neg (temporary (named_of_writeTemporary done))]

/-- What holds of a save after each step: its keys are in the temporary file once they are written,
then at the path of the store, and until then that path holds what it held before. -/
structure Sound (saving : Saving) (before files : FileSystem) (stage : Stage) : Prop where
  written : stage = .written →
    files.content? saving.store.temporaryPath = some saving.bytes
  saved : stage = .ended (.ok ()) → files.content? saving.store.path = some saving.bytes
  unsaved : stage ≠ .ended (.ok ()) →
    files.content? saving.store.path = before.content? saving.store.path

variable {before : FileSystem}

theorem Sound.advance (sound : Sound saving before files stage)
    (own : saving.store.path ≠ [] → saving.store.temporaryPath ≠ saving.store.path)
    (advances : Advances saving files stage after next) : Sound saving before after next := by
  have apart : saving.store.path ≠ [] → saving.store.path ≠ saving.store.temporaryPath :=
    fun named => (own named).symm
  have unsaved : next ≠ .ended (.ok ()) → stage ≠ .ended (.ok ()) →
      after.content? saving.store.path = before.content? saving.store.path := by
    intro unfinished earlier
    rw [advances.content?_eq apart fun finished => absurd finished unfinished,
      sound.unsaved earlier]
  cases advances with
  | make done => exact ⟨nofun, nofun, fun unfinished => unsaved unfinished nofun⟩
  | write done =>
    refine ⟨fun _ => ?_, nofun, fun unfinished => unsaved unfinished nofun⟩
    rw [content?_of_writeTemporary done, if_pos rfl]
  | commit done =>
    obtain ⟨-, content, found, changed⟩ := content?_of_commit done
    refine ⟨nofun, fun _ => ?_, fun unfinished => absurd rfl unfinished⟩
    rw [changed, if_pos rfl, ← found, sound.written rfl]
  | refuse fails =>
    refine ⟨nofun, nofun, fun unfinished => unsaved unfinished ?_⟩
    rintro rfl
    cases fails
  | tear done => exact ⟨nofun, nofun, fun unfinished => unsaved unfinished nofun⟩

/-- A step of another save, whose paths are others. -/
theorem Sound.other (sound : Sound saving before files stage) {other : Saving} {stage' : Stage}
    (paths : saving.store.path ≠ other.store.path)
    (temporaries : saving.store.temporaryPath ≠ other.store.temporaryPath)
    (mine : saving.store.path ≠ [] → saving.store.temporaryPath ≠ other.store.path)
    (theirs : other.store.path ≠ [] → other.store.temporaryPath ≠ saving.store.path)
    (advances : Advances other files stage' after next) : Sound saving before after stage := by
  have kept : after.content? saving.store.path = files.content? saving.store.path :=
    advances.content?_eq (fun named => (theirs named).symm) fun _ => paths
  refine ⟨fun written => ?_, fun saved => kept.trans (sound.saved saved),
    fun unsaved => kept.trans (sound.unsaved unsaved)⟩
  have found := sound.written written
  have named : saving.store.path ≠ [] := by
    intro unnamed
    rw [temporaryPath_of_unnamed unnamed] at found
    cases found
  rw [advances.content?_eq (fun _ => temporaries) fun _ => mine named, found]

theorem named_of_shared (distinct : Function.Injective fun who => (savings who).store.path)
    {who other : ι} (different : who ≠ other)
    (meets : (savings who).store.temporaryPath = (savings other).store.temporaryPath) :
    (savings who).store.path ≠ [] := by
  intro unnamed
  rw [temporaryPath_of_unnamed unnamed] at meets
  have unnamedOther : (savings other).store.path = [] := by
    by_contra namedOther
    exact temporaryPath_ne_nil namedOther meets.symm
  exact different (distinct (unnamed.trans unnamedOther.symm))

end Steps

/-! ### Whole runs -/

section Runs

variable [DecidableEq ι]

/-- One of the saves makes a step. -/
inductive Saves.Step (savings : ι → Saving) (saves : Saves ι) : Saves ι → Prop where
  | of (who : ι) {after : FileSystem} {stage : Stage}
      (advances : Advances (savings who) saves.files (saves.stage who) after stage) :
    Step savings saves ⟨after, Function.update saves.stage who stage⟩

/-- The saves may come from one state to another, in some interleaving of their steps. -/
def Saves.Reaches (savings : ι → Saving) : Saves ι → Saves ι → Prop :=
  Relation.ReflTransGen (Step savings)

/-- Whatever the files and the interleaving, each save keeps to its result. -/
def Undisturbed (savings : ι → Saving) : Prop :=
  ∀ before saves, Saves.Reaches savings (.start before) saves →
    ∀ who, saves.Kept savings before who

theorem sound_of_reaches (distinct : Function.Injective fun who => (savings who).store.path)
    (apart : PrivateTemporaries savings) {before : FileSystem} {saves : Saves ι}
    (reaches : Saves.Reaches savings (.start before) saves) (who : ι) :
    Sound (savings who) before saves.files (saves.stage who) := by
  induction reaches with
  | refl => exact ⟨nofun, nofun, fun _ => rfl⟩
  | tail _ step ih =>
    obtain ⟨mover, advances⟩ := step
    by_cases same : who = mover
    · subst same
      simp only [Function.update_self]
      exact ih.advance (apart.temporary_ne_path who who) advances
    · simp only [Function.update_of_ne same]
      exact ih.other (fun path => same (distinct path))
        (fun path => same (apart.temporary_injective _ _ path))
        (apart.temporary_ne_path who mover) (apart.temporary_ne_path mover who) advances

theorem undisturbed_of_private (distinct : Function.Injective fun who => (savings who).store.path)
    (apart : PrivateTemporaries savings) : Undisturbed savings := by
  intro before saves reaches who
  have sound := sound_of_reaches distinct apart reaches who
  unfold Saves.Kept
  split
  · next finished => exact sound.saved finished
  · next failed => exact sound.unsaved (by rw [failed]; nofun)
  · trivial

/-- One more step of a save, which leaves the stages of the others. -/
theorem Saves.Reaches.advance {first saves : Saves ι} (reaches : Reaches savings first saves)
    (who : ι) {stage next : Stage} {after : FileSystem} (here : saves.stage who = stage)
    (advances : Advances (savings who) saves.files stage after next) :
    ∃ stages, Reaches savings first ⟨after, stages⟩ ∧ stages who = next ∧
      ∀ other, other ≠ who → stages other = saves.stage other :=
  ⟨_, reaches.tail (.of who (here ▸ advances)), Function.update_self ..,
    fun _ different => Function.update_of_ne different ..⟩

theorem Saves.reaches_self (first : Saves ι) : Reaches savings first first :=
  Relation.ReflTransGen.refl

/-- One save comes to a stage while the others have not begun. -/
def Saves.Alone (savings : ι → Saving) (files : FileSystem) (who : ι) (after : FileSystem)
    (stage : Stage) : Prop :=
  ∃ stages, Reaches savings (.start files) ⟨after, stages⟩ ∧ stages who = stage ∧
    ∀ other, other ≠ who → stages other = .begun

theorem Saves.alone_begun (files : FileSystem) (who : ι) :
    Alone savings files who files .begun :=
  ⟨_, reaches_self (.start files), rfl, fun _ _ => rfl⟩

theorem Saves.Alone.advance {files middle after : FileSystem} {who : ι} {stage next : Stage}
    (alone : Alone savings files who middle stage)
    (advances : Advances (savings who) middle stage after next) :
    Alone savings files who after next := by
  obtain ⟨stages, reached, here, begun⟩ := alone
  obtain ⟨stages', reached, there, others⟩ := reached.advance who here advances
  exact ⟨stages', reached, there,
    fun other different => (others other different).trans (begun other different)⟩

/-- A save by itself is one of the interleavings. -/
theorem alone_of_save {files after : FileSystem} {who : ι} {result : Except ConfigFault Unit}
    (saved : (savings who).store.save (savings who).nonce (savings who).signers files
      = (result, after)) :
    Saves.Alone savings files who after (.ended result) := by
  have begun : Saves.Alone savings files who files .begun := Saves.alone_begun files who
  rcases runSteps_cons_eq.1 saved with ⟨made, one, saved⟩ | ⟨fault, failed, rfl, rfl⟩
  · have begun := begun.advance (.make one)
    rcases runSteps_cons_eq.1 saved with ⟨written, two, saved⟩ | ⟨fault, failed, rfl, rfl⟩
    · have begun := begun.advance (.write two)
      rcases runSteps_cons_eq.1 saved with ⟨final, three, saved⟩ | ⟨fault, failed, rfl, rfl⟩
      · cases saved
        exact begun.advance (.commit three)
      · obtain ⟨_, -, rfl⟩ := mapError_eq_error.1 failed
        exact begun.advance (.refuse rfl)
    · obtain ⟨_, -, rfl⟩ := mapError_eq_error.1 failed
      exact begun.advance (.refuse rfl)
  · obtain ⟨_, -, rfl⟩ := mapError_eq_error.1 failed
    exact begun.advance (.refuse rfl)

/-- A temporary file in the place of a store's file stays there when writing it fails halfway. -/
theorem disturbed_through_path {who other : ι} (named : (savings who).store.path ≠ [])
    (meets : (savings who).store.temporaryPath = (savings other).store.path) :
    ¬Undisturbed savings := by
  intro undisturbed
  obtain ⟨made, one, ready⟩ := (clear_empty named).makeDirectory
  obtain ⟨torn, two, -, read⟩ := ready.writeTemporary []
  obtain ⟨stages, reached, failed, begun⟩ :=
    ((Saves.alone_begun {} who).advance (.make one)).advance (.tear two)
  -- Another save may still fail before it has written anything.
  obtain ⟨stages, fault, reached, failed⟩ : ∃ stages fault,
      Saves.Reaches savings (.start {}) ⟨torn, stages⟩ ∧ stages other = .ended (.error fault) := by
    by_cases same : other = who
    · exact ⟨stages, _, reached, same ▸ failed⟩
    · obtain ⟨stages, reached, refused, -⟩ :=
        reached.advance other (begun other same) (.refuse rfl)
      exact ⟨stages, _, reached, refused⟩
  have kept := undisturbed _ _ reached other
  have found := FileSystem.content?_of_read read
  rw [meets] at found
  simp only [Saves.Kept, failed, found, FileSystem.content?_empty, reduceCtorEq] at kept

/-- A temporary file that two saves share is moved by one with what the other wrote into it. -/
theorem reaches_overwritten
    (distinct : Function.Injective fun who => (savings who).store.path) {who other : ι}
    (different : who ≠ other)
    (meets : (savings who).store.temporaryPath = (savings other).store.temporaryPath)
    {content : Bytes} {next : Stage}
    (writes : ∀ {files after : FileSystem},
      (savings other).store.writeTemporary content files = .ok after →
      Advances (savings other) files .made after next) :
    ∃ saves, Saves.Reaches savings (.start {}) saves ∧ saves.stage who = .ended (.ok ()) ∧
      saves.files.read (savings who).store.path = .ok content := by
  have named := named_of_shared distinct different meets
  have namedOther := named_of_shared distinct different.symm meets.symm
  have parents : (savings other).store.path.parent = (savings who).store.path.parent := by
    rw [← parent_temporaryPath named, ← parent_temporaryPath namedOther, meets]
  obtain ⟨made, one, ready⟩ := (clear_empty named).makeDirectory
  have again : (savings other).store.makeDirectory made = .ok made :=
    mapError_eq_ok.2 (FileSystem.makeDirectories_of_stands (parents ▸ ready.above))
  obtain ⟨written, two, ready, -⟩ := ready.writeTemporary (savings who).bytes
  obtain ⟨overwritten, three, ready, read⟩ := ready.writeTemporary content
  have rewrites : (savings other).store.writeTemporary content written = .ok overwritten := by
    rw [writeTemporary, ← meets]
    exact three
  obtain ⟨after, four, moved⟩ := ready.commit read
  obtain ⟨stages, reached, mine, begun⟩ := (Saves.alone_begun {} who).advance (.make one)
  obtain ⟨stages', reached, theirs, others'⟩ :=
    reached.advance other (begun other different.symm) (.make again)
  obtain ⟨stages, reached, mine, others⟩ :=
    reached.advance who ((others' who different).trans mine) (.write two)
  obtain ⟨stages', reached, -, others'⟩ :=
    reached.advance other ((others other different.symm).trans theirs) (writes rewrites)
  obtain ⟨stages, reached, finished, -⟩ :=
    reached.advance who ((others' who different).trans mine) (.commit four)
  exact ⟨_, reached, finished, moved⟩

theorem disturbed_through_temporary
    (distinct : Function.Injective fun who => (savings who).store.path) {who other : ι}
    (different : who ≠ other)
    (meets : (savings who).store.temporaryPath = (savings other).store.temporaryPath) :
    ¬Undisturbed savings := by
  intro undisturbed
  -- Some content other than the keys that are saved.
  obtain ⟨saves, reached, finished, read⟩ : ∃ saves, Saves.Reaches savings (.start {}) saves ∧
      saves.stage who = .ended (.ok ()) ∧
      saves.files.read (savings who).store.path = .ok (0 :: (savings who).bytes) :=
    reaches_overwritten distinct different meets .tear
  have kept := undisturbed _ _ reached who
  have found := FileSystem.content?_of_read read
  simp [Saves.Kept, finished, found] at kept

/-- Saves leave each other alone exactly when their temporary files are private. -/
theorem saves_undisturbed_iff_private
    (distinct : Function.Injective fun who => (savings who).store.path) :
    Undisturbed savings ↔ PrivateTemporaries savings := by
  refine ⟨fun undisturbed => ⟨fun who other named meets => ?_, fun who other meets => ?_⟩,
    undisturbed_of_private distinct⟩
  · exact disturbed_through_path named meets undisturbed
  · by_contra different
    exact disturbed_through_temporary distinct different meets undisturbed

/-- Two stores beside each other with names of their own. -/
theorem saves_undisturbed_iff_private_two :
    let savings : Bool → Saving := fun second =>
      ⟨⟨["keys", if second then "owners.json" else "relayer.json"], .plain⟩, [], []⟩
    (Function.Injective fun who => (savings who).store.path) ∧ Undisturbed savings := by
  intro savings
  have distinct : Function.Injective fun who => (savings who).store.path := by
    intro who other
    revert who other
    decide
  have apart : PrivateTemporaries savings := ⟨by decide, by decide⟩
  exact ⟨distinct, (saves_undisturbed_iff_private distinct).2 apart⟩

/-- Stores whose names differ in the extension alone share their temporary file: one save succeeds
and leaves its store with the keys of the other. -/
theorem saved_keys_swapped :
    let mine : Signer := ⟨⟨3, by decide⟩, 0x6813eb9362372eef6200f3b1dbc3f819671cba69⟩
    let theirs : Signer := ⟨⟨1, by decide⟩, 0x7e5f4552091a69125d5dfcb7b8c2659029395bdf⟩
    let savings : Bool → Saving := fun second =>
      if second then ⟨⟨["relayer.bin"], .plain⟩, [], [theirs]⟩
      else ⟨⟨["relayer.json"], .plain⟩, [], [mine]⟩
    (Function.Injective fun who => (savings who).store.path) ∧
      ∃ saves, Saves.Reaches savings (.start {}) saves ∧ saves.stage false = .ended (.ok ()) ∧
        saves.files.content? ["relayer.json"] ≠ some (content [mine]) ∧
        (savings false).store.load saves.files = .ok [theirs] := by
  intro mine theirs savings
  have distinct : Function.Injective fun who => (savings who).store.path := by
    intro who other
    revert who other
    decide
  obtain ⟨saves, reached, finished, read⟩ := reaches_overwritten distinct
    (by decide : false ≠ true) (by decide) .write
  have derived : (Account.pointAddress theirs.key.publicPoint).toOption = some theirs.address := by
    decide +kernel
  have held : (StoredKey.ofSigner theirs).Holds theirs :=
    StoredKey.holds_ofSigner (Signer.ofKey_eq_ok.2 ⟨rfl, toOption_eq_some.1 derived⟩)
  refine ⟨distinct, saves, reached, finished, ?_, load_eq_ok.2 (.inr ⟨_, _, _, read, rfl,
    storedKeys?_content [theirs], .cons held .nil⟩)⟩
  have found : saves.files.content? ["relayer.json"] = some (content [theirs]) :=
    FileSystem.content?_of_read read
  rw [found]
  intro same
  have keys := congrArg storedKeys? (Option.some.inj same)
  rw [storedKeys?_content, storedKeys?_content] at keys
  have addresses := congrArg (·.map (·.map StoredKey.address)) keys
  exact absurd addresses (by decide)

end Runs

end GaslessRelay.KeyStore

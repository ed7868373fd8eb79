import GaslessRelay.KeyStore.Basic
import GaslessRelay.Proofs.FileOperations
import GaslessRelay.Proofs.SealedBytes
import GaslessRelay.Proofs.WrittenParts

/-!
What a key store gives back: the signers of the last save, in their order, or an error. A file is
loaded exactly when each of its entries is the secret of a key beside the address of that key.
-/

namespace GaslessRelay

open Outcome

namespace Curve.SecretKey

theorem length_bytes (key : SecretKey) : key.bytes.length = 32 := Bytes.length_ofNat 32 _

/-- The bytes of a key spell the key. -/
theorem ofBytes?_bytes (key : SecretKey) : ofBytes? key.bytes = some key := by
  have bound : key.scalar.val < Nat.pow 256 32 :=
    Nat.lt_trans key.scalar.isLt (by decide)
  have number : key.bytes.toNat = key.scalar.val := by
    rw [bytes, Bytes.toNat_ofNat, Nat.mod_eq_of_lt bound]
  rw [ofBytes?, if_pos (by rw [length_bytes]; decide), number, ofNat?,
    dif_pos key.scalar.isLt, dif_pos key.nonzero]

end Curve.SecretKey

namespace Signer

/-- The address is the one of the key. -/
def Genuine (signer : Signer) : Prop := ofKey signer.key = .ok signer

/-- The text spells the bytes of a key in hexadecimal, with or without `0x` before them. -/
def Spells (text : String) (key : Curve.SecretKey) : Prop :=
  ∃ digits bytes, (Bytes.ofString text = digits ∨ Bytes.ofString text = 48 :: 120 :: digits) ∧
    Text.Hex.decode digits = .ok bytes ∧ Curve.SecretKey.ofBytes? bytes = some key

theorem ofBytes_eq_ok {secret : Bytes} {signer : Signer} :
    ofBytes secret = .ok signer ↔
      ∃ key, Curve.SecretKey.ofBytes? secret = some key ∧ ofKey key = .ok signer := by
  unfold ofBytes
  cases Curve.SecretKey.ofBytes? secret with
  | none => simp
  | some key => simp

/-- No digits begin with `0x`. -/
theorem decode_marked_ne_ok (rest bytes : Bytes) :
    Text.Hex.decode (48 :: 120 :: rest) ≠ .ok bytes := by
  intro decoded
  unfold Text.Hex.decode at decoded
  split at decoded
  · cases decoded
  · cases decoded

theorem ofHex_eq_ok {secret : String} {signer : Signer} :
    ofHex secret = .ok signer ↔ ∃ key, Spells secret key ∧ ofKey key = .ok signer := by
  unfold ofHex Spells
  extract_lets digits
  constructor
  · intro found
    have text : Bytes.ofString secret = digits ∨ Bytes.ofString secret = 48 :: 120 :: digits := by
      unfold digits
      split
      · next rest marked => exact .inr marked
      · exact .inl rfl
    split at found
    · next bytes decoded =>
      obtain ⟨key, spelled, derived⟩ := ofBytes_eq_ok.1 found
      exact ⟨key, ⟨digits, bytes, text, decoded, spelled⟩, derived⟩
    · cases found
  · rintro ⟨key, ⟨given, bytes, text, decoded, spelled⟩, derived⟩
    have same : digits = given := by
      unfold digits
      rcases text with text | text
      · rw [text]
        split
        · next rest => exact absurd decoded (decode_marked_ne_ok rest bytes)
        · rfl
      · rw [text]
        rfl
    rw [same, decoded]
    exact ofBytes_eq_ok.2 ⟨key, spelled, derived⟩

theorem spells_encode (key : Curve.SecretKey) : Spells (Text.Hex.encode key.bytes) key :=
  ⟨Text.Hex.encodeBytes key.bytes, key.bytes, .inl (Text.Hex.ofString_encode _),
    Text.Hex.decode_encodeBytes _, key.ofBytes?_bytes⟩

theorem ofKey_eq_ok {key : Curve.SecretKey} {signer : Signer} :
    ofKey key = .ok signer ↔
      signer.key = key ∧ Account.pointAddress key.publicPoint = .ok signer.address := by
  obtain ⟨key', address'⟩ := signer
  unfold ofKey
  rw [bind_eq_ok]
  constructor
  · rintro ⟨address, derived, made⟩
    cases made
    exact ⟨rfl, derived⟩
  · rintro ⟨rfl, derived⟩
    exact ⟨address', derived, rfl⟩

end Signer

namespace KeyStore

namespace StoredKey

/-- The entry is the secret of the signer's key beside the address of that key. -/
structure Holds (stored : StoredKey) (signer : Signer) : Prop where
  secret : Signer.Spells stored.secret signer.key
  derived : Account.pointAddress signer.key.publicPoint = .ok stored.address
  address : signer.address = stored.address

theorem signer_eq_ok {stored : StoredKey} {signer : Signer} :
    stored.signer = .ok signer ↔ stored.Holds signer := by
  unfold StoredKey.signer
  constructor
  · intro read
    split at read
    · cases read
    · next found =>
      split at read
      · next same =>
        cases read
        obtain ⟨key, spelled, derived⟩ := Signer.ofHex_eq_ok.1 found
        obtain ⟨rfl, derived⟩ := Signer.ofKey_eq_ok.1 derived
        exact ⟨spelled, same ▸ derived, same⟩
      · cases read
  · rintro ⟨spelled, derived, same⟩
    have found : Signer.ofHex stored.secret = .ok signer :=
      Signer.ofHex_eq_ok.2 ⟨signer.key, spelled, Signer.ofKey_eq_ok.2 ⟨rfl, same ▸ derived⟩⟩
    rw [found]
    exact if_pos same

theorem holds_ofSigner {signer : Signer} (genuine : signer.Genuine) :
    (ofSigner signer).Holds signer :=
  ⟨Signer.spells_encode signer.key, (Signer.ofKey_eq_ok.1 genuine).2, rfl⟩

/-- The two fields of an entry as they are written. -/
def writtenFields (stored : StoredKey) : List (Json.Scan.WrittenField (Address ⊕ String)) :=
  [⟨"address", Json.Scan.as .inl Json.Scan.address?, .ofAddress stored.address,
      .inl stored.address⟩,
    ⟨"secret_key", Json.Scan.as .inr Json.Scan.string?, .string stored.secret,
      .inr stored.secret⟩]

variable {stored : StoredKey}

theorem reads_written (plain : Json.PlainText stored.secret) (level : Nat) :
    ∀ field ∈ stored.writtenFields, Json.PlainText field.name ∧
      Json.Scan.Reads field.part (Json.prettyChars level field.json) field.value := by
  refine List.forall_mem_cons.2 ⟨⟨?_, ?_⟩, List.forall_mem_singleton.2 ⟨?_, ?_⟩⟩
  · exact (by decide : Json.PlainText "address")
  · exact (Json.Scan.reads_address stored.address).as Sum.inl
  · exact (by decide : Json.PlainText "secret_key")
  · exact (Json.Scan.reads_string plain).as Sum.inr

theorem distinct_writtenFields (stored : StoredKey) :
    (stored.writtenFields.map (·.name)).Nodup :=
  (by decide : ["address", "secret_key"].Nodup)

theorem reads_toJson (plain : Json.PlainText stored.secret) (level : Nat) :
    Json.Scan.Reads read? (Json.prettyChars level stored.toJson) stored := by
  have record := Json.Scan.reads_record stored.distinct_writtenFields (List.cons_ne_nil _ _)
    (reads_written plain (level + 1))
  refine ⟨record.opens, fun blanks rest blank => ?_⟩
  exact Option.bind_eq_some_iff.2 ⟨_, record.read blanks rest blank, rfl⟩

theorem ascii_toJson (plain : Json.PlainText stored.secret) (level : Nat) :
    Json.Ascii (Json.prettyChars level stored.toJson) := by
  have fields : ∀ field ∈ stored.writtenFields, Json.PlainText field.name ∧
      Json.Ascii (Json.prettyChars (level + 1) field.json) := by
    refine List.forall_mem_cons.2 ⟨⟨?_, ?_⟩, List.forall_mem_singleton.2 ⟨?_, ?_⟩⟩
    · exact (by decide : Json.PlainText "address")
    · exact Json.Scan.ascii_quoted (Json.Scan.plain_encodePrefixed _)
    · exact (by decide : Json.PlainText "secret_key")
    · exact Json.Scan.ascii_quoted plain
  exact Json.Scan.ascii_record fields

end StoredKey

/-- The only field of a store as it is written. -/
def writtenFields (signers : List Signer) : List (Json.Scan.WrittenField (List StoredKey)) :=
  [⟨"keys", Json.Scan.list? StoredKey.read?,
    .array (signers.map fun signer => (StoredKey.ofSigner signer).toJson),
    signers.map StoredKey.ofSigner⟩]

theorem plain_secret (signer : Signer) : Json.PlainText (StoredKey.ofSigner signer).secret :=
  Json.Scan.plain_encode _

theorem reads_written (signers : List Signer) :
    ∀ field ∈ writtenFields signers, Json.PlainText field.name ∧
      Json.Scan.Reads field.part (Json.prettyChars 1 field.json) field.value := by
  refine List.forall_mem_singleton.2 ⟨(by decide : Json.PlainText "keys"), ?_⟩
  refine Json.Scan.reads_list (List.forall₂_map_left_iff.2 (List.forall₂_map_right_iff.2 ?_))
  exact List.forall₂_same.2 fun signer _ => StoredKey.reads_toJson (plain_secret signer) _

theorem ascii_written (signers : List Signer) :
    ∀ field ∈ writtenFields signers, Json.PlainText field.name ∧
      Json.Ascii (Json.prettyChars 1 field.json) := by
  refine List.forall_mem_singleton.2 ⟨(by decide : Json.PlainText "keys"), ?_⟩
  refine Json.Scan.ascii_list (List.forall_mem_map.2 ?_)
  exact fun signer _ => StoredKey.ascii_toJson (plain_secret signer) _

/-- What was written of signers is read as their keys. -/
theorem storedKeys?_content (signers : List Signer) :
    storedKeys? (content signers) = some (signers.map StoredKey.ofSigner) := by
  have text := Json.Scan.textOf_ofString (Json.Scan.ascii_record (ascii_written signers))
  have distinct : ((writtenFields signers).map (·.name)).Nodup :=
    List.nodup_cons.2 ⟨List.not_mem_nil, List.nodup_nil⟩
  have read := (Json.Scan.reads_record distinct (List.cons_ne_nil _ _)
    (reads_written signers)).read [] [] .nil
  rw [List.append_nil, List.nil_append, ← text] at read
  exact Option.bind_eq_some_iff.2 ⟨_, read, rfl⟩

/-! ### Saving -/

section Saving

variable {store : KeyStore} {files after : FileSystem} {nonce : Bytes} {signers : List Signer}

/-- The first step fails, and the files stay, or the other steps go on from what it leaves. -/
theorem runSteps_cons_eq {step : FileSystem → Except ConfigFault FileSystem}
    {rest : List (FileSystem → Except ConfigFault FileSystem)} {result : Except ConfigFault Unit} :
    runSteps files (step :: rest) = (result, after) ↔
      (∃ middle, step files = .ok middle ∧ runSteps middle rest = (result, after)) ∨
      ∃ fault, step files = .error fault ∧ result = .error fault ∧ after = files := by
  rw [runSteps]
  cases step files with
  | ok middle => simp
  | error fault => simp [eq_comm]

theorem runSteps_cons_eq_ok {step : FileSystem → Except ConfigFault FileSystem}
    {rest : List (FileSystem → Except ConfigFault FileSystem)} :
    runSteps files (step :: rest) = (.ok (), after) ↔
      ∃ middle, step files = .ok middle ∧ runSteps middle rest = (.ok (), after) := by
  simp [runSteps_cons_eq]

/-- A save succeeds exactly when each of its steps does. -/
theorem save_eq_ok : store.save nonce signers files = (.ok (), after) ↔
    ∃ made written, store.makeDirectory files = .ok made ∧
      store.writeTemporary (store.protect nonce (content signers)) made = .ok written ∧
      store.commit written = .ok after := by
  constructor
  · intro saved
    obtain ⟨made, one, saved⟩ := runSteps_cons_eq_ok.1 saved
    obtain ⟨written, two, saved⟩ := runSteps_cons_eq_ok.1 saved
    obtain ⟨final, three, saved⟩ := runSteps_cons_eq_ok.1 saved
    cases saved
    exact ⟨made, written, one, two, three⟩
  · rintro ⟨made, written, one, two, three⟩
    exact runSteps_cons_eq_ok.2 ⟨made, one, runSteps_cons_eq_ok.2 ⟨written, two,
      runSteps_cons_eq_ok.2 ⟨after, three, rfl⟩⟩⟩

theorem read_of_save (saved : store.save nonce signers files = (.ok (), after)) :
    after.read store.path = .ok (store.protect nonce (content signers)) := by
  obtain ⟨made, written, -, wrote, renamed⟩ := save_eq_ok.1 saved
  rw [FileSystem.read_of_rename (mapError_eq_ok.1 renamed),
    FileSystem.read_of_write (mapError_eq_ok.1 wrote)]

/-- Nothing is in the way of a save: no file where a directory is needed and no directory where a
file is written. -/
structure Clear (store : KeyStore) (files : FileSystem) : Prop where
  named : store.path ≠ []
  above : ∀ directory ∈ FileSystem.leading store.path.parent, ∀ content,
    files.node? directory ≠ some (.file content)
  temporary : files.node? store.temporaryPath ≠ some .directory
  target : files.node? store.path ≠ some .directory

theorem exists_temporaryPath_eq (named : store.path ≠ []) :
    ∃ name, store.temporaryPath = store.path.parent ++ [name] := by
  unfold temporaryPath FilePath.withExtension
  rw [List.getLast?_eq_some_getLast named]
  exact ⟨_, rfl⟩

theorem temporaryPath_ne_nil (named : store.path ≠ []) : store.temporaryPath ≠ [] := by
  obtain ⟨name, same⟩ := exists_temporaryPath_eq named
  rw [same]
  exact List.append_ne_nil_of_right_ne_nil _ (List.cons_ne_nil _ _)

theorem parent_temporaryPath (named : store.path ≠ []) :
    store.temporaryPath.parent = store.path.parent := by
  obtain ⟨name, same⟩ := exists_temporaryPath_eq named
  rw [same]
  exact List.dropLast_concat

theorem clear_empty (named : store.path ≠ []) : store.Clear {} where
  named := named
  above directory member content := by
    rw [FileSystem.node?_empty (FileSystem.mem_leading.1 member).1]
    simp
  temporary := by
    rw [FileSystem.node?_empty (temporaryPath_ne_nil named)]
    simp
  target := by
    rw [FileSystem.node?_empty named]
    simp

/-- The directory of the store stands, and no directory is where a file is written. -/
structure Ready (store : KeyStore) (files : FileSystem) : Prop where
  named : store.path ≠ []
  above : files.Stands store.path.parent
  temporary : files.node? store.temporaryPath ≠ some .directory
  target : files.node? store.path ≠ some .directory

/-- Neither of the two paths leads to their directory, so no directory is made at them. -/
theorem Clear.makeDirectory (clear : store.Clear files) :
    ∃ after, store.makeDirectory files = .ok after ∧ store.Ready after := by
  have parent := parent_temporaryPath clear.named
  obtain ⟨made, one⟩ := FileSystem.exists_makeDirectories clear.above
  have kept {path : FilePath} (some : path ≠ []) (same : path.parent = store.path.parent) :
      made.node? path = files.node? path := by
    rw [FileSystem.node?_of_makeDirectories one,
      if_neg (same ▸ FileSystem.not_mem_leading_parent some)]
  refine ⟨made, mapError_eq_ok.2 one, clear.named, FileSystem.stands_of_makeDirectories one, ?_, ?_⟩
  · rw [kept (temporaryPath_ne_nil clear.named) parent]
    exact clear.temporary
  · rw [kept clear.named rfl]
    exact clear.target

theorem Ready.writeTemporary (ready : store.Ready files) (bytes : Bytes) :
    ∃ after, store.writeTemporary bytes files = .ok after ∧ store.Ready after ∧
      after.read store.temporaryPath = .ok bytes := by
  have parent := parent_temporaryPath ready.named
  have wrote : files.write store.temporaryPath bytes
      = .ok (files.put store.temporaryPath (.file bytes)) :=
    FileSystem.write_eq_ok.2 ⟨parent ▸ ready.above, ready.temporary, rfl⟩
  have read := FileSystem.read_of_write wrote
  obtain ⟨stands, found⟩ := FileSystem.read_eq_ok.1 read
  refine ⟨_, mapError_eq_ok.2 wrote, ⟨ready.named, parent ▸ stands, ?_, ?_⟩, read⟩
  · rw [found]
    simp
  · rw [FileSystem.node?_put (temporaryPath_ne_nil ready.named)]
    split
    · simp
    · exact ready.target

theorem Ready.commit (ready : store.Ready files) {bytes : Bytes}
    (read : files.read store.temporaryPath = .ok bytes) :
    ∃ after, store.commit files = .ok after ∧ after.read store.path = .ok bytes := by
  have renamed := FileSystem.rename_eq_ok.2 ⟨bytes, read, ready.above, ready.target, rfl⟩
  exact ⟨_, mapError_eq_ok.2 renamed, (FileSystem.read_of_rename renamed).trans read⟩

/-- A save succeeds if nothing is in the way. -/
theorem exists_save (clear : store.Clear files) (nonce : Bytes) (signers : List Signer) :
    ∃ after, store.save nonce signers files = (.ok (), after) := by
  obtain ⟨made, one, ready⟩ := clear.makeDirectory
  obtain ⟨written, two, ready, read⟩ := ready.writeTemporary (store.protect nonce (content signers))
  obtain ⟨after, three, -⟩ := ready.commit read
  exact ⟨after, save_eq_ok.2 ⟨made, written, one, two, three⟩⟩

end Saving

/-! ### Loading -/

section Loading

variable {store : KeyStore} {files : FileSystem} {signers : List Signer}

theorem length_of_sealingOf {keyText : String} {key : Bytes}
    (opened : sealingOf keyText = .ok (.sealed key)) : key.length = 32 := by
  unfold sealingOf at opened
  dsimp only at opened
  split at opened
  · cases opened
  · split at opened
    · next length =>
      cases opened
      exact length
    · cases opened

/-- A store opens what it sealed. -/
theorem reveal_protect {path : FilePath} {keyText : Option String}
    (opened : ofKeyText path keyText = .ok store) {nonce : Bytes}
    (fresh : nonce.length = nonceLength) (content : Bytes) :
    store.reveal (store.protect nonce content) = .ok content := by
  unfold ofKeyText at opened
  cases keyText with
  | none =>
    cases opened
    rfl
  | some text =>
    obtain ⟨sealing, sealed, made⟩ := map_eq_ok.1 opened
    cases made
    cases sealing with
    | plain => rfl
    | «sealed» key =>
      have length := length_of_sealingOf sealed
      have long : ¬(nonce ++ Cipher.Gcm.encrypt key nonce content).length < nonceLength := by
        rw [List.length_append]
        omega
      refine (if_neg long).trans ?_
      simp only [protect]
      rw [List.take_left' fresh, List.drop_left' fresh,
        Cipher.Gcm.decrypt?_encrypt length fresh content]

theorem signersOf_eq_ok {bytes : Bytes} : store.signersOf bytes = .ok signers ↔
    ∃ content keys, store.reveal bytes = .ok content ∧ storedKeys? content = some keys ∧
      List.Forall₂ StoredKey.Holds keys signers := by
  unfold signersOf
  rw [bind_eq_ok]
  refine exists_congr fun content => ?_
  rw [mapError_eq_ok, exists_and_left]
  refine and_congr_right fun _ => ?_
  cases storedKeys? content with
  | none => simp
  | some keys =>
    have each : (fun stored signer => StoredKey.signer stored = .ok signer) = StoredKey.Holds :=
      funext fun _ => funext fun _ => propext StoredKey.signer_eq_ok
    simp only [mapM_eq_ok, each, Option.some.injEq, exists_eq_left']

/-- The signers are those of the file's entries in their order, or there is no file and none. -/
theorem load_eq_ok : store.load files = .ok signers ↔
    (files.read store.path = .error .notFound ∧ signers = []) ∨
    ∃ bytes content keys, files.read store.path = .ok bytes ∧ store.reveal bytes = .ok content ∧
      storedKeys? content = some keys ∧ List.Forall₂ StoredKey.Holds keys signers := by
  unfold load
  cases files.read store.path with
  | error fault => cases fault <;> simp [eq_comm]
  | ok bytes => simp [signersOf_eq_ok]

/-- A save is loaded as the signers that were saved, and it succeeds if nothing is in its way. Any
file is loaded exactly as signers whose keys its entries spell and whose addresses stand beside
them: one entry that has no key, or another address than that of its key, fails the load. -/
theorem load_gives_what_was_saved {path : FilePath} {keyText : Option String}
    (opened : ofKeyText path keyText = .ok store) :
    (∀ nonce signers files, nonce.length = nonceLength → (∀ signer ∈ signers, signer.Genuine) →
      (store.Clear files → ∃ after, store.save nonce signers files = (.ok (), after)) ∧
      ∀ after, store.save nonce signers files = (.ok (), after) →
        store.load after = .ok signers) ∧
    (∀ files signers, store.load files = .ok signers ↔
      (files.read store.path = .error .notFound ∧ signers = []) ∨
      ∃ bytes content keys, files.read store.path = .ok bytes ∧
        store.reveal bytes = .ok content ∧ storedKeys? content = some keys ∧
        List.Forall₂ StoredKey.Holds keys signers) ∧
    (∀ files bytes content keys, files.read store.path = .ok bytes →
      store.reveal bytes = .ok content → storedKeys? content = some keys →
      (∃ stored ∈ keys, ∀ signer, ¬StoredKey.Holds stored signer) →
      ∃ error, store.load files = .error error) := by
  refine ⟨fun nonce signers files fresh genuine =>
    ⟨fun clear => exists_save clear nonce signers, fun after saved => ?_⟩,
    fun files signers => load_eq_ok, ?_⟩
  · have held : List.Forall₂ StoredKey.Holds (signers.map StoredKey.ofSigner) signers :=
      List.forall₂_map_left_iff.2
        (List.forall₂_same.2 fun signer member => StoredKey.holds_ofSigner (genuine signer member))
    exact load_eq_ok.2 (.inr ⟨_, _, _, read_of_save saved,
      reveal_protect opened fresh (content signers), storedKeys?_content signers, held⟩)
  · rintro files bytes content keys read revealed parsed ⟨stored, member, bad⟩
    cases loaded : store.load files with
    | error error => exact ⟨error, rfl⟩
    | ok signers =>
      rcases load_eq_ok.1 loaded with ⟨absent, -⟩ | ⟨bytes', content', keys', read', revealed',
        parsed', held⟩
      · rw [read] at absent
        cases absent
      · cases read.symm.trans read'
        cases revealed.symm.trans revealed'
        cases parsed.symm.trans parsed'
        obtain ⟨index, below, rfl⟩ := List.mem_iff_getElem.1 member
        exact absurd (held.get below (held.length_eq ▸ below)) (bad _)

/-- The same signer twice, in a sealed store. -/
theorem load_gives_what_was_saved_twice :
    let signer : Signer := ⟨⟨3, by decide⟩, 0x6813eb9362372eef6200f3b1dbc3f819671cba69⟩
    ∃ store after, ofKeyText ["keys", "relayer.json"]
        (some "AwMDAwMDAwMDAwMDAwMDAwMDAwMDAwMDAwMDAwMDAwM=") = .ok store ∧
      store.sealing = .sealed (List.replicate 32 3) ∧ signer.Genuine ∧
      store.save (Bytes.zeros nonceLength) [signer, signer] {} = (.ok (), after) ∧
      store.load after = .ok [signer, signer] := by
  intro signer
  have opened : ofKeyText ["keys", "relayer.json"]
      (some "AwMDAwMDAwMDAwMDAwMDAwMDAwMDAwMDAwMDAwMDAwM=")
      = .ok ⟨["keys", "relayer.json"], .sealed (List.replicate 32 3)⟩ :=
    toOption_eq_some.1 (by decide +kernel)
  have derived : (Account.pointAddress signer.key.publicPoint).toOption = some signer.address := by
    decide +kernel
  have genuine : signer.Genuine := Signer.ofKey_eq_ok.2 ⟨rfl, toOption_eq_some.1 derived⟩
  obtain ⟨succeeds, loads⟩ := (load_gives_what_was_saved opened).1 (Bytes.zeros nonceLength)
    [signer, signer] {} (Bytes.length_zeros _)
    (List.forall_mem_cons.2 ⟨genuine, List.forall_mem_singleton.2 genuine⟩)
  obtain ⟨after, saved⟩ := succeeds (clear_empty (List.cons_ne_nil _ _))
  exact ⟨_, after, opened, rfl, genuine, saved, loads after saved⟩

end Loading

end KeyStore

end GaslessRelay

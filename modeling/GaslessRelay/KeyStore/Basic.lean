import GaslessRelay.Account.Signature
import GaslessRelay.Cipher.Gcm
import GaslessRelay.Client.Config
import GaslessRelay.Json.Printer
import GaslessRelay.Json.Scan
import GaslessRelay.KeyStore.Files
import GaslessRelay.Text.Base64
import GaslessRelay.Text.Blank

/-!
A store of signing keys in one file, plain or sealed. A save writes a temporary file and renames it,
so the store's own file changes at once or not at all.
-/

namespace GaslessRelay

inductive Sealing where
  | plain
  | sealed (key : Bytes)
deriving DecidableEq

structure KeyStore where
  path : FilePath
  sealing : Sealing
deriving DecidableEq

namespace KeyStore

def nonceLength : Nat := 12

def sealingOf (keyText : String) : Except ConfigFault Sealing :=
  let trimmed := Bytes.ofString (String.ofList (Text.trim keyText.toList))
  match Text.Base64.decode trimmed with
  | .error fault => .error (.keyNotBase64 fault)
  | .ok key => if key.length = 32 then .ok (.sealed key) else .error (.keyLength key.length)

def ofKeyText (path : FilePath) (keyText : Option String) : Except ConfigFault KeyStore :=
  match keyText with
  | none => .ok ⟨path, .plain⟩
  | some text => (sealingOf text).map fun sealing => ⟨path, sealing⟩

def ofConfig (config : Config) : Except ConfigFault KeyStore :=
  ofKeyText (FilePath.ofString config.keysPath) config.keysEncryptionKey

structure StoredKey where
  address : Address
  secret : String
deriving DecidableEq

namespace StoredKey

def ofSigner (signer : Signer) : StoredKey := ⟨signer.address, Text.Hex.encode signer.key.bytes⟩

def toJson (stored : StoredKey) : Json :=
  .object [("address", .ofAddress stored.address), ("secret_key", .string stored.secret)]

def read? : Json.Scan.Part StoredKey := fun text => do
  let fields : List (String × Json.Scan.Part (Address ⊕ String)) :=
    [("address", Json.Scan.as .inl Json.Scan.address?),
      ("secret_key", Json.Scan.as .inr Json.Scan.string?)]
  let (values, rest) ← Json.Scan.record? fields text
  match values with
  | [.inl address, .inr secret] => return (⟨address, secret⟩, rest)
  | _ => none

/-- The signer of a stored key, whose address must be the stored one. -/
def signer (stored : StoredKey) : Except RelayError Signer :=
  match Signer.ofHex stored.secret with
  | .error error => .error (.ofAuth error)
  | .ok signer =>
    if signer.address = stored.address then .ok signer
    else .error (.config (.storedKeyMismatch stored.address signer.address))

end StoredKey

def content (signers : List Signer) : Bytes :=
  let keys := signers.map fun signer => (StoredKey.ofSigner signer).toJson
  Bytes.ofString (Json.object [("keys", .array keys)]).pretty

def storedKeys? (content : Bytes) : Option (List StoredKey) := do
  let text := Json.Scan.textOf content
  let (values, rest) ← Json.Scan.record? [("keys", Json.Scan.list? StoredKey.read?)] text
  match values, (Json.skipBlank rest).isEmpty with
  | [keys], true => return keys
  | _, _ => none

/-- The bytes of a file with a content; a sealed one starts with its nonce. -/
def protect (store : KeyStore) (nonce content : Bytes) : Bytes :=
  match store.sealing with
  | .plain => content
  | .sealed key => nonce ++ Cipher.Gcm.encrypt key nonce content

def reveal (store : KeyStore) (bytes : Bytes) : Except ConfigFault Bytes :=
  match store.sealing with
  | .plain => .ok bytes
  | .sealed key =>
    if bytes.length < nonceLength then .error .storeTooShort
    else
      match Cipher.Gcm.decrypt? key (bytes.take nonceLength) (bytes.drop nonceLength) with
      | some content => .ok content
      | none => .error .storeSealed

def temporaryPath (store : KeyStore) : FilePath := store.path.withExtension "tmp"

def makeDirectory (store : KeyStore) (files : FileSystem) : Except ConfigFault FileSystem :=
  (files.makeDirectories store.path.parent).mapError fun _ => .storeDirectory

/-- The second step of a save: the temporary file. -/
def writeTemporary (store : KeyStore) (bytes : Bytes) (files : FileSystem) :
    Except ConfigFault FileSystem :=
  (files.write store.temporaryPath bytes).mapError fun _ => .storeWrite

/-- The last step of a save: the temporary file takes the place of the store's file. -/
def commit (store : KeyStore) (files : FileSystem) : Except ConfigFault FileSystem :=
  (files.rename store.temporaryPath store.path).mapError fun _ => .storeRename

/-- Runs steps up to the first that fails, and keeps what was done before it. -/
def runSteps (files : FileSystem) : List (FileSystem → Except ConfigFault FileSystem) →
    Except ConfigFault Unit × FileSystem
  | [] => (.ok (), files)
  | step :: rest =>
    match step files with
    | .ok after => runSteps after rest
    | .error fault => (.error fault, files)

/-- Saves the keys of signers; the nonce is fresh for every save. -/
def save (store : KeyStore) (nonce : Bytes) (signers : List Signer) (files : FileSystem) :
    Except ConfigFault Unit × FileSystem :=
  let bytes := store.protect nonce (content signers)
  runSteps files [store.makeDirectory, store.writeTemporary bytes, store.commit]

def signersOf (store : KeyStore) (bytes : Bytes) : Except RelayError (List Signer) := do
  let content ← (store.reveal bytes).mapError .config
  match storedKeys? content with
  | none => .error (.config .storeParse)
  | some keys => keys.mapM StoredKey.signer

/-- The stored signers; none when there is no file yet. -/
def load (store : KeyStore) (files : FileSystem) : Except RelayError (List Signer) :=
  match files.read store.path with
  | .ok bytes => store.signersOf bytes
  | .error .notFound => .ok []
  | .error _ => .error (.config .storeRead)

end KeyStore

end GaslessRelay

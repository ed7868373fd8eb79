import GaslessRelay.Cipher.Gcm

/-!
Opening undoes sealing. Under a key of 32 bytes and a nonce of 12 every block of the key stream is
full, so the stream reaches to the end of any text and added twice leaves it as it was.
-/

namespace GaslessRelay.Cipher

namespace Aes

@[simp] theorem length_xorBytes (left right : Bytes) :
    (xorBytes left right).length = min left.length right.length :=
  List.length_zipWith

/-- The same bytes added twice leave a text as it was. -/
theorem xorBytes_xorBytes {text stream : Bytes} (long : text.length ≤ stream.length) :
    xorBytes (xorBytes text stream) stream = text := by
  induction text generalizing stream with
  | nil => rfl
  | cons byte rest ih =>
    cases stream with
    | nil => exact absurd long (Nat.not_succ_le_zero _)
    | cons mark others =>
      have same : byte ^^^ mark ^^^ mark = byte := by
        rw [UInt8.xor_assoc, UInt8.xor_self, UInt8.xor_zero]
      simp only [xorBytes, List.zipWith_cons_cons, same, List.cons.injEq, true_and]
      exact ih (Nat.le_of_succ_le_succ long)

/-- Words of the key schedule have four bytes each. -/
def AreWords (words : List Bytes) : Prop := ∀ word ∈ words, word.length = 4

theorem AreWords.append {first second : List Bytes} (areFirst : AreWords first)
    (areSecond : AreWords second) : AreWords (first ++ second) :=
  List.forall_mem_append.2 ⟨areFirst, areSecond⟩

theorem AreWords.take {words : List Bytes} (are : AreWords words) (count : Nat) :
    AreWords (words.take count) :=
  fun word member => are word (List.mem_of_mem_take member)

theorem AreWords.drop {words : List Bytes} (are : AreWords words) (count : Nat) :
    AreWords (words.drop count) :=
  fun word member => are word (List.mem_of_mem_drop member)

theorem AreWords.last {words : List Bytes} (are : AreWords words) (some : 0 < words.length) :
    (words.getLastD []).length = 4 := by
  rw [List.getLastD_eq_getLast?, List.getLast?_eq_some_getLast (List.ne_nil_of_length_pos some)]
  exact are _ (List.getLast_mem _)

theorem AreWords.flatten {words : List Bytes} (are : AreWords words) :
    words.flatten.length = 4 * words.length := by
  induction words with
  | nil => rfl
  | cons word rest ih =>
    obtain ⟨first, others⟩ := List.forall_mem_cons.1 are
    rw [List.flatten_cons, List.length_append, first, ih others, List.length_cons]
    omega

theorem areWords_cutWords {count : Nat} {bytes : Bytes} (long : 4 * count ≤ bytes.length) :
    AreWords (cutWords count bytes) ∧ (cutWords count bytes).length = count := by
  induction count generalizing bytes with
  | zero => exact ⟨List.forall_mem_nil _, rfl⟩
  | succ count ih =>
    have long : 4 * count ≤ (bytes.drop 4).length := by
      rw [List.length_drop]
      omega
    obtain ⟨are, length⟩ := ih long
    refine ⟨List.forall_mem_cons.2 ⟨?_, are⟩, congrArg Nat.succ length⟩
    rw [List.length_take]
    omega

@[simp] theorem length_chain (previous : Bytes) (words : List Bytes) :
    (chain previous words).length = words.length := by
  induction words generalizing previous with
  | nil => rfl
  | cons word rest ih => exact congrArg Nat.succ (ih _)

theorem areWords_chain {previous : Bytes} {words : List Bytes} (start : previous.length = 4)
    (are : AreWords words) : AreWords (chain previous words) := by
  induction words generalizing previous with
  | nil => exact are
  | cons word rest ih =>
    obtain ⟨first, others⟩ := List.forall_mem_cons.1 are
    have next : (xorBytes word previous).length = 4 := by
      rw [length_xorBytes, first, start, Nat.min_self]
    exact List.forall_mem_cons.2 ⟨next, ih next others⟩

@[simp] theorem length_rotateWord (word : Bytes) : (rotateWord word).length = word.length := by
  cases word with
  | nil => rfl
  | cons first rest => exact List.length_append

theorem areWords_nextWords {words : List Bytes} (constant : UInt8) (are : AreWords words)
    (eight : words.length = 8) :
    AreWords (nextWords words constant) ∧ (nextWords words constant).length = 8 := by
  have last := are.last (by omega)
  have start : (xorBytes ((rotateWord (words.getLastD [])).map substitute)
      [constant, 0, 0, 0]).length = 4 := by
    rw [length_xorBytes, List.length_map, length_rotateWord, last]
    rfl
  have low := areWords_chain start (are.take 4)
  have some : 0 < (chain (xorBytes ((rotateWord (words.getLastD [])).map substitute)
      [constant, 0, 0, 0]) (words.take 4)).length := by
    rw [length_chain, List.length_take]
    omega
  have high := areWords_chain ((List.length_map substitute).trans (low.last some)) (are.drop 4)
  refine ⟨low.append high, ?_⟩
  unfold nextWords
  simp only [List.length_append, length_chain, List.length_take, List.length_drop]
  omega

theorem areWords_schedule {words : List Bytes} (constants : List UInt8) (are : AreWords words)
    (eight : words.length = 8) :
    AreWords (schedule words constants) ∧
      (schedule words constants).length = 8 * (constants.length + 1) := by
  induction constants generalizing words with
  | nil => exact ⟨are, eight⟩
  | cons constant rest ih =>
    obtain ⟨areNext, eightNext⟩ := areWords_nextWords constant are eight
    obtain ⟨areRest, length⟩ := ih areNext eightNext
    refine ⟨are.append areRest, ?_⟩
    rw [schedule, List.length_append, length, eight, List.length_cons]
    omega

theorem length_of_mem_go {count : Nat} {bytes : Bytes} (long : 16 * count ≤ bytes.length) :
    ∀ key ∈ roundKeys.go count bytes, key.length = 16 := by
  induction count generalizing bytes with
  | zero => exact List.forall_mem_nil _
  | succ count ih =>
    refine List.forall_mem_cons.2 ⟨?_, ih (by rw [List.length_drop]; omega)⟩
    rw [List.length_take]
    omega

/-- The words of the schedule are enough for fifteen keys. -/
theorem length_of_mem_roundKeys {key : Bytes} (length : key.length = 32) :
    ∀ round ∈ roundKeys key, round.length = 16 := by
  obtain ⟨are, eight⟩ : AreWords (cutWords 8 key) ∧ (cutWords 8 key).length = 8 :=
    areWords_cutWords (by omega)
  obtain ⟨areAll, count⟩ := areWords_schedule scheduleConstants are eight
  refine length_of_mem_go ?_
  rw [areAll.flatten, count]
  decide

theorem length_rounds {keys : List Bytes} (full : ∀ key ∈ keys, key.length = 16) {block : Bytes}
    (start : block.length = 16) : (rounds block keys).length = 16 := by
  fun_induction rounds block keys with
  | case1 block => exact start
  | case2 block key =>
    have shifted : (shiftRows (block.map substitute)).length = 16 := List.length_map _
    rw [length_xorBytes, shifted, full key List.mem_cons_self, Nat.min_self]
  | case3 block key rest _ ih =>
    have mixed : (mixColumns (shiftRows (block.map substitute))).length = 16 := rfl
    refine ih (fun other member => full other (List.mem_cons_of_mem _ member)) ?_
    rw [length_xorBytes, mixed, full key List.mem_cons_self, Nat.min_self]

theorem length_encryptBlock {keys : List Bytes} (full : ∀ key ∈ keys, key.length = 16)
    {block : Bytes} (start : block.length = 16) : (encryptBlock keys block).length = 16 := by
  cases keys with
  | nil => exact start
  | cons key rest =>
    refine length_rounds (fun other member => full other (List.mem_cons_of_mem _ member)) ?_
    rw [length_xorBytes, start, full key List.mem_cons_self, Nat.min_self]

end Aes

namespace Gcm

open Aes (xorBytes_xorBytes length_xorBytes length_encryptBlock length_of_mem_roundKeys)

variable {keys : List Bytes} {nonce : Bytes}

theorem length_counterBlock (short : nonce.length = 12) (counter : Nat) :
    (counterBlock nonce counter).length = 16 := by
  rw [counterBlock, List.length_append, short, Bytes.length_ofNat]

theorem length_keyStream (full : ∀ key ∈ keys, key.length = 16) (short : nonce.length = 12)
    (count counter : Nat) : (keyStream keys nonce count counter).length = 16 * count := by
  induction count generalizing counter with
  | zero => rfl
  | succ count ih =>
    rw [keyStream, List.length_append, length_encryptBlock full (length_counterBlock short counter),
      ih]
    omega

theorem length_crypt (full : ∀ key ∈ keys, key.length = 16) (short : nonce.length = 12)
    (text : Bytes) : (crypt keys nonce text).length = text.length := by
  rw [crypt, length_xorBytes, length_keyStream full short, blockCount]
  omega

theorem crypt_crypt (full : ∀ key ∈ keys, key.length = 16) (short : nonce.length = 12)
    (text : Bytes) : crypt keys nonce (crypt keys nonce text) = text := by
  have same : (crypt keys nonce text).length = text.length := length_crypt full short text
  unfold crypt at same ⊢
  rw [same]
  refine xorBytes_xorBytes ?_
  rw [length_keyStream full short, blockCount]
  omega

theorem length_tag (full : ∀ key ∈ keys, key.length = 16) (short : nonce.length = 12)
    (ciphertext : Bytes) : (tag keys nonce ciphertext).length = tagLength := by
  rw [tag, length_xorBytes, Bytes.length_ofNat,
    length_encryptBlock full (length_counterBlock short 1)]
  rfl

/-- Opening undoes sealing. -/
theorem decrypt?_encrypt {key : Bytes} (length : key.length = 32) (short : nonce.length = 12)
    (text : Bytes) : decrypt? key nonce (encrypt key nonce text) = some text := by
  have full := length_of_mem_roundKeys length
  have tagged := length_tag full short (crypt (Aes.roundKeys key) nonce text)
  have before : (encrypt key nonce text).length - tagLength
      = (crypt (Aes.roundKeys key) nonce text).length := by
    rw [encrypt, List.length_append, tagged]
    omega
  have long : ¬(encrypt key nonce text).length < tagLength := by
    rw [encrypt, List.length_append, tagged]
    omega
  rw [decrypt?, if_neg long, before]
  simp only [encrypt, List.take_left, List.drop_left, if_pos, crypt_crypt full short]

end Gcm

end GaslessRelay.Cipher

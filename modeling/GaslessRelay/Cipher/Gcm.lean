import GaslessRelay.Cipher.Aes

/-!
Authenticated encryption: AES in counter mode with a tag over the ciphertext.
-/

namespace GaslessRelay.Cipher.Gcm

/-- The reduction polynomial of the field of `2 ^ 128` elements, bits in reverse. -/
def polynomial : Nat := 0xe1 <<< 120

/-- A product in the field from the remaining bits of the left factor, highest first. -/
def multiplyBits (left : Nat) : (count : Nat) → (product right : Nat) → Nat
  | 0, product, _ => product
  | count + 1, product, right =>
    let product := if left.testBit count then product ^^^ right else product
    let halved := right / 2
    multiplyBits left count product (if right % 2 = 1 then halved ^^^ polynomial else halved)

def multiply (left right : Nat) : Nat := multiplyBits left 128 0 right

/-- A byte string filled up with zeros to full blocks, cut into `count` of them. -/
def cutBlocks : (count : Nat) → Bytes → List Bytes
  | 0, _ => []
  | count + 1, bytes =>
    let block := bytes.take 16
    (block ++ Bytes.zeros (16 - block.length)) :: cutBlocks count (bytes.drop 16)

def blockCount (length : Nat) : Nat := (length + 15) / 16

def hash (key : Nat) (ciphertext : Bytes) : Nat :=
  let lengths := Bytes.ofNat 16 (8 * ciphertext.length)
  (cutBlocks (blockCount ciphertext.length) ciphertext ++ [lengths]).foldl
    (fun digest block => multiply (digest ^^^ Bytes.toNat block) key) 0

/-- A counter block: the nonce and a number of four bytes. -/
def counterBlock (nonce : Bytes) (counter : Nat) : Bytes := nonce ++ Bytes.ofNat 4 counter

/-- The key stream of `count` blocks from a counter on. -/
def keyStream (keys : List Bytes) (nonce : Bytes) : (count counter : Nat) → Bytes
  | 0, _ => []
  | count + 1, counter =>
    Aes.encryptBlock keys (counterBlock nonce counter) ++ keyStream keys nonce count (counter + 1)

def crypt (keys : List Bytes) (nonce text : Bytes) : Bytes :=
  Aes.xorBytes text (keyStream keys nonce (blockCount text.length) 2)

def tag (keys : List Bytes) (nonce ciphertext : Bytes) : Bytes :=
  let hashKey := Bytes.toNat (Aes.encryptBlock keys (Bytes.zeros 16))
  Aes.xorBytes (Bytes.ofNat 16 (hash hashKey ciphertext))
    (Aes.encryptBlock keys (counterBlock nonce 1))

def tagLength : Nat := 16

def encrypt (key nonce text : Bytes) : Bytes :=
  let keys := Aes.roundKeys key
  let ciphertext := crypt keys nonce text
  ciphertext ++ tag keys nonce ciphertext

/-- The text of a ciphertext whose tag is right. -/
def decrypt? (key nonce sealed : Bytes) : Option Bytes :=
  if sealed.length < tagLength then none
  else
    let keys := Aes.roundKeys key
    let ciphertext := sealed.take (sealed.length - tagLength)
    if tag keys nonce ciphertext = sealed.drop (sealed.length - tagLength) then
      some (crypt keys nonce ciphertext)
    else none

end GaslessRelay.Cipher.Gcm

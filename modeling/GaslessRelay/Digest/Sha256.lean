import GaslessRelay.Bytes

/-!
The SHA-256 digest and the keyed digest HMAC built on it.
-/

namespace GaslessRelay.Digest.Sha256

structure State where
  a : UInt32
  b : UInt32
  c : UInt32
  d : UInt32
  e : UInt32
  f : UInt32
  g : UInt32
  h : UInt32

/-- Rotation by `amount` bits to the right, for `0 < amount < 32`. -/
def rotate (word : UInt32) (amount : UInt32) : UInt32 :=
  (word >>> amount) ||| (word <<< (32 - amount))

/-- The fractional parts of the square roots of the first eight primes. -/
def State.initial : State :=
  ⟨0x6a09e667, 0xbb67ae85, 0x3c6ef372, 0xa54ff53a, 0x510e527f, 0x9b05688c, 0x1f83d9ab, 0x5be0cd19⟩

/-- The fractional parts of the cube roots of the first 64 primes. -/
def roundConstants : List UInt32 :=
  [0x428a2f98, 0x71374491, 0xb5c0fbcf, 0xe9b5dba5, 0x3956c25b, 0x59f111f1, 0x923f82a4, 0xab1c5ed5,
    0xd807aa98, 0x12835b01, 0x243185be, 0x550c7dc3, 0x72be5d74, 0x80deb1fe, 0x9bdc06a7, 0xc19bf174,
    0xe49b69c1, 0xefbe4786, 0x0fc19dc6, 0x240ca1cc, 0x2de92c6f, 0x4a7484aa, 0x5cb0a9dc, 0x76f988da,
    0x983e5152, 0xa831c66d, 0xb00327c8, 0xbf597fc7, 0xc6e00bf3, 0xd5a79147, 0x06ca6351, 0x14292967,
    0x27b70a85, 0x2e1b2138, 0x4d2c6dfc, 0x53380d13, 0x650a7354, 0x766a0abb, 0x81c2c92e, 0x92722c85,
    0xa2bfe8a1, 0xa81a664b, 0xc24b8b70, 0xc76c51a3, 0xd192e819, 0xd6990624, 0xf40e3585, 0x106aa070,
    0x19a4c116, 0x1e376c08, 0x2748774c, 0x34b0bcb5, 0x391c0cb3, 0x4ed8aa4a, 0x5b9cca4f, 0x682e6ff3,
    0x748f82ee, 0x78a5636f, 0x84c87814, 0x8cc70208, 0x90befffa, 0xa4506ceb, 0xbef9a3f7, 0xc67178f2]

/-- Sixteen consecutive words of the message schedule, oldest first. -/
structure Window where
  w0 : UInt32
  w1 : UInt32
  w2 : UInt32
  w3 : UInt32
  w4 : UInt32
  w5 : UInt32
  w6 : UInt32
  w7 : UInt32
  w8 : UInt32
  w9 : UInt32
  w10 : UInt32
  w11 : UInt32
  w12 : UInt32
  w13 : UInt32
  w14 : UInt32
  w15 : UInt32

def Window.next (window : Window) : Window :=
  let low := window.w1
  let high := window.w14
  let sigma0 := rotate low 7 ^^^ rotate low 18 ^^^ (low >>> 3)
  let sigma1 := rotate high 17 ^^^ rotate high 19 ^^^ (high >>> 10)
  ⟨window.w1, window.w2, window.w3, window.w4, window.w5, window.w6, window.w7, window.w8,
    window.w9, window.w10, window.w11, window.w12, window.w13, window.w14, window.w15,
    window.w0 + sigma0 + window.w9 + sigma1⟩

def round (state : State) (constant word : UInt32) : State :=
  let sum1 := rotate state.e 6 ^^^ rotate state.e 11 ^^^ rotate state.e 25
  let choice := (state.e &&& state.f) ^^^ (~~~state.e &&& state.g)
  let first := state.h + sum1 + choice + constant + word
  let sum0 := rotate state.a 2 ^^^ rotate state.a 13 ^^^ rotate state.a 22
  let majority := (state.a &&& state.b) ^^^ (state.a &&& state.c) ^^^ (state.b &&& state.c)
  ⟨first + (sum0 + majority), state.a, state.b, state.c, state.d + first, state.e, state.f, state.g⟩

def rounds (state : State) (window : Window) : List UInt32 → State
  | [] => state
  | constant :: rest => rounds (round state constant window.w0) window.next rest

def wordAt (block : Bytes) (index : Nat) : UInt32 :=
  ((block.drop (4 * index)).take 4).foldl (fun total byte => (total <<< 8) ||| byte.toUInt32) 0

def absorbBlock (state : State) (block : Bytes) : State :=
  let word := wordAt block
  let final := rounds state
    ⟨word 0, word 1, word 2, word 3, word 4, word 5, word 6, word 7, word 8, word 9, word 10,
      word 11, word 12, word 13, word 14, word 15⟩ roundConstants
  ⟨state.a + final.a, state.b + final.b, state.c + final.c, state.d + final.d, state.e + final.e,
    state.f + final.f, state.g + final.g, state.h + final.h⟩

def absorb : (count : Nat) → State → Bytes → State
  | 0, state, _ => state
  | count + 1, state, message =>
    absorb count (absorbBlock state (message.take 64)) (message.drop 64)

/-- The message, a byte `80`, zeros, and the length in bits as eight bytes. -/
def pad (message : Bytes) : Bytes :=
  message ++ 0x80 :: Bytes.zeros ((119 - message.length % 64) % 64)
    ++ Bytes.ofNat 8 (8 * message.length)

def wordBytes (word : UInt32) : Bytes := Bytes.ofNat 4 word.toNat

end Sha256

def sha256 (message : Bytes) : Bytes :=
  let final := Sha256.absorb ((message.length + 8) / 64 + 1) .initial (Sha256.pad message)
  [final.a, final.b, final.c, final.d, final.e, final.f, final.g, final.h].flatMap Sha256.wordBytes

/-- The keyed digest HMAC-SHA-256 for keys of at most 64 bytes. -/
def hmac (key message : Bytes) : Bytes :=
  let block := key ++ Bytes.zeros (64 - key.length)
  sha256 (block.map (· ^^^ 0x5c) ++ sha256 (block.map (· ^^^ 0x36) ++ message))

end GaslessRelay.Digest

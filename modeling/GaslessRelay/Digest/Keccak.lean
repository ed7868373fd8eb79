import GaslessRelay.Bytes

/-!
The Keccak-256 digest: a sponge of 1600 bits with a rate of 136 bytes and the padding that starts
with the byte `01`.
-/

namespace GaslessRelay.Digest.Keccak

/-- Five lanes of the state that share their second coordinate. -/
structure Plane where
  a : UInt64
  b : UInt64
  c : UInt64
  d : UInt64
  e : UInt64

/-- The 25 lanes of the state, one plane for each second coordinate. -/
structure State where
  p0 : Plane
  p1 : Plane
  p2 : Plane
  p3 : Plane
  p4 : Plane

namespace Plane

def zero : Plane := ⟨0, 0, 0, 0, 0⟩

def xor (left right : Plane) : Plane :=
  ⟨left.a ^^^ right.a, left.b ^^^ right.b, left.c ^^^ right.c, left.d ^^^ right.d,
    left.e ^^^ right.e⟩

/-- Rotation by `amount` bits to the left, for `0 < amount < 64`. -/
def rotate (lane : UInt64) (amount : UInt64) : UInt64 :=
  (lane <<< amount) ||| (lane >>> (64 - amount))

/-- Each lane is flipped where its right neighbour is clear and the next one is set. -/
def chi (plane : Plane) : Plane :=
  ⟨plane.a ^^^ (~~~plane.b &&& plane.c), plane.b ^^^ (~~~plane.c &&& plane.d),
    plane.c ^^^ (~~~plane.d &&& plane.e), plane.d ^^^ (~~~plane.e &&& plane.a),
    plane.e ^^^ (~~~plane.a &&& plane.b)⟩

end Plane

open Plane (rotate)

def State.zero : State := ⟨.zero, .zero, .zero, .zero, .zero⟩

/-- Adds to each lane the parity of the two neighbouring columns. -/
def theta (state : State) : State :=
  let parity := (((state.p0.xor state.p1).xor state.p2).xor state.p3).xor state.p4
  let change : Plane :=
    ⟨parity.e ^^^ rotate parity.b 1, parity.a ^^^ rotate parity.c 1,
      parity.b ^^^ rotate parity.d 1, parity.c ^^^ rotate parity.e 1,
      parity.d ^^^ rotate parity.a 1⟩
  ⟨state.p0.xor change, state.p1.xor change, state.p2.xor change, state.p3.xor change,
    state.p4.xor change⟩

/-- Rotates every lane by its own amount and moves it to its new place. -/
def rhoPi (state : State) : State :=
  ⟨⟨state.p0.a, rotate state.p1.b 44, rotate state.p2.c 43, rotate state.p3.d 21,
      rotate state.p4.e 14⟩,
    ⟨rotate state.p0.d 28, rotate state.p1.e 20, rotate state.p2.a 3, rotate state.p3.b 45,
      rotate state.p4.c 61⟩,
    ⟨rotate state.p0.b 1, rotate state.p1.c 6, rotate state.p2.d 25, rotate state.p3.e 8,
      rotate state.p4.a 18⟩,
    ⟨rotate state.p0.e 27, rotate state.p1.a 36, rotate state.p2.b 10, rotate state.p3.c 15,
      rotate state.p4.d 56⟩,
    ⟨rotate state.p0.c 62, rotate state.p1.d 55, rotate state.p2.e 39, rotate state.p3.a 41,
      rotate state.p4.b 2⟩⟩

def round (state : State) (constant : UInt64) : State :=
  let moved := rhoPi (theta state)
  let first := moved.p0.chi
  ⟨{ first with a := first.a ^^^ constant }, moved.p1.chi, moved.p2.chi, moved.p3.chi,
    moved.p4.chi⟩

def roundConstants : List UInt64 :=
  [0x0000000000000001, 0x0000000000008082, 0x800000000000808a, 0x8000000080008000,
    0x000000000000808b, 0x0000000080000001, 0x8000000080008081, 0x8000000000008009,
    0x000000000000008a, 0x0000000000000088, 0x0000000080008009, 0x000000008000000a,
    0x000000008000808b, 0x800000000000008b, 0x8000000000008089, 0x8000000000008003,
    0x8000000000008002, 0x8000000000000080, 0x000000000000800a, 0x800000008000000a,
    0x8000000080008081, 0x8000000000008080, 0x0000000080000001, 0x8000000080008008]

def permute (state : State) : State := roundConstants.foldl round state

/-- The lane that eight bytes spell, least significant byte first. -/
def laneOfBytes (bytes : Bytes) : UInt64 :=
  bytes.foldr (fun byte total => (total <<< 8) ||| byte.toUInt64) 0

def laneBytes (lane : UInt64) : Bytes :=
  [lane.toUInt8, (lane >>> 8).toUInt8, (lane >>> 16).toUInt8, (lane >>> 24).toUInt8,
    (lane >>> 32).toUInt8, (lane >>> 40).toUInt8, (lane >>> 48).toUInt8, (lane >>> 56).toUInt8]

def rate : Nat := 136

def laneAt (block : Bytes) (index : Nat) : UInt64 :=
  laneOfBytes ((block.drop (8 * index)).take 8)

def absorbBlock (state : State) (block : Bytes) : State :=
  let lane := laneAt block
  permute
    ⟨state.p0.xor ⟨lane 0, lane 1, lane 2, lane 3, lane 4⟩,
      state.p1.xor ⟨lane 5, lane 6, lane 7, lane 8, lane 9⟩,
      state.p2.xor ⟨lane 10, lane 11, lane 12, lane 13, lane 14⟩,
      state.p3.xor ⟨lane 15, lane 16, 0, 0, 0⟩, state.p4⟩

def absorb : (count : Nat) → State → Bytes → State
  | 0, state, _ => state
  | count + 1, state, message =>
    absorb count (absorbBlock state (message.take rate)) (message.drop rate)

/-- The message with its padding: a byte `01`, zeros, and the top bit of the last byte set. -/
def pad (message : Bytes) : Bytes :=
  let free := rate - message.length % rate
  if free = 1 then message ++ [0x81] else message ++ 0x01 :: Bytes.zeros (free - 2) ++ [0x80]

def squeeze (state : State) : Bytes :=
  laneBytes state.p0.a ++ laneBytes state.p0.b ++ laneBytes state.p0.c ++ laneBytes state.p0.d

end Keccak

def keccak256 (message : Bytes) : Hash :=
  wordOfBytes (Keccak.squeeze (Keccak.absorb (message.length / Keccak.rate + 1) .zero
    (Keccak.pad message)))

def keccakText (text : String) : Hash := keccak256 (Bytes.ofString text)

end GaslessRelay.Digest

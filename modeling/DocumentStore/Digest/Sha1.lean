/-!
Contract: the SHA-1 digest of a byte string.

Owns: padding, the message schedule and the compression of one block.

Does not own: any claim about collisions.
-/

set_option autoImplicit false

namespace DocumentStore.Digest

/-- The bytes of a byte string. -/
abbrev Bytes := List UInt8

namespace Sha1

/-- The five words of the running digest. -/
structure State where
  a : UInt32
  b : UInt32
  c : UInt32
  d : UInt32
  e : UInt32

/-- The digest before the first block. -/
def start : State :=
  ⟨0x67452301, 0xefcdab89, 0x98badcfe, 0x10325476, 0xc3d2e1f0⟩

/-- Rotation to the left. -/
def rotate (word : UInt32) (amount : UInt32) : UInt32 :=
  (word <<< amount) ||| (word >>> (32 - amount))

/-- A number as bytes, the most significant first, a fixed count of them. -/
def bigEndian : Nat → Nat → Bytes
  | 0, _ => []
  | width + 1, number => bigEndian width (number / 256) ++ [UInt8.ofNat (number % 256)]

/-- A message is followed by a one bit, by zeros up to eight bytes short of a multiple of
64 bytes, and by its length in bits. -/
def pad (message : Bytes) : Bytes :=
  let zeros := (119 - message.length % 64) % 64
  message ++ 0x80 :: (List.replicate zeros 0 ++ bigEndian 8 (8 * message.length))

/-- Four bytes as a word, the most significant first. -/
def word (first second third fourth : UInt8) : UInt32 :=
  (first.toUInt32 <<< 24) ||| (second.toUInt32 <<< 16) ||| (third.toUInt32 <<< 8)
    ||| fourth.toUInt32

/-- The words of a padded message. -/
def words : Bytes → List UInt32
  | first :: second :: third :: fourth :: rest => word first second third fourth :: words rest
  | _ => []

/-- The eighty words of the schedule of a block: each new word mixes four earlier ones. -/
def schedule (block : Array UInt32) : Array UInt32 :=
  (List.range 64).foldl (fun built step =>
    let place := step + 16
    built.push (rotate
      (built.getD (place - 3) 0 ^^^ built.getD (place - 8) 0 ^^^ built.getD (place - 14) 0
        ^^^ built.getD (place - 16) 0) 1)) block

/-- The mixing function and the constant of a round. -/
def mix (round : Nat) (state : State) : UInt32 × UInt32 :=
  if round < 20 then ((state.b &&& state.c) ||| ((~~~state.b) &&& state.d), 0x5a827999)
  else if round < 40 then (state.b ^^^ state.c ^^^ state.d, 0x6ed9eba1)
  else if round < 60 then
    ((state.b &&& state.c) ||| (state.b &&& state.d) ||| (state.c &&& state.d), 0x8f1bbcdc)
  else (state.b ^^^ state.c ^^^ state.d, 0xca62c1d6)

/-- One of the eighty rounds. -/
def round (scheduled : Array UInt32) (state : State) (index : Nat) : State :=
  let (mixed, constant) := mix index state
  ⟨rotate state.a 5 + mixed + state.e + constant + scheduled.getD index 0, state.a,
    rotate state.b 30, state.c, state.d⟩

/-- The digest after one more block. -/
def compress (state : State) (block : List UInt32) : State :=
  let final := (List.range 80).foldl (round (schedule block.toArray)) state
  ⟨state.a + final.a, state.b + final.b, state.c + final.c, state.d + final.d,
    state.e + final.e⟩

/-- The digest after a number of blocks. -/
def absorb : Nat → State → List UInt32 → State
  | 0, state, _ => state
  | blocks + 1, state, message =>
      absorb blocks (compress state (message.take 16)) (message.drop 16)

end Sha1

/-- The SHA-1 digest, twenty bytes. -/
def sha1 (message : Bytes) : Bytes :=
  let message := Sha1.words (Sha1.pad message)
  let final := Sha1.absorb (message.length / 16) Sha1.start message
  [final.a, final.b, final.c, final.d, final.e].flatMap fun word =>
    Sha1.bigEndian 4 word.toNat

end DocumentStore.Digest

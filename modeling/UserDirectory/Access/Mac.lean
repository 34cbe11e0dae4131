/-!
# Message authentication

The 256-bit digest of some bytes, and the code that proves knowledge of a secret about them.
-/

namespace UserDirectory.Access.Mac

/-! ## §1. The digest. -/

/-- The constants of the 64 rounds. -/
def roundConstants : Array UInt32 := #[
  0x428a2f98, 0x71374491, 0xb5c0fbcf, 0xe9b5dba5, 0x3956c25b, 0x59f111f1, 0x923f82a4, 0xab1c5ed5,
  0xd807aa98, 0x12835b01, 0x243185be, 0x550c7dc3, 0x72be5d74, 0x80deb1fe, 0x9bdc06a7, 0xc19bf174,
  0xe49b69c1, 0xefbe4786, 0x0fc19dc6, 0x240ca1cc, 0x2de92c6f, 0x4a7484aa, 0x5cb0a9dc, 0x76f988da,
  0x983e5152, 0xa831c66d, 0xb00327c8, 0xbf597fc7, 0xc6e00bf3, 0xd5a79147, 0x06ca6351, 0x14292967,
  0x27b70a85, 0x2e1b2138, 0x4d2c6dfc, 0x53380d13, 0x650a7354, 0x766a0abb, 0x81c2c92e, 0x92722c85,
  0xa2bfe8a1, 0xa81a664b, 0xc24b8b70, 0xc76c51a3, 0xd192e819, 0xd6990624, 0xf40e3585, 0x106aa070,
  0x19a4c116, 0x1e376c08, 0x2748774c, 0x34b0bcb5, 0x391c0cb3, 0x4ed8aa4a, 0x5b9cca4f, 0x682e6ff3,
  0x748f82ee, 0x78a5636f, 0x84c87814, 0x8cc70208, 0x90befffa, 0xa4506ceb, 0xbef9a3f7, 0xc67178f2]

/-- The eight words between two blocks. -/
structure State where
  a : UInt32
  b : UInt32
  c : UInt32
  d : UInt32
  e : UInt32
  f : UInt32
  g : UInt32
  h : UInt32

/-- The words before the first block. -/
def State.start : State :=
  ⟨0x6a09e667, 0xbb67ae85, 0x3c6ef372, 0xa54ff53a, 0x510e527f, 0x9b05688c, 0x1f83d9ab, 0x5be0cd19⟩

/-- Word by word sums. -/
def State.plus (s t : State) : State :=
  ⟨s.a + t.a, s.b + t.b, s.c + t.c, s.d + t.d, s.e + t.e, s.f + t.f, s.g + t.g, s.h + t.h⟩

/-- The words as a list. -/
def State.words (s : State) : List UInt32 := [s.a, s.b, s.c, s.d, s.e, s.f, s.g, s.h]

/-- A word turned to the right. -/
def turn (x n : UInt32) : UInt32 := (x >>> n) ||| (x <<< (32 - n))

/-- The four bytes of a word, the highest first. -/
def wordBytes (w : UInt32) : List UInt8 :=
  [(w >>> 24).toUInt8, (w >>> 16).toUInt8, (w >>> 8).toUInt8, w.toUInt8]

/-- The words of some bytes, the highest byte of each first. -/
def words : List UInt8 → List UInt32
  | a :: b :: c :: d :: rest =>
    ((a.toUInt32 <<< 24) ||| (b.toUInt32 <<< 16) ||| (c.toUInt32 <<< 8) ||| d.toUInt32) :: words rest
  | _ => []

/-- A further word of the schedule of a block. -/
def nextWord (w : Array UInt32) : UInt32 :=
  let i := w.size
  let x := w.getD (i - 15) 0
  let y := w.getD (i - 2) 0
  w.getD (i - 16) 0 + (turn x 7 ^^^ turn x 18 ^^^ (x >>> 3)) + w.getD (i - 7) 0
    + (turn y 17 ^^^ turn y 19 ^^^ (y >>> 10))

/-- The 64 words of the schedule of a block. -/
def schedule (block : List UInt32) : Array UInt32 :=
  Nat.fold 48 (fun _ _ w => w.push (nextWord w)) block.toArray

/-- One round, with its constant and its word of the schedule. -/
def step (s : State) (k w : UInt32) : State :=
  let t := s.h + (turn s.e 6 ^^^ turn s.e 11 ^^^ turn s.e 25)
    + ((s.e &&& s.f) ^^^ (~~~s.e &&& s.g)) + k + w
  let u := (turn s.a 2 ^^^ turn s.a 13 ^^^ turn s.a 22)
    + ((s.a &&& s.b) ^^^ (s.a &&& s.c) ^^^ (s.b &&& s.c))
  ⟨t + u, s.a, s.b, s.c, s.d + t, s.e, s.f, s.g⟩

/-- The words after a block. -/
def compress (s : State) (block : List UInt32) : State :=
  let w := schedule block
  s.plus (Nat.fold 64 (fun i _ t => step t (roundConstants.getD i 0) (w.getD i 0)) s)

/-- Goes through the words in blocks of sixteen. -/
def compressAll (s : State) (ws : List UInt32) : State :=
  if ws = [] then s else compressAll (compress s (ws.take 16)) (ws.drop 16)
termination_by ws.length
decreasing_by
  have : 0 < ws.length := List.length_pos_iff.2 ‹_›
  simp only [List.length_drop]; omega

/-- A message filled up to whole blocks: a mark, zeros, and the number of bits in eight bytes. -/
def padded (message : List UInt8) : List UInt8 :=
  let n := message.length
  let zeros := (119 - n % 64) % 64
  let bits := n * 8
  message ++ 0x80 :: List.replicate zeros 0
    ++ wordBytes (UInt32.ofNat (bits / UInt32.size)) ++ wordBytes (UInt32.ofNat bits)

/-- The digest of a message, 32 bytes. -/
def digest (message : List UInt8) : List UInt8 :=
  (compressAll .start (words (padded message))).words.flatMap wordBytes

/-! ## §2. The code. -/

/-- A secret as a whole block: one that is longer than a block counts as its digest. -/
def block (secret : List UInt8) : List UInt8 :=
  let s := if 64 < secret.length then digest secret else secret
  s ++ List.replicate (64 - s.length) 0

/-- The code of a message under a secret. -/
def code (secret message : List UInt8) : List UInt8 :=
  let k := block secret
  digest (k.map (· ^^^ 0x5c) ++ digest (k.map (· ^^^ 0x36) ++ message))

end UserDirectory.Access.Mac

import Mempool.Bytes.LittleEndian

/-! SHA-256 (FIPS 180-4) of a message: padding to whole blocks, then a fold of the compression step,
which is sixteen message words, sixty-four rounds over eight working words, and a final addition of
the incoming state. -/
namespace Mempool.Sha256

structure State where
  a : UInt32
  b : UInt32
  c : UInt32
  d : UInt32
  e : UInt32
  f : UInt32
  g : UInt32
  h : UInt32
deriving DecidableEq, Repr

def initial : State :=
  ⟨0x6a09e667, 0xbb67ae85, 0x3c6ef372, 0xa54ff53a, 0x510e527f, 0x9b05688c, 0x1f83d9ab, 0x5be0cd19⟩

def roundConstants : List UInt32 :=
  [0x428a2f98, 0x71374491, 0xb5c0fbcf, 0xe9b5dba5, 0x3956c25b, 0x59f111f1, 0x923f82a4, 0xab1c5ed5,
   0xd807aa98, 0x12835b01, 0x243185be, 0x550c7dc3, 0x72be5d74, 0x80deb1fe, 0x9bdc06a7, 0xc19bf174,
   0xe49b69c1, 0xefbe4786, 0x0fc19dc6, 0x240ca1cc, 0x2de92c6f, 0x4a7484aa, 0x5cb0a9dc, 0x76f988da,
   0x983e5152, 0xa831c66d, 0xb00327c8, 0xbf597fc7, 0xc6e00bf3, 0xd5a79147, 0x06ca6351, 0x14292967,
   0x27b70a85, 0x2e1b2138, 0x4d2c6dfc, 0x53380d13, 0x650a7354, 0x766a0abb, 0x81c2c92e, 0x92722c85,
   0xa2bfe8a1, 0xa81a664b, 0xc24b8b70, 0xc76c51a3, 0xd192e819, 0xd6990624, 0xf40e3585, 0x106aa070,
   0x19a4c116, 0x1e376c08, 0x2748774c, 0x34b0bcb5, 0x391c0cb3, 0x4ed8aa4a, 0x5b9cca4f, 0x682e6ff3,
   0x748f82ee, 0x78a5636f, 0x84c87814, 0x8cc70208, 0x90befffa, 0xa4506ceb, 0xbef9a3f7, 0xc67178f2]

def rotateRight (x n : UInt32) : UInt32 := (x >>> n) ||| (x <<< (32 - n))

def bigSigma0 (x : UInt32) : UInt32 := rotateRight x 2 ^^^ rotateRight x 13 ^^^ rotateRight x 22
def bigSigma1 (x : UInt32) : UInt32 := rotateRight x 6 ^^^ rotateRight x 11 ^^^ rotateRight x 25
def smallSigma0 (x : UInt32) : UInt32 := rotateRight x 7 ^^^ rotateRight x 18 ^^^ (x >>> 3)
def smallSigma1 (x : UInt32) : UInt32 := rotateRight x 17 ^^^ rotateRight x 19 ^^^ (x >>> 10)

def choose (x y z : UInt32) : UInt32 := (x &&& y) ^^^ (~~~x &&& z)
def majority (x y z : UInt32) : UInt32 := (x &&& y) ^^^ (x &&& z) ^^^ (y &&& z)

/-- One round with its constant and its schedule word. -/
def State.round (s : State) (constant word : UInt32) : State :=
  let t1 := s.h + bigSigma1 s.e + choose s.e s.f s.g + constant + word
  let t2 := bigSigma0 s.a + majority s.a s.b s.c
  ⟨t1 + t2, s.a, s.b, s.c, s.d + t1, s.e, s.f, s.g⟩

def State.add (s t : State) : State :=
  ⟨s.a + t.a, s.b + t.b, s.c + t.c, s.d + t.d, s.e + t.e, s.f + t.f, s.g + t.g, s.h + t.h⟩

/-- The bytes of a block as big-endian words. -/
def words : List UInt8 → List UInt32
  | w :: x :: y :: z :: rest =>
    ((w.toUInt32 <<< 24) ||| (x.toUInt32 <<< 16) ||| (y.toUInt32 <<< 8) ||| z.toUInt32) ::
      words rest
  | _ => []

/-- Drops the oldest of the last sixteen schedule words and appends the next one. -/
def advance (window : List UInt32) : List UInt32 :=
  window.tail ++ [smallSigma1 (window.getD 14 0) + window.getD 9 0 +
    smallSigma0 (window.getD 1 0) + window.getD 0 0]

/-- The working words and the schedule window after one more round. -/
def step (work : State × List UInt32) (constant : UInt32) : State × List UInt32 :=
  (work.1.round constant (work.2.getD 0 0), advance work.2)

def compress (s : State) (block : List UInt8) : State :=
  s.add (roundConstants.foldl step (s, words block)).1

def wordBytes (x : UInt32) : List UInt8 :=
  [(x >>> 24).toUInt8, (x >>> 16).toUInt8, (x >>> 8).toUInt8, x.toUInt8]

def State.bytes (s : State) : List UInt8 :=
  wordBytes s.a ++ wordBytes s.b ++ wordBytes s.c ++ wordBytes s.d ++
  wordBytes s.e ++ wordBytes s.f ++ wordBytes s.g ++ wordBytes s.h

@[simp] theorem State.length_bytes (s : State) : s.bytes.length = 32 := rfl

/-! ## Whole messages -/

def blockSize : Nat := 64

/-- Zero bytes between the end mark and the bit length. -/
def paddingZeros (length : Nat) : Nat := (blockSize + 55 - length % blockSize) % blockSize

/-- The message, an end mark, zeros, and its length in bits as eight bytes, high byte first. -/
def pad (message : List UInt8) : List UInt8 :=
  message ++ 0x80 :: (List.replicate (paddingZeros message.length) 0 ++
    (LittleEndian.encode 8 (8 * message.length)).reverse)

def takeBlocks : (count : Nat) → List UInt8 → List (List UInt8)
  | 0, _ => []
  | count + 1, bytes => bytes.take blockSize :: takeBlocks count (bytes.drop blockSize)

def blocks (bytes : List UInt8) : List (List UInt8) := takeBlocks (bytes.length / blockSize) bytes

def digest (message : List UInt8) : List UInt8 :=
  ((blocks (pad message)).foldl compress initial).bytes

@[simp] theorem length_digest (message : List UInt8) : (digest message).length = 32 := rfl

/-- Padding always ends on a block boundary. -/
theorem length_pad_mod (message : List UInt8) : (pad message).length % blockSize = 0 := by
  simp only [pad, paddingZeros, blockSize, List.length_append, List.length_cons,
    List.length_replicate, List.length_reverse, LittleEndian.length_encode]
  omega

@[simp] theorem length_takeBlocks (count : Nat) (bytes : List UInt8) :
    (takeBlocks count bytes).length = count := by
  induction count generalizing bytes with
  | zero => rfl
  | succ count ih => simp [takeBlocks, ih]

theorem flatten_takeBlocks (count : Nat) (bytes : List UInt8) :
    (takeBlocks count bytes).flatten = bytes.take (count * blockSize) := by
  induction count generalizing bytes with
  | zero => simp [takeBlocks]
  | succ count ih =>
    rw [takeBlocks, List.flatten_cons, ih, Nat.succ_mul, Nat.add_comm, List.take_add]

/-- No padded byte is left out of the blocks. -/
theorem flatten_blocks_pad (message : List UInt8) :
    (blocks (pad message)).flatten = pad message := by
  have whole := length_pad_mod message
  rw [blocks, flatten_takeBlocks, Nat.div_mul_cancel (Nat.dvd_of_mod_eq_zero whole)]
  exact List.take_length

end Mempool.Sha256

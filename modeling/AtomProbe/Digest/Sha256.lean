/-!
# `AtomProbe.Digest.Sha256`: the SHA-256 digest of FIPS 180-4

`digest` is the one-shot definition: pad the whole message to blocks
of 64 bytes and fold the compression function over them. `Hasher` does
the same work on a message that arrives in pieces and keeps the bytes
that do not fill a block yet; `takeReads` runs it over the reads of a
file, which go through a buffer.
-/

set_option autoImplicit false

namespace AtomProbe.Digest

/-! ### Words and the compression function -/

namespace Sha256

/-- Rotation of a word to the right. -/
def rotate (x : UInt32) (n : UInt32) : UInt32 := (x >>> n) ||| (x <<< (32 - n))

def bigSigma0 (x : UInt32) : UInt32 := rotate x 2 ^^^ rotate x 13 ^^^ rotate x 22
def bigSigma1 (x : UInt32) : UInt32 := rotate x 6 ^^^ rotate x 11 ^^^ rotate x 25
def smallSigma0 (x : UInt32) : UInt32 := rotate x 7 ^^^ rotate x 18 ^^^ (x >>> 3)
def smallSigma1 (x : UInt32) : UInt32 := rotate x 17 ^^^ rotate x 19 ^^^ (x >>> 10)
def choose (x y z : UInt32) : UInt32 := (x &&& y) ^^^ (~~~x &&& z)
def majority (x y z : UInt32) : UInt32 := (x &&& y) ^^^ (x &&& z) ^^^ (y &&& z)

/-- The round constants: the first 32 bits of the fractional parts of
the cube roots of the first 64 primes. -/
def roundConstants : List UInt32 := [
  0x428a2f98, 0x71374491, 0xb5c0fbcf, 0xe9b5dba5, 0x3956c25b, 0x59f111f1, 0x923f82a4, 0xab1c5ed5,
  0xd807aa98, 0x12835b01, 0x243185be, 0x550c7dc3, 0x72be5d74, 0x80deb1fe, 0x9bdc06a7, 0xc19bf174,
  0xe49b69c1, 0xefbe4786, 0x0fc19dc6, 0x240ca1cc, 0x2de92c6f, 0x4a7484aa, 0x5cb0a9dc, 0x76f988da,
  0x983e5152, 0xa831c66d, 0xb00327c8, 0xbf597fc7, 0xc6e00bf3, 0xd5a79147, 0x06ca6351, 0x14292967,
  0x27b70a85, 0x2e1b2138, 0x4d2c6dfc, 0x53380d13, 0x650a7354, 0x766a0abb, 0x81c2c92e, 0x92722c85,
  0xa2bfe8a1, 0xa81a664b, 0xc24b8b70, 0xc76c51a3, 0xd192e819, 0xd6990624, 0xf40e3585, 0x106aa070,
  0x19a4c116, 0x1e376c08, 0x2748774c, 0x34b0bcb5, 0x391c0cb3, 0x4ed8aa4a, 0x5b9cca4f, 0x682e6ff3,
  0x748f82ee, 0x78a5636f, 0x84c87814, 0x8cc70208, 0x90befffa, 0xa4506ceb, 0xbef9a3f7, 0xc67178f2]

/-- The chaining value: eight words. -/
structure State where
  a : UInt32
  b : UInt32
  c : UInt32
  d : UInt32
  e : UInt32
  f : UInt32
  g : UInt32
  h : UInt32
  deriving DecidableEq, Repr

/-- The chaining value before the first block: the first 32 bits of
the fractional parts of the square roots of the first eight primes. -/
def State.initial : State :=
  ⟨0x6a09e667, 0xbb67ae85, 0x3c6ef372, 0xa54ff53a, 0x510e527f, 0x9b05688c, 0x1f83d9ab, 0x5be0cd19⟩

/-- Four bytes at a time, the most significant first. -/
def wordsOfBytes : List UInt8 → List UInt32
  | a :: b :: c :: d :: rest =>
    ((a.toUInt32 <<< 24) ||| (b.toUInt32 <<< 16) ||| (c.toUInt32 <<< 8) ||| d.toUInt32) ::
      wordsOfBytes rest
  | _ => []

/-- The bytes of a word, the most significant first. -/
def bytesOfWord (w : UInt32) : List UInt8 :=
  [(w >>> 24).toUInt8, (w >>> 16).toUInt8, (w >>> 8).toUInt8, w.toUInt8]

/-- Append `count` words to a message schedule. -/
def extendSchedule (words : Array UInt32) : (count : Nat) → Array UInt32
  | 0 => words
  | count + 1 =>
    let earlier (back : Nat) : UInt32 := words.getD (words.size - back) 0
    let word := smallSigma1 (earlier 2) + earlier 7 + smallSigma0 (earlier 15) + earlier 16
    extendSchedule (words.push word) count

/-- The sixty-four words of the message schedule of a block. -/
def schedule (block : List UInt8) : List UInt32 :=
  (extendSchedule (wordsOfBytes block).toArray 48).toList

/-- One round with the round constant and the schedule word. -/
def State.round (s : State) (k w : UInt32) : State :=
  let t1 := s.h + bigSigma1 s.e + choose s.e s.f s.g + k + w
  let t2 := bigSigma0 s.a + majority s.a s.b s.c
  ⟨t1 + t2, s.a, s.b, s.c, s.d + t1, s.e, s.f, s.g⟩

/-- Wordwise sum of two chaining values. -/
def State.add (s t : State) : State :=
  ⟨s.a + t.a, s.b + t.b, s.c + t.c, s.d + t.d, s.e + t.e, s.f + t.f, s.g + t.g, s.h + t.h⟩

/-- Take one block of 64 bytes into the chaining value. -/
def compress (s : State) (block : List UInt8) : State :=
  let rounds := roundConstants.zip (schedule block)
  s.add (rounds.foldl (fun t kw => t.round kw.1 kw.2) s)

/-- The words of the chaining value as bytes. -/
def State.bytes (s : State) : List UInt8 :=
  [s.a, s.b, s.c, s.d, s.e, s.f, s.g, s.h].flatMap bytesOfWord

/-! ### The digest of a whole message -/

/-- The number of bits of a message as eight bytes. -/
def lengthBytes (size : Nat) : List UInt8 :=
  (List.range 8).map fun i => UInt8.ofNat (size * 8 / Nat.pow 2 (8 * (7 - i)))

/-- What follows a message of `size` bytes: a one bit, the fewest
zeros that fill up the last block, and the length. -/
def padding (size : Nat) : List UInt8 :=
  -- a block has room for 55 bytes besides the one bit and the length
  0x80 :: List.replicate ((119 - size % 64) % 64) 0 ++ lengthBytes size

/-- Take all full blocks of the bytes into the chaining value, and
give the bytes that are left over. -/
def absorb (s : State) (bytes : List UInt8) : State × List UInt8 :=
  if _h : 64 ≤ (bytes.take 64).length then absorb (compress s (bytes.take 64)) (bytes.drop 64)
  else (s, bytes)
termination_by bytes.length
decreasing_by simp at *; omega

/-- The digest of a message. -/
def digest (message : List UInt8) : List UInt8 :=
  (absorb State.initial (message ++ padding message.length)).1.bytes

/-! ### The digest of a message in pieces -/

/-- A digest under way. -/
structure Hasher where
  state : State
  /-- The bytes at the end that do not fill a block. -/
  pending : List UInt8
  /-- The number of bytes so far. -/
  size : Nat

namespace Hasher

/-- Before the first byte. -/
def start : Hasher := ⟨State.initial, [], 0⟩

/-- Take in the next piece. -/
def update (h : Hasher) (piece : List UInt8) : Hasher :=
  let (state, pending) := absorb h.state (h.pending ++ piece)
  ⟨state, pending, h.size + piece.length⟩

/-- The digest of all pieces. -/
def finish (h : Hasher) : List UInt8 :=
  (absorb h.state (h.pending ++ padding h.size)).1.bytes

end Hasher

end Sha256

/-! ### Text and files -/

/-- Two lowercase hexadecimal digits for each byte. -/
def hex (bytes : List UInt8) : String :=
  String.ofList <| bytes.flatMap fun b =>
    let digit (n : Nat) : Char := (Nat.toDigits 16 n).headD '0'
    [digit (b.toNat / 16), digit (b.toNat % 16)]

/-- A list cut into pieces of `size` elements, the last one shorter. -/
def pieces (size : Nat) (bytes : List UInt8) : List (List UInt8) :=
  if _h : size = 0 ∨ bytes = [] then []
  else bytes.take size :: pieces size (bytes.drop size)
termination_by bytes.length
decreasing_by
  have : bytes.length ≠ 0 := by simp_all
  simp; omega

/-- The number of bytes that are read from a file at a time. -/
def pieceSize : Nat := 8192

/-- What a read leaves in a buffer: its bytes at the front, and behind
them those that stood there before. -/
def refill (buffer piece : List UInt8) : List UInt8 :=
  piece.take buffer.length ++ buffer.drop piece.length

/-- Take in the reads of a file through a buffer, up to one that gives
no bytes. -/
def takeReads (h : Sha256.Hasher) (buffer : List UInt8) : List (List UInt8) → Sha256.Hasher
  | [] => h
  | piece :: reads =>
    if piece.isEmpty then h
    else
      let buffer := refill buffer piece
      takeReads (h.update (buffer.take piece.length)) buffer reads

/-- The digest of a file in hexadecimal, from what its reads give. -/
def ofReads (reads : List (List UInt8)) : String :=
  hex (takeReads .start (List.replicate pieceSize 0) reads).finish

/-- The digest of the content of a file, read piece by piece, in
hexadecimal. -/
def ofContent (content : ByteArray) : String :=
  ofReads (pieces pieceSize content.toList)

end AtomProbe.Digest

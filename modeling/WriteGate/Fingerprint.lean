/-!
# Fingerprints

A report names the exact bytes that an outcome speaks about by their SHA-256
digest. The digest is computed as the standard lays it down: the message is
padded to whole blocks, each block is spread over sixty-four words, and sixty-four
rounds mix these into eight chaining words.
-/

namespace WriteGate.Fingerprint

/-- The eight chaining words. -/
structure Chain where
  /-- The first word. -/
  a : UInt32
  /-- The second word. -/
  b : UInt32
  /-- The third word. -/
  c : UInt32
  /-- The fourth word. -/
  d : UInt32
  /-- The fifth word. -/
  e : UInt32
  /-- The sixth word. -/
  f : UInt32
  /-- The seventh word. -/
  g : UInt32
  /-- The eighth word. -/
  h : UInt32

/-- The chaining words before the first block: the leading fractional bits of the square
roots of the first eight primes. -/
def Chain.start : Chain where
  a := 0x6a09e667
  b := 0xbb67ae85
  c := 0x3c6ef372
  d := 0xa54ff53a
  e := 0x510e527f
  f := 0x9b05688c
  g := 0x1f83d9ab
  h := 0x5be0cd19

/-- The chaining words in order. -/
def Chain.words (s : Chain) : List UInt32 := [s.a, s.b, s.c, s.d, s.e, s.f, s.g, s.h]

/-- The constants of the rounds: the leading fractional bits of the cube roots of the
first sixty-four primes. -/
def roundConstants : List UInt32 :=
  [0x428a2f98, 0x71374491, 0xb5c0fbcf, 0xe9b5dba5, 0x3956c25b, 0x59f111f1,
   0x923f82a4, 0xab1c5ed5, 0xd807aa98, 0x12835b01, 0x243185be, 0x550c7dc3,
   0x72be5d74, 0x80deb1fe, 0x9bdc06a7, 0xc19bf174, 0xe49b69c1, 0xefbe4786,
   0x0fc19dc6, 0x240ca1cc, 0x2de92c6f, 0x4a7484aa, 0x5cb0a9dc, 0x76f988da,
   0x983e5152, 0xa831c66d, 0xb00327c8, 0xbf597fc7, 0xc6e00bf3, 0xd5a79147,
   0x06ca6351, 0x14292967, 0x27b70a85, 0x2e1b2138, 0x4d2c6dfc, 0x53380d13,
   0x650a7354, 0x766a0abb, 0x81c2c92e, 0x92722c85, 0xa2bfe8a1, 0xa81a664b,
   0xc24b8b70, 0xc76c51a3, 0xd192e819, 0xd6990624, 0xf40e3585, 0x106aa070,
   0x19a4c116, 0x1e376c08, 0x2748774c, 0x34b0bcb5, 0x391c0cb3, 0x4ed8aa4a,
   0x5b9cca4f, 0x682e6ff3, 0x748f82ee, 0x78a5636f, 0x84c87814, 0x8cc70208,
   0x90befffa, 0xa4506ceb, 0xbef9a3f7, 0xc67178f2]

/-- A word turned to the right. -/
def rotate (w places : UInt32) : UInt32 := (w >>> places) ||| (w <<< (32 - places))

/-! ## Padding -/

/-- The number of blocks of a padded message: the message, one byte for the closing bit
and eight for the length, rounded up to sixty-four bytes. -/
def blockCount (size : Nat) : Nat := (size + 9 + 63) / 64

/-- **The padded message, byte by byte**: the message itself, the closing bit, zeros, and
in the last eight places the length of the message in bits, most significant byte
first. -/
def paddedByte (message : ByteArray) (i : Nat) : UInt8 :=
  if h : i < message.size then message[i]
  else if i = message.size then 0x80
  else
    let behind := 64 * blockCount message.size - 1 - i
    if behind < 8 then UInt8.ofNat ((8 * message.size) >>> (8 * behind)) else 0

/-- The four bytes of the padded message from a position on, as one word. -/
def paddedWord (message : ByteArray) (i : Nat) : UInt32 :=
  [0, 1, 2, 3].foldl (fun w j => (w <<< 8) ||| (paddedByte message (i + j)).toUInt32) 0

/-! ## Rounds -/

/-- One more word of the schedule, from four of the sixteen before it. -/
def extendSchedule (w : Array UInt32) : Array UInt32 :=
  let back (n : Nat) : UInt32 := w.getD (w.size - n) 0
  let s0 := rotate (back 15) 7 ^^^ rotate (back 15) 18 ^^^ (back 15 >>> 3)
  let s1 := rotate (back 2) 17 ^^^ rotate (back 2) 19 ^^^ (back 2 >>> 10)
  w.push (back 16 + s0 + back 7 + s1)

/-- The sixty-four words of a block: its own sixteen, and forty-eight derived ones. -/
def schedule (message : ByteArray) (block : Nat) : Array UInt32 :=
  (List.range 48).foldl (fun w _ => extendSchedule w)
    (Array.ofFn fun i : Fin 16 => paddedWord message (64 * block + 4 * i))

/-- One round, with its constant and its word of the schedule. -/
def round (s : Chain) (kw : UInt32 × UInt32) : Chain :=
  let s1 := rotate s.e 6 ^^^ rotate s.e 11 ^^^ rotate s.e 25
  let choice := (s.e &&& s.f) ^^^ (~~~s.e &&& s.g)
  let t1 := s.h + s1 + choice + kw.1 + kw.2
  let s0 := rotate s.a 2 ^^^ rotate s.a 13 ^^^ rotate s.a 22
  let majority := (s.a &&& s.b) ^^^ (s.a &&& s.c) ^^^ (s.b &&& s.c)
  { a := t1 + (s0 + majority), b := s.a, c := s.b, d := s.c
    e := s.d + t1, f := s.e, g := s.f, h := s.g }

/-- The chaining words after a block. -/
def absorb (message : ByteArray) (s : Chain) (block : Nat) : Chain :=
  let t := (roundConstants.zip (schedule message block).toList).foldl round s
  { a := s.a + t.a, b := s.b + t.b, c := s.c + t.c, d := s.d + t.d
    e := s.e + t.e, f := s.f + t.f, g := s.g + t.g, h := s.h + t.h }

/-! ## The digest in writing -/

/-- A word as eight small hexadecimal digits. -/
def hexWord (w : UInt32) : List Char :=
  [28, 24, 20, 16, 12, 8, 4, 0].map fun shift => Nat.digitChar (w.toNat >>> shift % 16)

/-- **The fingerprint of some bytes**: their SHA-256 digest as sixty-four small
hexadecimal digits. -/
def ofBytes (message : ByteArray) : String :=
  let final := (List.range (blockCount message.size)).foldl (absorb message) Chain.start
  String.ofList (final.words.flatMap hexWord)

/-- A fingerprint has sixty-four digits. -/
theorem length_ofBytes (message : ByteArray) : (ofBytes message).length = 64 := by
  simp [ofBytes, Chain.words, hexWord]

end WriteGate.Fingerprint

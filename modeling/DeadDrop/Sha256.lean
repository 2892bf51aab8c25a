import DeadDrop.Text

/-!
# SHA-256

The hash of a byte string (FIPS 180-4): the padded message is cut into blocks of 64 bytes, and each
block updates a state of eight words in 64 rounds. The message schedule is a window of the last
sixteen words, from which every round takes the oldest and makes the next.
-/

namespace DeadDrop.Sha256

structure State where
  a : UInt32
  b : UInt32
  c : UInt32
  d : UInt32
  e : UInt32
  f : UInt32
  g : UInt32
  h : UInt32
  deriving DecidableEq, Repr

/-- The first 32 bits of the fractional parts of the square roots of the first eight primes. -/
def State.start : State :=
  ⟨0x6a09e667, 0xbb67ae85, 0x3c6ef372, 0xa54ff53a, 0x510e527f, 0x9b05688c, 0x1f83d9ab, 0x5be0cd19⟩

/-- The first 32 bits of the fractional parts of the cube roots of the first 64 primes. -/
def roundConstants : List UInt32 :=
  [0x428a2f98, 0x71374491, 0xb5c0fbcf, 0xe9b5dba5, 0x3956c25b, 0x59f111f1,
    0x923f82a4, 0xab1c5ed5, 0xd807aa98, 0x12835b01, 0x243185be, 0x550c7dc3,
    0x72be5d74, 0x80deb1fe, 0x9bdc06a7, 0xc19bf174, 0xe49b69c1, 0xefbe4786,
    0x0fc19dc6, 0x240ca1cc, 0x2de92c6f, 0x4a7484aa, 0x5cb0a9dc, 0x76f988da,
    0x983e5152, 0xa831c66d, 0xb00327c8, 0xbf597fc7, 0xc6e00bf3, 0xd5a79147,
    0x06ca6351, 0x14292967, 0x27b70a85, 0x2e1b2138, 0x4d2c6dfc, 0x53380d13,
    0x650a7354, 0x766a0abb, 0x81c2c92e, 0x92722c85, 0xa2bfe8a1, 0xa81a664b,
    0xc24b8b70, 0xc76c51a3, 0xd192e819, 0xd6990624, 0xf40e3585, 0x106aa070,
    0x19a4c116, 0x1e376c08, 0x2748774c, 0x34b0bcb5, 0x391c0cb3, 0x4ed8aa4a,
    0x5b9cca4f, 0x682e6ff3, 0x748f82ee, 0x78a5636f, 0x84c87814, 0x8cc70208,
    0x90befffa, 0xa4506ceb, 0xbef9a3f7, 0xc67178f2]

def rotate (x : UInt32) (count : UInt32) : UInt32 := (x >>> count) ||| (x <<< (32 - count))

/-- One round, with its constant and its word of the schedule. -/
def State.round (s : State) (constant word : UInt32) : State :=
  let sum1 := rotate s.e 6 ^^^ rotate s.e 11 ^^^ rotate s.e 25
  let choice := (s.e &&& s.f) ^^^ (~~~s.e &&& s.g)
  let first := s.h + sum1 + choice + constant + word
  let sum0 := rotate s.a 2 ^^^ rotate s.a 13 ^^^ rotate s.a 22
  let majority := (s.a &&& s.b) ^^^ (s.a &&& s.c) ^^^ (s.b &&& s.c)
  { a := first + (sum0 + majority), b := s.a, c := s.b, d := s.c
    e := s.d + first, f := s.e, g := s.f, h := s.g }

/-- The word of the schedule that follows a window of sixteen. -/
def nextWord (window : List UInt32) : UInt32 :=
  let at1 := window.getD 1 0
  let at14 := window.getD 14 0
  window.getD 0 0 + (rotate at1 7 ^^^ rotate at1 18 ^^^ (at1 >>> 3)) +
    window.getD 9 0 + (rotate at14 17 ^^^ rotate at14 19 ^^^ (at14 >>> 10))

/-- Runs a round for each constant, sliding the window by one word each time. -/
def rounds : List UInt32 → List UInt32 → State → State
  | [], _, s => s
  | constant :: constants, window, s =>
    rounds constants (window.drop 1 ++ [nextWord window]) (s.round constant (window.getD 0 0))

def State.add (s t : State) : State :=
  ⟨s.a + t.a, s.b + t.b, s.c + t.c, s.d + t.d, s.e + t.e, s.f + t.f, s.g + t.g, s.h + t.h⟩

/-- The big-endian words of a byte string; fewer than four bytes at the end are dropped. -/
def words : Bytes → List UInt32
  | b0 :: b1 :: b2 :: b3 :: rest =>
    UInt32.ofNat (Bytes.toNatBE [b0, b1, b2, b3]) :: words rest
  | _ => []

/-- Updates the state with one block, given as its sixteen words. -/
def State.absorb (s : State) (block : List UInt32) : State :=
  s.add (rounds roundConstants block s)

/-- The padded message: the bit `1`, zeros up to eight bytes before a multiple of 64, and the
length in bits. -/
def pad (message : Bytes) : Bytes :=
  message ++ [0x80] ++ List.replicate ((119 - message.length % 64) % 64) 0 ++
    Bytes.ofNatBE 8 (message.length * 8)

/-- Absorbs blocks of sixteen words, as many as `count` says. -/
def absorbAll : (count : Nat) → List UInt32 → State → State
  | 0, _, s => s
  | count + 1, ws, s => absorbAll count (ws.drop 16) (s.absorb (ws.take 16))

/-- The bytes of a state, its words in order and big-endian. -/
def State.toBytes (s : State) : Bytes :=
  [s.a, s.b, s.c, s.d, s.e, s.f, s.g, s.h].flatMap fun w => Bytes.ofNatBE 4 w.toNat

def digest (message : Bytes) : Bytes :=
  let padded := pad message
  (absorbAll (padded.length / 64) (words padded) State.start).toBytes

end DeadDrop.Sha256

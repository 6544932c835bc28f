import Mathlib.Algebra.Group.Nat.Defs

/-!
# SHA-256

The digest of a list of bytes, by the standard: the message is padded to whole
blocks of sixteen words, and each block is mixed into a state of eight words in
sixty-four rounds. Words are numbers below `2 ^ 32` and everything is
structural, so a digest can be computed by evaluation.
-/

namespace Sha256

/-- A number as a word. -/
def word (n : Nat) : Nat := n % 2 ^ 32

/-- Rotation of a word to the right by `n` bits. -/
def rotr (n x : Nat) : Nat := (x >>> n) ||| word (x <<< (32 - n))

/-- The constants of the rounds. -/
def roundConstants : List Nat :=
  [0x428a2f98, 0x71374491, 0xb5c0fbcf, 0xe9b5dba5, 0x3956c25b, 0x59f111f1, 0x923f82a4, 0xab1c5ed5,
   0xd807aa98, 0x12835b01, 0x243185be, 0x550c7dc3, 0x72be5d74, 0x80deb1fe, 0x9bdc06a7, 0xc19bf174,
   0xe49b69c1, 0xefbe4786, 0x0fc19dc6, 0x240ca1cc, 0x2de92c6f, 0x4a7484aa, 0x5cb0a9dc, 0x76f988da,
   0x983e5152, 0xa831c66d, 0xb00327c8, 0xbf597fc7, 0xc6e00bf3, 0xd5a79147, 0x06ca6351, 0x14292967,
   0x27b70a85, 0x2e1b2138, 0x4d2c6dfc, 0x53380d13, 0x650a7354, 0x766a0abb, 0x81c2c92e, 0x92722c85,
   0xa2bfe8a1, 0xa81a664b, 0xc24b8b70, 0xc76c51a3, 0xd192e819, 0xd6990624, 0xf40e3585, 0x106aa070,
   0x19a4c116, 0x1e376c08, 0x2748774c, 0x34b0bcb5, 0x391c0cb3, 0x4ed8aa4a, 0x5b9cca4f, 0x682e6ff3,
   0x748f82ee, 0x78a5636f, 0x84c87814, 0x8cc70208, 0x90befffa, 0xa4506ceb, 0xbef9a3f7, 0xc67178f2]

/-- The eight working words of the state. -/
structure State where
  a : Nat
  b : Nat
  c : Nat
  d : Nat
  e : Nat
  f : Nat
  g : Nat
  h : Nat

/-- The state before the first block. -/
def initial : State :=
  ⟨0x6a09e667, 0xbb67ae85, 0x3c6ef372, 0xa54ff53a, 0x510e527f, 0x9b05688c, 0x1f83d9ab, 0x5be0cd19⟩

/-- One round, with its constant and its word of the message schedule. -/
def round (s : State) (k w : Nat) : State :=
  let choice := (s.e &&& s.f) ^^^ ((2 ^ 32 - 1 - s.e) &&& s.g)
  let t₁ := word (s.h + (rotr 6 s.e ^^^ rotr 11 s.e ^^^ rotr 25 s.e) + choice + k + w)
  let majority := (s.a &&& s.b) ^^^ (s.a &&& s.c) ^^^ (s.b &&& s.c)
  let t₂ := word ((rotr 2 s.a ^^^ rotr 13 s.a ^^^ rotr 22 s.a) + majority)
  ⟨word (t₁ + t₂), s.a, s.b, s.c, word (s.d + t₁), s.e, s.f, s.g⟩

/-- The word that follows sixteen words of the message schedule. -/
def nextWord (window : List Nat) : Nat :=
  let x := window.getD 1 0
  let y := window.getD 14 0
  word (window.getD 0 0 + (rotr 7 x ^^^ rotr 18 x ^^^ (x >>> 3)) + window.getD 9 0 +
    (rotr 17 y ^^^ rotr 19 y ^^^ (y >>> 10)))

/-- The rounds of a block, one for each constant; the window of sixteen words slides
over the message schedule. -/
def rounds : List Nat → List Nat → State → State
  | [], _, s => s
  | k :: ks, window, s =>
    rounds ks (window.tail ++ [nextWord window]) (round s k (window.getD 0 0))

/-- Mixes sixteen words into the state: the sixty-four rounds, and the old state added
to their outcome. -/
def block (s : State) (words : List Nat) : State :=
  let t := rounds roundConstants words s
  ⟨word (s.a + t.a), word (s.b + t.b), word (s.c + t.c), word (s.d + t.d),
    word (s.e + t.e), word (s.f + t.f), word (s.g + t.g), word (s.h + t.h)⟩

/-! ## Bytes and words -/

/-- Bytes as words, four each, the highest byte first. -/
def wordsOf : List Nat → List Nat
  | a :: b :: c :: d :: rest => (((a * 256 + b) * 256 + c) * 256 + d) :: wordsOf rest
  | _ => []

/-- The message with its padding: a one bit, zeros, and the length in bits as
eight bytes. -/
def pad (message : List Nat) : List Nat :=
  let size := message.length
  message ++ 0x80 :: List.replicate ((119 - size % 64) % 64) 0 ++
    (List.range 8).map fun i => size * 8 / 256 ^ (7 - i) % 256

/-- Mixes in a number of blocks, in order. -/
def blocks : Nat → List Nat → State → State
  | 0, _, s => s
  | n + 1, words, s => blocks n (words.drop 16) (block s (words.take 16))

/-- The four bytes of a word, the highest first. -/
def bytesOf (w : Nat) : List UInt8 :=
  [UInt8.ofNat (w / 2 ^ 24), UInt8.ofNat (w / 2 ^ 16), UInt8.ofNat (w / 2 ^ 8), UInt8.ofNat w]

/-- The digest of a message. -/
def digest (message : List UInt8) : List UInt8 :=
  let words := wordsOf (pad (message.map UInt8.toNat))
  let s := blocks (words.length / 16) words initial
  bytesOf s.a ++ bytesOf s.b ++ bytesOf s.c ++ bytesOf s.d ++ bytesOf s.e ++ bytesOf s.f ++
    bytesOf s.g ++ bytesOf s.h

/-- A digest has thirty-two bytes. -/
theorem length_digest (message : List UInt8) : (digest message).length = 32 := rfl

/-- The digest of `abc`, the standard's own example. -/
example : digest [97, 98, 99] =
    [0xba, 0x78, 0x16, 0xbf, 0x8f, 0x01, 0xcf, 0xea, 0x41, 0x41, 0x40, 0xde, 0x5d, 0xae, 0x22, 0x23,
     0xb0, 0x03, 0x61, 0xa3, 0x96, 0x17, 0x7a, 0x9c, 0xb4, 0x10, 0xff, 0x61, 0xf2, 0x00, 0x15,
     0xad] := by
  decide +kernel

end Sha256

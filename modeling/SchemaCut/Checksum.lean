import SchemaCut.Schema

/-!
# Checksums

The checksum of a text is the SHA-256 digest of its UTF-8 bytes, in lower-case hexadecimal. The
checksum of a schema is that of its compact text, so it depends on the schema alone.

The digest is computed as its standard says: the message is followed by a one bit, zeros and its
length in bits, cut into blocks of sixteen words, and each block is worked into a state of eight
words by sixty-four rounds.

* `digest` : the state after the last block.
* `ofBytes` : its eight words in hexadecimal.
-/

namespace SchemaCut.Checksum

/-- The round constants. -/
def roundConstants : List UInt32 :=
  [0x428a2f98, 0x71374491, 0xb5c0fbcf, 0xe9b5dba5, 0x3956c25b, 0x59f111f1, 0x923f82a4, 0xab1c5ed5,
    0xd807aa98, 0x12835b01, 0x243185be, 0x550c7dc3, 0x72be5d74, 0x80deb1fe, 0x9bdc06a7, 0xc19bf174,
    0xe49b69c1, 0xefbe4786, 0x0fc19dc6, 0x240ca1cc, 0x2de92c6f, 0x4a7484aa, 0x5cb0a9dc, 0x76f988da,
    0x983e5152, 0xa831c66d, 0xb00327c8, 0xbf597fc7, 0xc6e00bf3, 0xd5a79147, 0x06ca6351, 0x14292967,
    0x27b70a85, 0x2e1b2138, 0x4d2c6dfc, 0x53380d13, 0x650a7354, 0x766a0abb, 0x81c2c92e, 0x92722c85,
    0xa2bfe8a1, 0xa81a664b, 0xc24b8b70, 0xc76c51a3, 0xd192e819, 0xd6990624, 0xf40e3585, 0x106aa070,
    0x19a4c116, 0x1e376c08, 0x2748774c, 0x34b0bcb5, 0x391c0cb3, 0x4ed8aa4a, 0x5b9cca4f, 0x682e6ff3,
    0x748f82ee, 0x78a5636f, 0x84c87814, 0x8cc70208, 0x90befffa, 0xa4506ceb, 0xbef9a3f7, 0xc67178f2]

/-- The eight words of the state. -/
structure State where
  a : UInt32
  b : UInt32
  c : UInt32
  d : UInt32
  e : UInt32
  f : UInt32
  g : UInt32
  h : UInt32
  deriving DecidableEq, Repr

/-- The state before the first block. -/
def State.initial : State :=
  ⟨0x6a09e667, 0xbb67ae85, 0x3c6ef372, 0xa54ff53a, 0x510e527f, 0x9b05688c, 0x1f83d9ab, 0x5be0cd19⟩

/-- Adds two states word by word. -/
def State.add (s t : State) : State :=
  ⟨s.a + t.a, s.b + t.b, s.c + t.c, s.d + t.d, s.e + t.e, s.f + t.f, s.g + t.g, s.h + t.h⟩

/-- Turns a word to the right. -/
def rotate (x : UInt32) (n : UInt32) : UInt32 := (x >>> n) ||| (x <<< (32 - n))

/-- One round, with its constant and its word of the schedule. -/
def State.round (s : State) (k w : UInt32) : State :=
  let mix := rotate s.e 6 ^^^ rotate s.e 11 ^^^ rotate s.e 25
  let choice := (s.e &&& s.f) ^^^ (~~~s.e &&& s.g)
  let t := s.h + mix + choice + k + w
  let blend := rotate s.a 2 ^^^ rotate s.a 13 ^^^ rotate s.a 22
  let majority := (s.a &&& s.b) ^^^ (s.a &&& s.c) ^^^ (s.b &&& s.c)
  ⟨t + blend + majority, s.a, s.b, s.c, s.d + t, s.e, s.f, s.g⟩

/-- Adds `n` words to a schedule that is held with its last word first. -/
def extendSchedule (n : Nat) (ws : List UInt32) : List UInt32 :=
  match n with
  | 0 => ws
  | n + 1 =>
    let back (i : Nat) : UInt32 := ws.getD (i - 1) 0
    let s0 := rotate (back 15) 7 ^^^ rotate (back 15) 18 ^^^ (back 15 >>> 3)
    let s1 := rotate (back 2) 17 ^^^ rotate (back 2) 19 ^^^ (back 2 >>> 10)
    extendSchedule n ((back 16 + s0 + back 7 + s1) :: ws)

/-- Works a block of sixteen words into the state. -/
def State.absorb (s : State) (block : List UInt32) : State :=
  let schedule := (extendSchedule 48 block.reverse).reverse
  s.add ((roundConstants.zip schedule).foldl (fun t (k, w) => t.round k w) s)

/-- The big-endian bytes of a number, the last `count` of them. -/
def bigEndian (count n : Nat) : List UInt8 :=
  ((List.range count).map fun i => UInt8.ofNat (n / Nat.pow 256 i)).reverse

/-- A message with the padding that fills its last block. -/
def pad (message : List UInt8) : List UInt8 :=
  let length := message.length
  message ++ 0x80 :: List.replicate ((119 - length % 64) % 64) 0 ++ bigEndian 8 (8 * length)

/-- Reads bytes as big-endian words. -/
def toWords : List UInt8 → List UInt32
  | a :: b :: c :: d :: rest =>
    (a.toUInt32 <<< 24 ||| b.toUInt32 <<< 16 ||| c.toUInt32 <<< 8 ||| d.toUInt32) :: toWords rest
  | _ => []

/-- Works the first blocks of some bytes into the state, sixty-four bytes to a block. -/
def absorbAll (blocks : Nat) (s : State) (bytes : List UInt8) : State :=
  match blocks with
  | 0 => s
  | n + 1 => absorbAll n (s.absorb (toWords (bytes.take 64))) (bytes.drop 64)

/-- The digest of a message: the state after its last block. -/
def digest (message : List UInt8) : State :=
  let padded := pad message
  absorbAll (padded.length / 64) State.initial padded

/-- The words of a state in their order. -/
def State.words (s : State) : List UInt32 := [s.a, s.b, s.c, s.d, s.e, s.f, s.g, s.h]

/-- The eight hexadecimal digits of a word. -/
def wordText (w : UInt32) : List Char :=
  ((List.range 8).map fun i => Nat.digitChar (w.toNat / Nat.pow 16 i % 16)).reverse

/-- The words of a state in hexadecimal. -/
def State.text (s : State) : String := String.ofList (s.words.flatMap wordText)

/-- The digest of a message, in hexadecimal. -/
def ofBytes (message : List UInt8) : String := (digest message).text

/-- The checksum of a text. -/
def ofText (text : String) : String := ofBytes text.toUTF8.toList

/-- The checksum of a schema. -/
def ofSchema (s : Schema) : String := ofText (s.text .compact)

/-- Whether a text has the given checksum. -/
def verify (checksum text : String) : Bool := ofText text == checksum

end SchemaCut.Checksum

/-!
# SipHash

The keyed hash function SipHash in its variant with one round for each word
and three final rounds.  A message is a list of bytes; words are little
endian, and the last word carries the length of the message in its highest
byte.
-/

namespace AnalyzerGlue.Hash

/-- The eight bytes of a word, the lowest first. -/
def bytesOfWord (word : UInt64) : List UInt8 :=
  ([0, 8, 16, 24, 32, 40, 48, 56] : List UInt64).map fun shift =>
    (word >>> shift).toUInt8

/-- The word with the given bytes, the lowest first. -/
def wordOfBytes : List UInt8 → UInt64
  | [] => 0
  | byte :: rest => byte.toUInt64 ||| (wordOfBytes rest <<< 8)

/-- The word turned left by an amount between one and sixty-three. -/
def turnLeft (word amount : UInt64) : UInt64 :=
  (word <<< amount) ||| (word >>> (64 - amount))

/-- The word turned right by an amount between one and sixty-three. -/
def turnRight (word amount : UInt64) : UInt64 :=
  (word >>> amount) ||| (word <<< (64 - amount))

/-- The four words of the internal state. -/
structure Sip where
  v0 : UInt64
  v1 : UInt64
  v2 : UInt64
  v3 : UInt64
deriving DecidableEq, Repr

namespace Sip

/-- The state before the first word, for a key of two words. -/
def start (key0 key1 : UInt64) : Sip where
  v0 := key0 ^^^ 0x736f6d6570736575
  v1 := key1 ^^^ 0x646f72616e646f6d
  v2 := key0 ^^^ 0x6c7967656e657261
  v3 := key1 ^^^ 0x7465646279746573

/-- One round. -/
def round (s : Sip) : Sip :=
  let v0 := s.v0 + s.v1
  let v1 := turnLeft s.v1 13 ^^^ v0
  let v0 := turnLeft v0 32
  let v2 := s.v2 + s.v3
  let v3 := turnLeft s.v3 16 ^^^ v2
  let v0 := v0 + v3
  let v3 := turnLeft v3 21 ^^^ v0
  let v2 := v2 + v1
  let v1 := turnLeft v1 17 ^^^ v2
  let v2 := turnLeft v2 32
  ⟨v0, v1, v2, v3⟩

/-- Takes in one word of the message. -/
def absorb (s : Sip) (word : UInt64) : Sip :=
  let mixed := round { s with v3 := s.v3 ^^^ word }
  { mixed with v0 := mixed.v0 ^^^ word }

/-- Takes in the whole words of a message and then its last word, which holds
the bytes left over and the length of the whole message. -/
def absorbAll (length : Nat) (s : Sip) : List UInt8 → Sip
  | b0 :: b1 :: b2 :: b3 :: b4 :: b5 :: b6 :: b7 :: rest =>
      absorbAll length (s.absorb (wordOfBytes [b0, b1, b2, b3, b4, b5, b6, b7])) rest
  | left =>
      s.absorb (wordOfBytes left ||| (UInt64.ofNat length <<< 56))

/-- The hash value of a state that has taken in its message. -/
def finish (s : Sip) : UInt64 :=
  let last := round (round (round { s with v2 := s.v2 ^^^ 0xFF }))
  last.v0 ^^^ last.v1 ^^^ last.v2 ^^^ last.v3

end Sip

/-- The hash of a message under the key zero. -/
def sip (message : List UInt8) : UInt64 :=
  ((Sip.start 0 0).absorbAll message.length message).finish

end AnalyzerGlue.Hash

import Graft.Text.Utf8

/-!
The hash function SHA-256. A message is padded to blocks of 64 bytes, each block is spread to 64
words, and the rounds are a fold over pairs of a word and a round constant.
-/

namespace Graft.Hash

open Graft.Text

structure State where
  a : UInt32
  b : UInt32
  c : UInt32
  d : UInt32
  e : UInt32
  f : UInt32
  g : UInt32
  h : UInt32

def State.initial : State :=
  ⟨0x6a09e667, 0xbb67ae85, 0x3c6ef372, 0xa54ff53a, 0x510e527f, 0x9b05688c, 0x1f83d9ab, 0x5be0cd19⟩

def State.add (s t : State) : State :=
  ⟨s.a + t.a, s.b + t.b, s.c + t.c, s.d + t.d, s.e + t.e, s.f + t.f, s.g + t.g, s.h + t.h⟩

def roundConstants : List UInt32 :=
  [0x428a2f98, 0x71374491, 0xb5c0fbcf, 0xe9b5dba5, 0x3956c25b, 0x59f111f1, 0x923f82a4, 0xab1c5ed5,
   0xd807aa98, 0x12835b01, 0x243185be, 0x550c7dc3, 0x72be5d74, 0x80deb1fe, 0x9bdc06a7, 0xc19bf174,
   0xe49b69c1, 0xefbe4786, 0x0fc19dc6, 0x240ca1cc, 0x2de92c6f, 0x4a7484aa, 0x5cb0a9dc, 0x76f988da,
   0x983e5152, 0xa831c66d, 0xb00327c8, 0xbf597fc7, 0xc6e00bf3, 0xd5a79147, 0x06ca6351, 0x14292967,
   0x27b70a85, 0x2e1b2138, 0x4d2c6dfc, 0x53380d13, 0x650a7354, 0x766a0abb, 0x81c2c92e, 0x92722c85,
   0xa2bfe8a1, 0xa81a664b, 0xc24b8b70, 0xc76c51a3, 0xd192e819, 0xd6990624, 0xf40e3585, 0x106aa070,
   0x19a4c116, 0x1e376c08, 0x2748774c, 0x34b0bcb5, 0x391c0cb3, 0x4ed8aa4a, 0x5b9cca4f, 0x682e6ff3,
   0x748f82ee, 0x78a5636f, 0x84c87814, 0x8cc70208, 0x90befffa, 0xa4506ceb, 0xbef9a3f7, 0xc67178f2]

theorem length_roundConstants : roundConstants.length = 64 := rfl

/-- Rotation to the right, for amounts from 1 to 31. -/
def rotate (amount word : UInt32) : UInt32 :=
  (word >>> amount) ||| (word <<< (32 - amount))

def State.round (s : State) (input : UInt32) : State :=
  let mixed := rotate 6 s.e ^^^ rotate 11 s.e ^^^ rotate 25 s.e
  let choice := (s.e &&& s.f) ^^^ ((~~~s.e) &&& s.g)
  let first := s.h + mixed + choice + input
  let spread := rotate 2 s.a ^^^ rotate 13 s.a ^^^ rotate 22 s.a
  let majority := (s.a &&& s.b) ^^^ (s.a &&& s.c) ^^^ (s.b &&& s.c)
  ⟨first + (spread + majority), s.a, s.b, s.c, s.d + first, s.e, s.f, s.g⟩

/-- The next words of a schedule, given the last sixteen. -/
def extend : Nat → List UInt32 → List UInt32
  | 0, _ => []
  | n + 1, window =>
      match window with
      | w0 :: w1 :: rest =>
          let w9 := rest.getD 7 0
          let w14 := rest.getD 12 0
          let low := rotate 7 w1 ^^^ rotate 18 w1 ^^^ (w1 >>> 3)
          let high := rotate 17 w14 ^^^ rotate 19 w14 ^^^ (w14 >>> 10)
          let next := w0 + low + w9 + high
          next :: extend n (w1 :: rest ++ [next])
      | _ => []

/-- The big-endian words of a string of bytes. -/
def wordsOf : Bytes → List UInt32
  | b0 :: b1 :: b2 :: b3 :: rest =>
      ((b0.toUInt32 <<< 24) ||| (b1.toUInt32 <<< 16) ||| (b2.toUInt32 <<< 8) ||| b3.toUInt32) ::
        wordsOf rest
  | _ => []

def State.absorb (s : State) (block : List UInt32) : State :=
  let schedule := block ++ extend 48 block
  s.add ((schedule.zip roundConstants).foldl (fun t (word, constant) => t.round (word + constant)) s)

def bigEndian64 (n : Nat) : Bytes :=
  (List.range 8).map fun i => UInt8.ofNat (n >>> (8 * (7 - i)))

/-- The message with a one bit, zeros and its length in bits, a multiple of 64 bytes. -/
def padMessage (message : Bytes) : Bytes :=
  let zeros := (119 - message.length % 64) % 64
  message ++ [0x80] ++ List.replicate zeros 0 ++ bigEndian64 (8 * message.length)

def chunks (size : Nat) : Nat → List α → List (List α)
  | 0, _ => []
  | n + 1, items => items.take size :: chunks size n (items.drop size)

def absorbAll (message : Bytes) : State :=
  let words := wordsOf (padMessage message)
  (chunks 16 (words.length / 16) words).foldl State.absorb .initial

end Graft.Hash

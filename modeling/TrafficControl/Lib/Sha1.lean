import Mathlib.Algebra.Ring.Nat
import Mathlib.Data.List.Basic

set_option autoImplicit false

-- SHA-1 and the message authentication code built on it.
namespace Sha1

abbrev Word := BitVec 32

structure State where
  a : Word
  b : Word
  c : Word
  d : Word
  e : Word

def bigEndian (width value : Nat) : List UInt8 :=
  (List.range width).map fun i => UInt8.ofNat (value / 256 ^ (width - 1 - i))

def word (bytes : List UInt8) : Word := BitVec.ofNat 32 (bytes.foldl (fun value byte => value * 256 + byte.toNat) 0)

def chunks {α : Type} (size : Nat) : Nat → List α → List (List α)
  | 0, _ => []
  | count + 1, items => items.take size :: chunks size count (items.drop size)

/-- A one bit, zeros, and the length in bits in the last eight bytes. -/
def pad (message : List UInt8) : List UInt8 :=
  message ++ 0x80 :: List.replicate ((119 - message.length % 64) % 64) 0 ++ bigEndian 8 (message.length * 8)

/-- The words of all rounds, latest first. -/
def extend : Nat → List Word → List Word
  | 0, words => words
  | count + 1, words =>
    let next := words.getD 2 0 ^^^ words.getD 7 0 ^^^ words.getD 13 0 ^^^ words.getD 15 0
    extend count (next.rotateLeft 1 :: words)

def mix (round : Nat) (b c d : Word) : Word :=
  if round < 20 then b &&& c ||| ~~~b &&& d
  else if round < 40 then b ^^^ c ^^^ d
  else if round < 60 then b &&& c ||| b &&& d ||| c &&& d
  else b ^^^ c ^^^ d

def constant (round : Nat) : Word :=
  if round < 20 then 0x5A827999
  else if round < 40 then 0x6ED9EBA1
  else if round < 60 then 0x8F1BBCDC
  else 0xCA62C1D6

def State.round (s : State) (round : Nat) (w : Word) : State where
  a := s.a.rotateLeft 5 + mix round s.b s.c s.d + s.e + constant round + w
  b := s.a
  c := s.b.rotateLeft 30
  d := s.c
  e := s.d

def State.rounds : Nat → List Word → State → State
  | _, [], s => s
  | round, w :: words, s => State.rounds (round + 1) words (s.round round w)

def State.block (s : State) (bytes : List UInt8) : State :=
  let words := (chunks 4 16 bytes).map word
  let t := State.rounds 0 (extend 64 words.reverse).reverse s
  { a := s.a + t.a, b := s.b + t.b, c := s.c + t.c, d := s.d + t.d, e := s.e + t.e }

def State.start : State where
  a := 0x67452301
  b := 0xEFCDAB89
  c := 0x98BADCFE
  d := 0x10325476
  e := 0xC3D2E1F0

def sum (message : List UInt8) : List UInt8 :=
  let padded := pad message
  let s := (chunks 64 (padded.length / 64) padded).foldl State.block State.start
  [s.a, s.b, s.c, s.d, s.e].flatMap fun w => bigEndian 4 w.toNat

/-- A key longer than a block is hashed first. -/
def hmac (key message : List UInt8) : List UInt8 :=
  let key := if 64 < key.length then sum key else key
  let key := key ++ List.replicate (64 - key.length) 0
  sum (key.map (· ^^^ 0x5c) ++ sum (key.map (· ^^^ 0x36) ++ message))

example : hmac [107, 101, 121] [109] =
    [155, 51, 216, 29, 186, 33, 52, 255, 104, 137, 149, 24, 182, 43, 30, 111, 190, 184, 83, 6] := by decide +kernel

end Sha1

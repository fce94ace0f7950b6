/-!
# SHA-512

A digest of 64 bytes. A message is padded to blocks of 128 bytes, and each
block stirs eight words of 64 bits in eighty rounds. The words at the start
and the constants of the rounds are the first 64 bits behind the point of
square roots and of cube roots of primes.
-/

set_option autoImplicit false

namespace Chip8.Digest

/-- The greatest number below `2 ^ bits` whose power is at most `bound`. Its
bits are found from the highest on. -/
def root (degree bound : Nat) : Nat → Nat
  | 0 => 0
  | bits + 1 =>
      let high := root degree (bound / Nat.pow 2 degree) bits * 2
      if Nat.pow (high + 1) degree ≤ bound then high + 1 else high

def rootFraction (degree number : Nat) : UInt64 :=
  UInt64.ofNat (root degree (number * Nat.pow 2 (64 * degree)) 69)

def isPrime (number : Nat) : Bool :=
  (List.range (number - 2)).all fun place => number % (place + 2) != 0

def primes : List Nat := ((List.range 408).map (· + 2)).filter isPrime

def constants : Array UInt64 := (primes.map (rootFraction 3)).toArray

structure Words where
  a : UInt64
  b : UInt64
  c : UInt64
  d : UInt64
  e : UInt64
  f : UInt64
  g : UInt64
  h : UInt64

def initial : Words where
  a := rootFraction 2 2
  b := rootFraction 2 3
  c := rootFraction 2 5
  d := rootFraction 2 7
  e := rootFraction 2 11
  f := rootFraction 2 13
  g := rootFraction 2 17
  h := rootFraction 2 19

def turn (word amount : UInt64) : UInt64 := (word >>> amount) ||| (word <<< (64 - amount))

def round (words : Words) (message constant : UInt64) : Words :=
  let choice := (words.e &&& words.f) ^^^ (~~~words.e &&& words.g)
  let turnedE := turn words.e 14 ^^^ turn words.e 18 ^^^ turn words.e 41
  let stirred := words.h + turnedE + choice + constant + message
  let majority := (words.a &&& words.b) ^^^ (words.a &&& words.c) ^^^ (words.b &&& words.c)
  let turnedA := turn words.a 28 ^^^ turn words.a 34 ^^^ turn words.a 39
  { a := stirred + turnedA + majority
    b := words.a
    c := words.b
    d := words.c
    e := words.d + stirred
    f := words.e
    g := words.f
    h := words.g }

def extended (schedule : Array UInt64) (place : Nat) : UInt64 :=
  let late := schedule.getD (place - 2) 0
  let early := schedule.getD (place - 15) 0
  (turn late 19 ^^^ turn late 61 ^^^ (late >>> 6)) + schedule.getD (place - 7) 0 +
    (turn early 1 ^^^ turn early 8 ^^^ (early >>> 7)) + schedule.getD (place - 16) 0

def schedule (block : List UInt64) : Array UInt64 :=
  (List.range 64).foldl (fun words place => words.push (extended words (place + 16)))
    block.toArray

def addBlock (words : Words) (block : List UInt64) : Words :=
  let stirred := ((schedule block).toList.zip constants.toList).foldl
    (fun stirred entry => round stirred entry.1 entry.2) words
  { a := words.a + stirred.a
    b := words.b + stirred.b
    c := words.c + stirred.c
    d := words.d + stirred.d
    e := words.e + stirred.e
    f := words.f + stirred.f
    g := words.g + stirred.g
    h := words.h + stirred.h }

/-- The number whose bytes are given, highest first. -/
def ofBytes (bytes : List UInt8) : Nat :=
  bytes.foldl (fun number byte => number * 256 + byte.toNat) 0

/-- The last bytes of a number, highest first. -/
def toBytes (number : Nat) : Nat → List UInt8
  | 0 => []
  | count + 1 => toBytes (number / 256) count ++ [UInt8.ofNat (number % 256)]

/-- A message with a set bit, zeros and its length in bits behind it, which
together fill the last block. -/
def pad (message : List UInt8) : List UInt8 :=
  let zeros := 127 - (message.length + 16) % 128
  message ++ 0x80 :: List.replicate zeros 0 ++ toBytes (message.length * 8) 16

def pieces {α : Type} (length : Nat) (items : List α) : List (List α) :=
  (List.range (items.length / length)).map fun place =>
    (items.drop (place * length)).take length

def blocks (padded : List UInt8) : List (List UInt64) :=
  (pieces 128 padded).map fun block =>
    (pieces 8 block).map fun word => UInt64.ofNat (ofBytes word)

def ofMessage (message : List UInt8) : Nat :=
  let words := (blocks (pad message)).foldl addBlock initial
  [words.a, words.b, words.c, words.d, words.e, words.f, words.g, words.h].foldl
    (fun number word => number * Nat.pow 2 64 + word.toNat) 0

example : isPrime 409 = true ∧ isPrime 407 = false := by decide +kernel
example : rootFraction 3 2 = 0x428a2f98d728ae22 ∧ rootFraction 3 409 = 0x6c44198c4a475817 := by
  decide +kernel
example : initial.h = 0x5be0cd19137e2179 := by decide +kernel

end Chip8.Digest

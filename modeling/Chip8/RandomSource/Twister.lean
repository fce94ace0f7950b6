/-!
# Mersenne Twister

The generator MT19937: 624 words of 32 bits, renewed all at once when they
have been used up, and tempered one by one as they are drawn. A generator is
keyed by a list of words, and an integer seed by the words of its magnitude.
-/

set_option autoImplicit false

namespace Chip8

structure Twister where
  words : Vector UInt32 624
  next : Nat
  deriving DecidableEq

namespace Twister

def wordAt (words : Vector UInt32 624) (place : Nat) : UInt32 :=
  words.get ⟨place % 624, Nat.mod_lt place (by decide)⟩

def setWord (words : Vector UInt32 624) (place : Nat) (word : UInt32) : Vector UInt32 624 :=
  words.set (place % 624) word (Nat.mod_lt place (by decide))

/-- The words that a single number seeds: each one is made from the one before
it and its place. -/
def spread (seed : UInt32) : Vector UInt32 624 :=
  (List.range 623).foldl
    (fun words place =>
      let before := wordAt words place
      let mixed := before ^^^ (before >>> 30)
      setWord words (place + 1) (1812433253 * mixed + UInt32.ofNat (place + 1)))
    (Vector.replicate 624 seed)

structure Mixing where
  words : Vector UInt32 624
  place : Nat
  turn : Nat

/-- Behind the last word the last one is carried to the front. -/
def Mixing.advance (mixing : Mixing) : Mixing :=
  if 623 ≤ mixing.place then
    { mixing with words := setWord mixing.words 0 (wordAt mixing.words 623), place := 1 }
  else { mixing with place := mixing.place + 1 }

def Mixing.addKey (key : Array UInt32) (mixing : Mixing) : Mixing :=
  let before := wordAt mixing.words (mixing.place + 623)
  let mixed := (wordAt mixing.words mixing.place ^^^ ((before ^^^ (before >>> 30)) * 1664525)) +
    key.getD mixing.turn 0 + UInt32.ofNat mixing.turn
  let moved := Mixing.advance { mixing with words := setWord mixing.words mixing.place mixed }
  { moved with turn := if mixing.turn + 1 < key.size then mixing.turn + 1 else 0 }

def Mixing.addPlace (mixing : Mixing) : Mixing :=
  let before := wordAt mixing.words (mixing.place + 623)
  let mixed := (wordAt mixing.words mixing.place ^^^ ((before ^^^ (before >>> 30)) * 1566083941)) -
    UInt32.ofNat mixing.place
  Mixing.advance { mixing with words := setWord mixing.words mixing.place mixed }

def ofKey (key : Array UInt32) : Twister :=
  let begun : Mixing := { words := spread 19650218, place := 1, turn := 0 }
  let keyed := (List.range (max 624 key.size)).foldl (fun mixing _ => mixing.addKey key) begun
  let placed := (List.range 623).foldl (fun mixing _ => mixing.addPlace) keyed
  { words := setWord placed.words 0 0x80000000, next := 624 }

/-- The words of a number in base 2^32, least first; zero has one word. -/
def keyWords (magnitude : Nat) : List UInt32 :=
  if magnitude < 0x100000000 then [UInt32.ofNat magnitude]
  else UInt32.ofNat magnitude :: keyWords (magnitude / 0x100000000)
termination_by magnitude
decreasing_by omega

/-- The generator of an integer seed, which does not depend on its sign. -/
def ofSeed (seed : Int) : Twister := ofKey (keyWords seed.natAbs).toArray

/-- The word that renews the one at a place: it joins the high bit of that word
to the low bits of the next, and mixes in the word 397 places on. -/
def renewed (words : Vector UInt32 624) (place : Nat) : UInt32 :=
  let joined := (wordAt words place &&& 0x80000000) ||| (wordAt words (place + 1) &&& 0x7fffffff)
  wordAt words (place + 397) ^^^ (joined >>> 1) ^^^ (if joined &&& 1 = 0 then 0 else 0x9908b0df)

/-- All words renewed, in order, so that later ones use the new earlier ones. -/
def renew (words : Vector UInt32 624) : Vector UInt32 624 :=
  (List.range 624).foldl (fun words place => setWord words place (renewed words place)) words

def temper (word : UInt32) : UInt32 :=
  let a := word ^^^ (word >>> 11)
  let b := a ^^^ ((a <<< 7) &&& 0x9d2c5680)
  let c := b ^^^ ((b <<< 15) &&& 0xefc60000)
  c ^^^ (c >>> 18)

def draw (twister : Twister) : UInt32 × Twister :=
  let ready : Twister :=
    if twister.next < 624 then twister else { words := renew twister.words, next := 0 }
  (temper (wordAt ready.words ready.next), { ready with next := ready.next + 1 })

/-- The most words that can be drawn in a row before one has its high bit
clear. The generator visits every non-zero state of 19937 bits, so no run of
set bits is longer than that. -/
def longestRun : Nat := 19938

/-- Draw a byte: words are drawn until one has its high bit clear, and the
eight bits below it are the byte. -/
def drawByte (twister : Twister) : UInt8 × Twister := go longestRun twister
where
  go : Nat → Twister → UInt8 × Twister
    | 0, twister => (0, twister)
    | tries + 1, twister =>
        let (word, drawn) := twister.draw
        let value := word >>> 23
        if value < 256 then (value.toUInt8, drawn) else go tries drawn

end Twister

end Chip8

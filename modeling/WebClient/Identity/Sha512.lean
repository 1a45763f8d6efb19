import WebClient.Identity.Octets

/-!
# SHA-512

A message is filled up to whole blocks of 128 bytes, and the blocks are worked one
after the other into a state of eight words, which in the end is the digest. The
constants are the first bits behind the point of roots of the first primes.
-/

set_option autoImplicit false

namespace WebClient.Sha512

/-- The greatest number of 80 bits whose power does not exceed a value. -/
def root (degree value : Nat) : Nat :=
  (List.range 80).foldr (fun bit found =>
    let raised := found + (1 <<< bit)
    if Nat.pow raised degree ≤ value then raised else found) 0

def rootBits (degree value : Nat) : UInt64 :=
  UInt64.ofNat (root degree (value <<< (64 * degree)))

def primes : List Nat :=
  (List.range 410).filter fun candidate =>
    2 ≤ candidate && (List.range candidate).all fun divisor =>
      divisor < 2 || candidate % divisor != 0

def constants : List UInt64 :=
  primes.map (rootBits 3)

structure State where
  a : UInt64
  b : UInt64
  c : UInt64
  d : UInt64
  e : UInt64
  f : UInt64
  g : UInt64
  h : UInt64

namespace State

def ofList (words : List UInt64) : State where
  a := words.getD 0 0
  b := words.getD 1 0
  c := words.getD 2 0
  d := words.getD 3 0
  e := words.getD 4 0
  f := words.getD 5 0
  g := words.getD 6 0
  h := words.getD 7 0

def toList (state : State) : List UInt64 :=
  [state.a, state.b, state.c, state.d, state.e, state.f, state.g, state.h]

end State

def rotate (word count : UInt64) : UInt64 :=
  word >>> count ||| word <<< (64 - count)

/-- The next word of a schedule, whose last word comes first. -/
def nextWord (latest : List UInt64) : UInt64 :=
  let word (back : Nat) : UInt64 := latest.getD (back - 1) 0
  let small := rotate (word 15) 1 ^^^ rotate (word 15) 8 ^^^ word 15 >>> 7
  let large := rotate (word 2) 19 ^^^ rotate (word 2) 61 ^^^ word 2 >>> 6
  word 16 + small + word 7 + large

def schedule (block : List UInt64) : List UInt64 :=
  ((List.range 64).foldl (fun latest _ => nextWord latest :: latest) block.reverse).reverse

def round (state : State) (input : UInt64 × UInt64) : State :=
  let ⟨a, b, c, d, e, f, g, h⟩ := state
  let large := rotate e 14 ^^^ rotate e 18 ^^^ rotate e 41
  let choice := e &&& f ^^^ ~~~e &&& g
  let first := h + large + choice + input.2 + input.1
  let small := rotate a 28 ^^^ rotate a 34 ^^^ rotate a 39
  let majority := a &&& b ^^^ a &&& c ^^^ b &&& c
  ⟨first + (small + majority), a, b, c, d + first, e, f, g⟩

def absorb (state : State) (block : List UInt64) : State :=
  let worked := ((schedule block).zip constants).foldl round state
  .ofList (List.zipWith (· + ·) state.toList worked.toList)

/-- The message with a bit to mark its end, zeros, and its length in bits. -/
def padded (message : Bytes) : Bytes :=
  let zeros := (239 - message.length % 128) % 128
  message ++ 0x80 :: List.replicate zeros 0 ++ Octets.fixed 16 (8 * message.length)

def blocks (message : Bytes) : List (List UInt64) :=
  (List.range (message.length / 128)).map fun block =>
    (List.range 16).map fun word =>
      UInt64.ofNat (Octets.number ((message.drop (128 * block + 8 * word)).take 8))

def digest (message : Bytes) : Bytes :=
  let start := State.ofList ((primes.take 8).map (rootBits 2))
  ((blocks (padded message)).foldl absorb start).toList.flatMap fun word =>
    Octets.fixed 8 word.toNat

end WebClient.Sha512

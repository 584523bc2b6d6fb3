/-!
# A generator of pseudo-random numbers

The state is one 64-bit word that moves by a fixed odd step. A draw multiplies the state by a
scrambled copy of itself and folds the 128-bit product.
-/

namespace EventRelay

structure Generator where
  state : UInt64
  deriving DecidableEq, Inhabited

namespace Generator

def ofSeed (seed : UInt64) : Generator := ⟨seed⟩

def step : UInt64 := 0x2d358dccaa6c78a5
def scramble : UInt64 := 0x8bb84b93962eacc9

/-- The next 64-bit word. -/
def word (g : Generator) : UInt64 × Generator :=
  let s := g.state + step
  let product := s.toNat * (s ^^^ scramble).toNat
  (product.toUInt64 ^^^ (product >>> 64).toUInt64, ⟨s⟩)

/-- Two to the power of -63. -/
def inverse63 : Float := Float.ofBits 0x3c00000000000000

/-- A number of at least zero and less than one. The top 63 bits of a word can round up to one, and
are then drawn again. -/
def unitInterval (tries : Nat) (g : Generator) : Float × Generator :=
  match tries with
  | 0 => (0, g)
  | tries + 1 =>
    let (w, g) := g.word
    let x := (w >>> 1).toFloat * inverse63
    if x < 1 then (x, g) else unitInterval tries g

/-- Draws are repeated at most this often; the odds of a second draw are one in 2 ^ 54. -/
def maxTries : Nat := 1000000

def float (g : Generator) : Float × Generator := g.unitInterval maxTries

/-- A whole number below a bound, without a bias towards any: products whose low half falls into
the odd piece at the bottom are drawn again. -/
def belowFrom (bound : Nat) (tries : Nat) (g : Generator) : Nat × Generator :=
  let (w, g) := g.word
  let product := (w.toNat % UInt32.size) * bound
  let low := product % UInt32.size
  match tries with
  | 0 => (product >>> 32, g)
  | tries + 1 =>
    if low < bound ∧ low < (UInt32.size - bound) % bound then belowFrom bound tries g
    else (product >>> 32, g)

def below (bound : Nat) (g : Generator) : Nat × Generator := g.belowFrom bound maxTries

end Generator

end EventRelay

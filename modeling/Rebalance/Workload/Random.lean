/-!
Sources of random choices, and the xoshiro256++ generator as one of them.
-/

namespace Rebalance

class RandomSource (σ : Type) where
  /-- A number below a bound of 32 bits. -/
  ticket : Nat → σ → Nat × σ
  /-- A number below a bound of 64 bits. -/
  below : Nat → σ → Nat × σ
  /-- True with the given probability. -/
  chance : Float → σ → Bool × σ
  ticket_lt : ∀ {bound : Nat} (source : σ), 0 < bound → (ticket bound source).1 < bound
  below_lt : ∀ {bound : Nat} (source : σ), 0 < bound → (below bound source).1 < bound

structure Xoshiro where
  s0 : UInt64
  s1 : UInt64
  s2 : UInt64
  s3 : UInt64
deriving DecidableEq, Inhabited

namespace Xoshiro

def rotateLeft (x count : UInt64) : UInt64 := (x <<< count) ||| (x >>> (64 - count))

def rotateRight32 (x count : UInt32) : UInt32 := (x >>> count) ||| (x <<< ((32 - count) % 32))

def seedStep (state : UInt64) : UInt32 × UInt64 :=
  let state := state * 6364136223846793005 + 11634580027462260723
  let mixed := (((state >>> 18) ^^^ state) >>> 27).toUInt32
  (rotateRight32 mixed (state >>> 59).toUInt32, state)

def seedWord (state : UInt64) : UInt64 × UInt64 :=
  let (low, state) := seedStep state
  let (high, state) := seedStep state
  (low.toUInt64 ||| (high.toUInt64 <<< 32), state)

def ofSeed (seed : UInt64) : Xoshiro :=
  let (s0, state) := seedWord seed
  let (s1, state) := seedWord state
  let (s2, state) := seedWord state
  let (s3, _) := seedWord state
  { s0, s1, s2, s3 }

def next (g : Xoshiro) : UInt64 × Xoshiro :=
  let result := rotateLeft (g.s0 + g.s3) 23 + g.s0
  let t := g.s1 <<< 17
  let s2 := g.s2 ^^^ g.s0
  let s3 := g.s3 ^^^ g.s1
  let s1 := g.s1 ^^^ s2
  let s0 := g.s0 ^^^ s3
  (result, { s0, s1, s2 := s2 ^^^ t, s3 := rotateLeft s3 45 })

/-- A word of the given width: the upper bits of the next number. -/
def nextWord (width : Nat) (g : Xoshiro) : Nat × Xoshiro :=
  let (word, g) := g.next
  (word.toNat >>> (64 - width), g)

theorem nextWord_lt (width : Nat) (g : Xoshiro) : (g.nextWord width).1 < Nat.pow 2 width := by
  show (g.nextWord width).1 < 2 ^ width
  have word := g.next.1.toNat_lt
  have split : 2 ^ 64 ≤ 2 ^ (64 - width) * 2 ^ width := by
    rw [← Nat.pow_add]
    exact Nat.pow_le_pow_right (by decide) (by omega)
  simp only [nextWord, Nat.shiftRight_eq_div_pow]
  exact Nat.div_lt_of_lt_mul (Nat.lt_of_lt_of_le word split)

def acceptZone (width bound : Nat) : Nat :=
  (bound <<< (width - 1 - bound.log2)) % Nat.pow 2 width - 1

/-- Draws until the lower word of word times bound is in the zone, at most `fuel` times more;
the upper word is the choice. -/
def choose (width bound : Nat) : Nat → Xoshiro → Nat × Xoshiro
  | 0, g =>
    let (word, g) := g.nextWord width
    (word * bound / Nat.pow 2 width, g)
  | fuel + 1, g =>
    let (word, g) := g.nextWord width
    let product := word * bound
    if product % Nat.pow 2 width ≤ acceptZone width bound then (product / Nat.pow 2 width, g)
    else choose width bound fuel g

theorem mul_div_lt {word bound size : Nat} (small : word < size) (positive : 0 < bound) :
    word * bound / size < bound :=
  Nat.div_lt_of_lt_mul (Nat.mul_lt_mul_of_pos_right small positive)

theorem choose_lt {width bound : Nat} (positive : 0 < bound) (fuel : Nat) (g : Xoshiro) :
    (choose width bound fuel g).1 < bound := by
  induction fuel generalizing g with
  | zero => exact mul_div_lt (g.nextWord_lt width) positive
  | succ fuel ih =>
    unfold choose
    simp only
    split
    · exact mul_div_lt (g.nextWord_lt width) positive
    · exact ih _

def patience : Nat := 1000000

/-- True when the next number is below the probability as a share of `2 ^ 64`; certainty takes
no draw. -/
def chance (p : Float) (g : Xoshiro) : Bool × Xoshiro :=
  if p == 1.0 then (true, g)
  else
    let (word, g) := g.next
    (word < (p * 18446744073709551616.0).toUInt64, g)

instance : RandomSource Xoshiro where
  ticket bound g := choose 32 bound patience g
  below bound g := choose 64 bound patience g
  chance := chance
  ticket_lt g positive := choose_lt positive patience g
  below_lt g positive := choose_lt positive patience g

end Xoshiro

end Rebalance

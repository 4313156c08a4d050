import RelayLadder.Stimulus.Draw

/-!
The pseudo-random generator behind stimuli: 256 bits of state advanced by shifts
and rotations, seeded from one word by a congruential sequence.
-/

namespace RelayLadder

/-- A word rotated left by an amount between one and sixty-three. -/
def rotateLeft (word : UInt64) (amount : UInt64) : UInt64 :=
  (word <<< amount) ||| (word >>> (64 - amount))

structure Generator where
  s0 : UInt64
  s1 : UInt64
  s2 : UInt64
  s3 : UInt64
  deriving DecidableEq

namespace Generator

/-- The next word of the seeding sequence. -/
def seedStep (state : UInt64) : UInt64 :=
  state * 6364136223846793005 + 11634580027462260723

/-- The 32 bits that a word of the seeding sequence contributes: a shifted mix,
rotated right by the top five bits. -/
def seedBits (state : UInt64) : UInt32 :=
  let mixed := (((state >>> 18) ^^^ state) >>> 27).toUInt32
  let amount := (state >>> 59).toUInt32
  (mixed >>> amount) ||| (mixed <<< ((32 - amount) % 32))

/-- Two seeding steps make one word, the low half first. -/
def seedWord (state : UInt64) : UInt64 × UInt64 :=
  let low := seedStep state
  let high := seedStep low
  ((seedBits low).toUInt64 ||| ((seedBits high).toUInt64 <<< 32), high)

/-- The generator of a seed. -/
def ofSeed (seed : UInt64) : Generator :=
  let (s0, state) := seedWord seed
  let (s1, state) := seedWord state
  let (s2, state) := seedWord state
  let (s3, _) := seedWord state
  ⟨s0, s1, s2, s3⟩

/-- The next word and the generator after it. -/
def next (g : Generator) : UInt64 × Generator :=
  let word := rotateLeft (g.s0 + g.s3) 23 + g.s0
  let s2 := g.s2 ^^^ g.s0
  let s3 := g.s3 ^^^ g.s1
  (word, ⟨g.s0 ^^^ s3, g.s1 ^^^ s2, s2 ^^^ (g.s1 <<< 17), rotateLeft s3 45⟩)

/-- A draw: the top 53 bits of the next word. -/
def draw (g : Generator) : Nat × Generator :=
  let (word, after) := g.next
  ((word >>> 11).toNat, after)

theorem draw_lt (g : Generator) : g.draw.1 < drawLimit := by
  have bound := g.next.1.toNat_lt
  simp only [draw, UInt64.toNat_shiftRight]
  simp [drawLimit, Nat.shiftRight_eq_div_pow]
  omega

instance : DrawSource Generator := ⟨ofSeed, draw, draw_lt⟩

end Generator

end RelayLadder

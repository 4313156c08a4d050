/-!
Sources of draws. A draw is a number of 53 bits, and stands for the fraction that it is of
all of them.
-/

namespace RelayLadder

/-- Draws lie below this. -/
def drawLimit : Nat := 0x20000000000000

/-- A pseudo-random source: what it draws is decided by its seed and by the number of draws
made before. -/
class DrawSource (Source : Type) where
  ofSeed : UInt64 → Source
  /-- The next draw, and the source after it. -/
  draw : Source → Nat × Source
  draw_lt (source : Source) : (draw source).1 < drawLimit

end RelayLadder

import RingDeque.Text.Shown

/-!
# Characteristics of a traversal

What a splitter promises about the elements it yields: a set of four properties, kept as bits.
-/

namespace RingDeque

/-- A set of promises. -/
structure Characteristics where
  bits : UInt8
  deriving DecidableEq, Repr

namespace Characteristics

/-- The number of elements left is known. -/
def sized : Characteristics := ⟨1⟩

/-- The parts of a split are `sized` too. -/
def subsized : Characteristics := ⟨2⟩

/-- Elements come front to back. -/
def ordered : Characteristics := ⟨4⟩

/-- No element is missing. -/
def nonnull : Characteristics := ⟨8⟩

/-- No promise. -/
def empty : Characteristics := ⟨0⟩

/-- All promises of both sets. -/
def union (c e : Characteristics) : Characteristics :=
  ⟨c.bits ||| e.bits⟩

/-- Whether `c` makes every promise of `e`. -/
def contains (c e : Characteristics) : Bool :=
  c.bits &&& e.bits == e.bits

/-- The promises and their names. -/
def named : List (Characteristics × String) :=
  [(sized, "SIZED"), (subsized, "SUBSIZED"), (ordered, "ORDERED"), (nonnull, "NONNULL")]

/-- The promise of this name. -/
def ofName? (name : String) : Option Characteristics :=
  (named.find? fun entry => entry.2 == name).map (·.1)

instance : Inspect Characteristics where
  inspect c := .set ((named.filter fun entry => c.contains entry.1).map fun entry => .atom entry.2)

/-- What a splitter of a deque promises. -/
def ofSplitter : Characteristics :=
  ((sized.union subsized).union ordered).union nonnull

end Characteristics

end RingDeque

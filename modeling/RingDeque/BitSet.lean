import RingDeque.Calculation

/-!
# Sets of numbers in words

A set of small numbers takes one bit for each number that might be in it, 64 to a word. The words
are made once, for all numbers below a bound. A number beyond the last word is in no such set, and
cannot be put into one.
-/

namespace RingDeque

/-- A set of numbers. Number `i` has bit `i % 64` of word `i / 64`. -/
structure BitSet where
  words : Array UInt64
  deriving DecidableEq, Repr

namespace BitSet

/-- The number of bits in a word. -/
def wordBits : Nat := 64

/-- The word in which only the bit of `i` is set. -/
def mask (i : Nat) : UInt64 :=
  1 <<< UInt64.ofNat (i % wordBits)

/-- A set without elements, with words for the numbers below `bound`. A last word that is not used
up counts as one. -/
def emptyOnWords (bound : Nat) : Calculation BitSet :=
  if bound % wordBits = 0 then
    .result ⟨Array.replicate (bound / wordBits) 0⟩
  else
    .add (bound / wordBits) 1 fun count => .result ⟨Array.replicate count 0⟩

@[inherit_doc emptyOnWords]
def empty (bound : Nat) : BitSet :=
  (emptyOnWords bound).exact

theorem empty_eq (bound : Nat) :
    empty bound = ⟨Array.replicate ((bound + wordBits - 1) / wordBits) 0⟩ := by
  rw [empty, emptyOnWords]
  split
  · next full =>
      have count : (bound + wordBits - 1) / wordBits = bound / wordBits := by
        rw [wordBits] at full ⊢
        omega
      rw [count]
      rfl
  · next rest =>
      have count : (bound + wordBits - 1) / wordBits = bound / wordBits + 1 := by
        rw [wordBits] at rest ⊢
        omega
      rw [count]
      rfl

/-- Whether `i` is in the set. -/
def contains (set : BitSet) (i : Nat) : Bool :=
  set.words[i / wordBits]?.getD 0 &&& mask i != 0

/-- Put `i` into the set. -/
def insert (set : BitSet) (i : Nat) : BitSet where
  words := set.words.modify (i / wordBits) (· ||| mask i)

/-- The number of bits that are set in a word. -/
def bitCount (word : UInt64) : Nat :=
  (List.range wordBits).countP word.toBitVec.getLsbD

/-- Add up the numbers of bits that are set in some words. -/
def sumOnWords (total : Nat) : List UInt64 → Calculation Nat
  | [] => .result total
  | word :: rest => .add total (bitCount word) fun total => sumOnWords total rest

@[simp] theorem size_words_insert (set : BitSet) (i : Nat) :
    (set.insert i).words.size = set.words.size :=
  Array.size_modify ..

/-- Every number below the bound has a word. -/
theorem div_lt_size_empty {i bound : Nat} (hi : i < bound) :
    i / wordBits < (empty bound).words.size := by
  rw [empty_eq, Array.size_replicate, wordBits]
  omega

theorem toBitVec_mask (i : Nat) : (mask i).toBitVec = BitVec.twoPow 64 (i % wordBits) := by
  have small : i % wordBits < 64 := Nat.mod_lt i (by decide)
  have amount : (UInt64.ofNat (i % wordBits)).toBitVec % 64 = BitVec.ofNat 64 (i % wordBits) := by
    apply BitVec.eq_of_toNat_eq
    simp
    omega
  rw [mask, UInt64.toBitVec_shiftLeft, amount, BitVec.twoPow_eq, BitVec.shiftLeft_eq',
    BitVec.toNat_ofNat, Nat.mod_eq_of_lt (by omega)]
  rfl

/-- Looking at a word through the mask reads the bit. -/
theorem and_mask_ne_zero (word : UInt64) (i : Nat) :
    (word &&& mask i != 0) = word.toBitVec.getLsbD (i % wordBits) := by
  have small : i % wordBits < 64 := Nat.mod_lt i (by decide)
  have one_bit : BitVec.twoPow 64 (i % wordBits) ≠ 0#64 := by
    intro zero
    have bit := congrArg (fun word => word.getLsbD (i % wordBits)) zero
    simp [small] at bit
  rw [Bool.eq_iff_iff, bne_iff_ne, ne_eq, ← UInt64.toBitVec_inj, UInt64.toBitVec_and, toBitVec_mask,
    BitVec.and_twoPow]
  split
  · next set => simp [set, one_bit]
  · next clear => simp [clear]

@[simp] theorem contains_empty (bound i : Nat) : (empty bound).contains i = false := by
  rw [contains, and_mask_ne_zero, empty_eq, Array.getElem?_replicate]
  split <;> simp

/-- An insertion changes the answer for its own number, in whichever word that is, and for no
other. -/
theorem contains_insert (set : BitSet) {i : Nat} (hi : i / wordBits < set.words.size) (j : Nat) :
    (set.insert i).contains j = (decide (j = i) || set.contains j) := by
  rw [contains, contains, and_mask_ne_zero, and_mask_ne_zero, insert, Array.getElem?_modify]
  split
  · next word =>
      have same : i % wordBits = j % wordBits ↔ j = i := by
        rw [wordBits] at word ⊢
        omega
      have small : i % wordBits < 64 := Nat.mod_lt i (by decide)
      rw [← word, Array.getElem?_eq_getElem hi]
      simp [toBitVec_mask, same, small, Bool.or_comm]
  · next word =>
      have other : j ≠ i := fun same => word (same ▸ rfl)
      simp [other]

end BitSet

end RingDeque

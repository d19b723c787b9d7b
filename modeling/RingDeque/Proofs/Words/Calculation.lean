import Mathlib.Algebra.Group.Nat.Defs
import RingDeque.Calculation

/-!
# Calculations on machine words

A machine word holds the numbers below `2 ^ 64`. What becomes of a sum or a difference that is no
such number depends on how a program was built: either the program stops there, or it goes on with
the remainder modulo `2 ^ 64`. `checked` and `wrapping` are the two ways to carry out a calculation.

`InRange` says that every sum and difference on the way is a word. It is proved along the
calculation: each step asks for its bounds and goes on with the exact number. Both ways then come to
the exact outcome, which is what `Computes` puts together.
-/

namespace RingDeque

namespace Calculation

variable {β : Type u} {γ : Type v} {c : Calculation β} {y : β} {z : γ} {i j : Nat}

/-- The outcome on words, unless a sum or a difference is no word. -/
def checked : Calculation β → Option β
  | result y => some y
  | add i j next => if i + j < 2 ^ 64 then (next (i + j)).checked else none
  | sub i j next => if j ≤ i then (next (i - j)).checked else none

/-- The outcome on words when sums and differences are taken modulo `2 ^ 64`. -/
def wrapping : Calculation β → β
  | result y => y
  | add i j next => (next ((i + j) % 2 ^ 64)).wrapping
  | sub i j next => (next ((i + 2 ^ 64 - j) % 2 ^ 64)).wrapping

/-- Every exact sum and difference is a word, and so is what a difference is taken from. -/
def InRange : Calculation β → Prop
  | result _ => True
  | add i j next => i + j < 2 ^ 64 ∧ (next (i + j)).InRange
  | sub i j next => j ≤ i ∧ i < 2 ^ 64 ∧ (next (i - j)).InRange

/-- No sum or difference leaves the range of words, and however the calculation is carried out, its
outcome is `y`. -/
structure Computes (c : Calculation β) (y : β) : Prop where
  inRange : c.InRange
  exact_eq : c.exact = y
  checked_eq : c.checked = some y
  wrapping_eq : c.wrapping = y

theorem InRange.checked_eq (h : c.InRange) : c.checked = some c.exact := by
  induction c with
  | result y => rfl
  | add i j next ih =>
      rw [checked, if_pos h.1]
      exact ih _ h.2
  | sub i j next ih =>
      rw [checked, if_pos h.1]
      exact ih _ h.2.2

theorem InRange.natural?_eq (h : c.InRange) : c.natural? = some c.exact := by
  induction c with
  | result y => rfl
  | add i j next ih => exact ih _ h.2
  | sub i j next ih =>
      rw [natural?, if_pos h.1]
      exact ih _ h.2.2

theorem InRange.wrapping_eq (h : c.InRange) : c.wrapping = c.exact := by
  induction c with
  | result y => rfl
  | add i j next ih =>
      rw [wrapping, Nat.mod_eq_of_lt h.1]
      exact ih _ h.2
  | sub i j next ih =>
      obtain ⟨below, word, rest⟩ := h
      have wraps : (i + 2 ^ 64 - j) % 2 ^ 64 = i - j := by omega
      rw [wrapping, wraps]
      exact ih _ rest

theorem Computes.of_inRange (h : c.InRange) (value : c.exact = y) : c.Computes y where
  inRange := h
  exact_eq := value
  checked_eq := value ▸ h.checked_eq
  wrapping_eq := value ▸ h.wrapping_eq

theorem InRange.result (y : β) : (Calculation.result y).InRange :=
  trivial

theorem InRange.add {next : Nat → Calculation β} (word : i + j < 2 ^ 64)
    (rest : (next (i + j)).InRange) : (Calculation.add i j next).InRange :=
  ⟨word, rest⟩

theorem InRange.sub {next : Nat → Calculation β} (below : j ≤ i) (word : i < 2 ^ 64)
    (rest : (next (i - j)).InRange) : (Calculation.sub i j next).InRange :=
  ⟨below, word, rest⟩

/-- A part whose outcome is known is replaced by that. -/
theorem InRange.bind {next : β → Calculation γ} (h : c.Computes y) (rest : (next y).InRange) :
    (c.bind next).InRange := by
  obtain ⟨range, rfl, -, -⟩ := h
  induction c with
  | result y => exact rest
  | add i j _ ih => exact ⟨range.1, ih _ range.2 rest⟩
  | sub i j _ ih => exact ⟨range.1, range.2.1, ih _ range.2.2 rest⟩

theorem Computes.result (y : β) : (Calculation.result y).Computes y :=
  .of_inRange trivial rfl

theorem Computes.add {next : Nat → Calculation β} (word : i + j < 2 ^ 64)
    (rest : (next (i + j)).Computes y) : (Calculation.add i j next).Computes y :=
  .of_inRange ⟨word, rest.inRange⟩ rest.exact_eq

theorem Computes.sub {next : Nat → Calculation β} (below : j ≤ i) (word : i < 2 ^ 64)
    (rest : (next (i - j)).Computes y) : (Calculation.sub i j next).Computes y :=
  .of_inRange ⟨below, word, rest.inRange⟩ rest.exact_eq

theorem Computes.bind {next : β → Calculation γ} (h : c.Computes y) (rest : (next y).Computes z) :
    (c.bind next).Computes z := by
  refine .of_inRange (.bind h rest.inRange) ?_
  rw [exact_bind, h.exact_eq, rest.exact_eq]

theorem Computes.map (h : c.Computes y) (f : β → γ) : (c.map f).Computes (f y) :=
  h.bind (.result _)

end Calculation

end RingDeque

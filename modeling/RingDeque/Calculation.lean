/-!
# Calculations

What an operation adds and subtracts, in the order in which it does so, each with what is done with
the outcome. An operation that counts slots or walks on the circle is written down once, as a
calculation. `exact` reads off what it comes to for numbers without bound, where a difference that
would go below zero is zero: that is the operation in everything that does not ask how large numbers
may be. In the reading `natural?` there is no outcome if a difference goes below zero. What becomes
of it on machine words is another reading of the same calculation.
-/

namespace RingDeque

/-- A sequence of additions and subtractions, each of which may decide how to go on, and an
outcome. -/
inductive Calculation (β : Type u) where
  | result (y : β)
  | add (i j : Nat) (next : Nat → Calculation β)
  | sub (i j : Nat) (next : Nat → Calculation β)

namespace Calculation

variable {β : Type u} {γ : Type v}

/-- Go on with the outcome of a calculation. -/
def bind : Calculation β → (β → Calculation γ) → Calculation γ
  | result y, next => next y
  | add i j rest, next => add i j fun k => (rest k).bind next
  | sub i j rest, next => sub i j fun k => (rest k).bind next

/-- The same calculation with the outcome turned into another value. -/
def map (f : β → γ) (c : Calculation β) : Calculation γ :=
  c.bind fun y => .result (f y)

/-- The outcome for numbers without bound. -/
def exact : Calculation β → β
  | result y => y
  | add i j next => (next (i + j)).exact
  | sub i j next => (next (i - j)).exact

/-- The outcome for numbers without bound, unless a difference goes below zero. -/
def natural? : Calculation β → Option β
  | result y => some y
  | add i j next => (next (i + j)).natural?
  | sub i j next => if j ≤ i then (next (i - j)).natural? else none

@[simp] theorem exact_result (y : β) : (result y).exact = y := rfl

@[simp] theorem exact_add (i j : Nat) (next : Nat → Calculation β) :
    (add i j next).exact = (next (i + j)).exact := rfl

@[simp] theorem exact_sub (i j : Nat) (next : Nat → Calculation β) :
    (sub i j next).exact = (next (i - j)).exact := rfl

@[simp] theorem exact_bind (c : Calculation β) (next : β → Calculation γ) :
    (c.bind next).exact = (next c.exact).exact := by
  induction c with
  | result y => rfl
  | add i j _ ih => exact ih _
  | sub i j _ ih => exact ih _

@[simp] theorem exact_ite {p : Prop} [Decidable p] (c c' : Calculation β) :
    (if p then c else c').exact = if p then c.exact else c'.exact :=
  apply_ite exact p c c'

theorem natural?_bind (c : Calculation β) (next : β → Calculation γ) :
    (c.bind next).natural? = c.natural?.bind fun y => (next y).natural? := by
  induction c with
  | result y => rfl
  | add i j _ ih => exact ih _
  | sub i j _ ih =>
      rw [bind, natural?, natural?]
      split
      · exact ih _
      · rfl

/-- A part whose outcome is known is replaced by that. -/
theorem natural?_bind_of_eq_some {c : Calculation β} {y : β} (h : c.natural? = some y)
    (next : β → Calculation γ) : (c.bind next).natural? = (next y).natural? := by
  rw [natural?_bind, h]
  rfl

end Calculation

end RingDeque

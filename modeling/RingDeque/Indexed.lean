import RingDeque.Deque.Basic

/-!
# Indexed sequences and their equality

Equality of containers looks only at a length and at what stands at each index. A lawful container
has an element exactly at the indices below its length; one that has not is equal to nothing, not
even to itself. Deques are compared in this way too, so equal deques may be laid out differently.

Elements of different types are compared if there is an equality between them: a deque of deques
equals a list of lists.
-/

namespace RingDeque

/-- A container seen through its length and its indices. -/
structure Indexed (α : Type u) where
  length : Nat
  get? : Nat → Option α

namespace Indexed

variable {α : Type u}

/-- Whether there is no element. -/
def isEmpty (c : Indexed α) : Bool :=
  c.length == 0

/-- A list as a container. -/
def ofList (xs : List α) : Indexed α :=
  let items := xs.toArray
  ⟨items.size, fun i => items[i]?⟩

/-- A container of the length of `xs` with gaps. -/
def ofOptions (xs : List (Option α)) : Indexed α :=
  let items := xs.toArray
  ⟨items.size, fun i => items[i]?.join⟩

@[simp] theorem length_ofList (xs : List α) : (ofList xs).length = xs.length := rfl

@[simp] theorem get?_ofList (xs : List α) (i : Nat) : (ofList xs).get? i = xs[i]? := by
  simp [ofList]

/-- An element at every index below the length and at no other. -/
def Lawful (c : Indexed α) : Prop :=
  ∀ i, (c.get? i).isSome ↔ i < c.length

/-- Whether two containers have elements at each index that are equal by `eq`. -/
def elementsEqBy {β : Type v} (eq : α → β → Bool) (c : Indexed α) (e : Indexed β) : Bool :=
  c.length == e.length && (List.range c.length).all fun i =>
    match c.get? i, e.get? i with
    | some x, some y => eq x y
    | _, _ => false

/-- Whether two containers have equal elements at each index. -/
def elementsEq [BEq α] (c e : Indexed α) : Bool :=
  c.elementsEqBy (· == ·) e

end Indexed

namespace Deque

variable {α : Type u}

/-- A deque as a container. -/
def indexed (d : Deque α) : Indexed α :=
  ⟨d.length, d.get?⟩

instance [BEq α] : BEq (Deque α) where
  beq d e := d.indexed.elementsEq e.indexed

end Deque

end RingDeque

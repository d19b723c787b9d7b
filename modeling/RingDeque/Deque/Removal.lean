import RingDeque.BitSet
import RingDeque.Deque.Insertion

/-!
# Removing by a predicate

Removal has two phases. The first asks the predicate about every element, front to back, and only
writes down the answers; the deque stays readable meanwhile, and a predicate that fails leaves no
trace. The second slides the survivors together in place. Between the two, `expunge` checks that the
elements still stand where the plan saw them.

The plan begins with the first element that is to go. A scan that finds none makes no plan, and the
elements in front of that one are not looked at again.
-/

namespace RingDeque

/-- The answers of a predicate about the elements of a deque. -/
structure RemovalPlan where
  /-- The `head` of the deque that was asked about. -/
  head : Nat
  /-- The `tail` of the deque that was asked about. -/
  tail : Nat
  /-- The index of the first element that is to go. -/
  first : Nat
  /-- The elements that are to go, each by its distance from the first of them. -/
  doomed : BitSet
  deriving DecidableEq, Repr

/-- Whether each of the `count` elements from the first one on that is to go is to go as well. -/
def RemovalPlan.verdicts (plan : RemovalPlan) (count : Nat) : List Bool :=
  (List.range count).map plan.doomed.contains

namespace Deque

variable {α : Type u} {σ : Type v}

/-- Ask `predicate` about the elements of a list until it selects one. Returns the index of that
one, if those of the list begin with `index`, and the elements behind it. -/
def findDoomed (predicate : Callback σ α Bool) (index : Nat) :
    List α → σ → Except Fault (Option (Nat × List α)) × σ
  | [], s => (.ok none, s)
  | x :: xs, s =>
    match predicate x s with
    | (.error fault, s) => (.error fault, s)
    | (.ok true, s) => (.ok (some (index, xs)), s)
    | (.ok false, s) => findDoomed predicate (index + 1) xs s

/-- Ask `predicate` about the elements of a list and add those that it selects to `doomed`. The
first element of the list has the number `number`. -/
def markDoomed (predicate : Callback σ α Bool) (doomed : BitSet) (number : Nat) :
    List α → σ → Except Fault BitSet × σ
  | [], s => (.ok doomed, s)
  | x :: xs, s =>
    match predicate x s with
    | (.error fault, s) => (.error fault, s)
    | (.ok true, s) => markDoomed predicate (doomed.insert number) (number + 1) xs s
    | (.ok false, s) => markDoomed predicate doomed (number + 1) xs s

/-- Ask `predicate` which of the elements from `index` on are to go, if those in front of them are
to stay. There is no plan if it selects none. -/
def planFrom (predicate : Callback σ α Bool) (d : Deque α) (index : Nat) (xs : List α) (s : σ) :
    Except Fault (Option RemovalPlan) × σ :=
  match findDoomed predicate index xs s with
  | (.error fault, s) => (.error fault, s)
  | (.ok none, s) => (.ok none, s)
  | (.ok (some (first, behind)), s) =>
    match markDoomed predicate ((BitSet.empty (d.length - first)).insert 0) 1 behind s with
    | (.error fault, s) => (.error fault, s)
    | (.ok doomed, s) => (.ok (some ⟨d.head, d.tail, first, doomed⟩), s)

/-- Ask `predicate` which elements are to go. There is no plan if it selects none. -/
def planRemoval (predicate : Callback σ α Bool) (d : Deque α) (s : σ) :
    Except Fault (Option RemovalPlan) × σ :=
  d.planFrom predicate 0 d.toList s

/-- Slide the survivors of the elements from slot `read` on toward slot `write`. The slots from
`write` up to `read` are empty throughout. Also returns the slot behind the last survivor. -/
def slideOnWords (slots : Slots α) (write read : Nat) : List Bool → Calculation (Slots α × Nat)
  | [] => .result (slots, write)
  | true :: doomed =>
    (Circle.nextOnWords read slots.size).bind fun next =>
    slideOnWords (slots.put read none) write next doomed
  | false :: doomed =>
    (Circle.nextOnWords write slots.size).bind fun behind =>
    (Circle.nextOnWords read slots.size).bind fun next =>
    slideOnWords (slots.swap read write) behind next doomed

@[inherit_doc slideOnWords]
def slide (slots : Slots α) (write read : Nat) (doomed : List Bool) : Slots α × Nat :=
  (slideOnWords slots write read doomed).exact

@[simp] theorem exact_slideOnWords (slots : Slots α) (write read : Nat) (doomed : List Bool) :
    (slideOnWords slots write read doomed).exact = slide slots write read doomed := rfl

theorem slide_doomed (slots : Slots α) (write read : Nat) (doomed : List Bool) :
    slide slots write read (true :: doomed) =
      slide (slots.put read none) write (Circle.next read slots.size) doomed :=
  Calculation.exact_bind ..

theorem slide_kept (slots : Slots α) (write read : Nat) (doomed : List Bool) :
    slide slots write read (false :: doomed) =
      slide (slots.swap read write) (Circle.next write slots.size) (Circle.next read slots.size)
        doomed :=
  (Calculation.exact_bind ..).trans (Calculation.exact_bind ..)

/-- Drop the elements that are to go and slide the others together. The marks are counted as well;
only a log shows the number. -/
def compactOnWords (plan : RemovalPlan) (d : Deque α) : Calculation (Deque α) :=
  d.lengthOnWords.bind fun length =>
  .sub length plan.first fun span =>
  (d.positionOnWords plan.first).bind fun start =>
  (slideOnWords d.slots start start (plan.verdicts span)).bind fun (slots, tail) =>
  (BitSet.sumOnWords 0 plan.doomed.words.toList).bind fun _ =>
  .result { d with slots := slots, tail := tail }

@[inherit_doc compactOnWords]
def compact (plan : RemovalPlan) (d : Deque α) : Deque α :=
  (d.compactOnWords plan).exact

theorem compact_eq (plan : RemovalPlan) (d : Deque α) :
    d.compact plan =
      let (slots, tail) := slide d.slots (d.position plan.first) (d.position plan.first)
        (plan.verdicts (d.length - plan.first))
      { d with slots := slots, tail := tail } := by
  simp only [compact, compactOnWords, Calculation.exact_bind, exact_lengthOnWords,
    Calculation.exact,
    exact_positionOnWords, exact_slideOnWords]

@[simp] theorem head_compact (plan : RemovalPlan) (d : Deque α) :
    (d.compact plan).head = d.head := by
  rw [compact_eq]

/-- Carry out `plan`, unless the elements have moved since. -/
def expunge (plan : RemovalPlan) (d : Deque α) : Except Error Unit × Deque α :=
  if plan.head = d.head ∧ plan.tail = d.tail then
    (.ok (), d.compact plan)
  else
    (.error .concurrentModification, d)

/-- Remove every element for which `predicate` holds; whether there was one. -/
def removeWhere (predicate : Callback σ α Bool) (d : Deque α) (s : σ) :
    (Except Fault Bool × Deque α) × σ :=
  match d.planRemoval predicate s with
  | (.error fault, s) => ((.error fault, d), s)
  | (.ok none, s) => ((.ok false, d), s)
  | (.ok (some plan), s) => ((.ok true, d.compact plan), s)

/-- The predicate that holds where `predicate` does not. -/
def negated (predicate : Callback σ α Bool) : Callback σ α Bool := fun x s =>
  match predicate x s with
  | (.ok answer, s) => (.ok (!answer), s)
  | (.error fault, s) => (.error fault, s)

/-- Keep the elements for which `predicate` holds; whether others were removed. -/
def retain (predicate : Callback σ α Bool) (d : Deque α) (s : σ) :
    (Except Fault Bool × Deque α) × σ :=
  d.removeWhere (negated predicate) s

/-- Whether one of `values` equals `x`. -/
def occursIn [BEq α] (values : List α) (x : α) : Bool :=
  values.any (· == x)

/-- An equality of elements that may give up and remembers what it was asked. -/
abbrev Equality (σ : Type v) (α : Type u) := α → α → σ → Except Fault Bool × σ

/-- The equality of a type, which never gives up. -/
def Equality.plain [BEq α] : Equality σ α := fun x y s =>
  (.ok (x == y), s)

/-- Whether one of `values` equals `x`. They are compared with it in turn, up to the first that
does. -/
def occursInBy (equal : Equality σ α) : List α → Callback σ α Bool
  | [], _, s => (.ok false, s)
  | v :: values, x, s =>
    match equal v x s with
    | (.error fault, s) => (.error fault, s)
    | (.ok true, s) => (.ok true, s)
    | (.ok false, s) => occursInBy equal values x s

/-- Remove every element that equals one of `values` by `equal`; whether there was one. -/
def removeAllBy (equal : Equality σ α) (values : List α) (d : Deque α) (s : σ) :
    (Except Fault Bool × Deque α) × σ :=
  d.removeWhere (occursInBy equal values) s

/-- Keep the elements that equal one of `values` by `equal`; whether others were removed. -/
def retainAllBy (equal : Equality σ α) (values : List α) (d : Deque α) (s : σ) :
    (Except Fault Bool × Deque α) × σ :=
  d.removeWhere (negated (occursInBy equal values)) s

section Equal

variable [BEq α]

/-- Remove every element that equals one of `values`; whether there was one. -/
def removeAll (values : List α) (d : Deque α) : Except Fault Bool × Deque α :=
  (d.removeAllBy .plain values ()).1

/-- Keep the elements that equal one of `values`; whether others were removed. -/
def retainAll (values : List α) (d : Deque α) : Except Fault Bool × Deque α :=
  (d.retainAllBy .plain values ()).1

/-- Comparing never gives up, so it is asked whether one of the values occurs. -/
theorem occursInBy_plain (values : List α) :
    occursInBy .plain values = (Callback.pure (occursIn values) : Callback σ α Bool) := by
  funext x s
  induction values with
  | nil => rfl
  | cons v values ih =>
      rw [occursInBy, Equality.plain]
      cases same : v == x with
      | true => simp only [Callback.pure, occursIn, List.any_cons, same, Bool.true_or]
      | false =>
          simp only [ih]
          simp only [Callback.pure, occursIn, List.any_cons, same, Bool.false_or]

theorem removeAll_eq (values : List α) (d : Deque α) :
    d.removeAll values = (d.removeWhere (Callback.pure (occursIn values)) ()).1 := by
  rw [removeAll, removeAllBy, occursInBy_plain]

theorem retainAll_eq (values : List α) (d : Deque α) :
    d.retainAll values = (d.removeWhere (Callback.pure fun x => !occursIn values x) ()).1 := by
  rw [retainAll, retainAllBy, occursInBy_plain]
  rfl

end Equal

end Deque

end RingDeque

import RingDeque.Deque.Visit
import RingDeque.Proofs.Insertion
import RingDeque.Proofs.RemovalPlan

/-!
# What removing by a predicate and replacing all elements do

`slide` keeps three runs of slots apart: the survivors that it has put together, the free slots
between the two pointers, and the elements that it has not come to. Each step makes one of the outer
runs longer or shorter by one slot, so the survivors end up behind one another in their old order.

A callback that is called on every element either answers for all of them or stops somewhere, and
then what it has answered is shorter.
-/

namespace RingDeque

variable {α : Type u} {β : Type v} {γ : Type x} {σ : Type w} {xs : List α}

/-- The elements that are not to go, in order. -/
def survivors : List Bool → List α → List α
  | true :: doomed, _ :: xs => survivors doomed xs
  | false :: doomed, x :: xs => x :: survivors doomed xs
  | _, _ => []

theorem survivors_sublist (doomed : List Bool) (xs : List α) :
    (survivors doomed xs).Sublist xs := by
  fun_induction survivors doomed xs with
  | case1 doomed x xs ih => exact ih.cons x
  | case2 doomed x xs ih => exact ih.cons_cons x
  | case3 => exact List.nil_sublist _

/-- If the answers come from a test, the survivors are the elements that fail it. -/
theorem survivors_map (test : α → Bool) (xs : List α) :
    survivors (xs.map test) xs = xs.filter fun x => !test x := by
  induction xs with
  | nil => rfl
  | cons x xs ih =>
      rw [List.map_cons]
      cases answer : test x <;> simp [survivors, answer, ih]

/-- The elements in front of the first that is to go are survivors. -/
theorem survivors_replicate_append (doomed : List Bool) {kept : Nat} (hk : kept ≤ xs.length) :
    survivors (List.replicate kept false ++ doomed) xs =
      xs.take kept ++ survivors doomed (xs.drop kept) := by
  induction kept generalizing xs with
  | zero => simp
  | succ kept ih =>
      obtain ⟨x, xs, rfl⟩ := List.exists_cons_of_length_pos (Nat.zero_lt_of_lt hk)
      rw [List.replicate_succ, List.cons_append, survivors, List.take_succ_cons,
        List.drop_succ_cons, List.cons_append, ih (Nat.le_of_succ_le_succ hk)]

/-- There are never more answers than elements, and as many unless a fault stopped the calls. -/
theorem length_traverse (f : Callback σ α β) (xs : List α) (s : σ) :
    (traverse f xs s).1.values.length ≤ xs.length ∧
      ((traverse f xs s).1.fault = none → (traverse f xs s).1.values.length = xs.length) := by
  induction xs generalizing s with
  | nil => simp
  | cons x xs ih =>
      rw [traverse_cons]
      split
      · simp
      · simpa using ih _

/-- `f` with `g` applied to its answers. -/
def Callback.map (g : β → γ) (f : Callback σ α β) : Callback σ α γ := fun x s =>
  match f x s with
  | (.error fault, s) => (.error fault, s)
  | (.ok y, s) => (.ok (g y), s)

@[simp] theorem Callback.map_id (f : Callback σ α β) : f.map id = f := by
  funext x s
  rw [Callback.map]
  split
  · next call => exact call.symm
  · next call => exact call.symm

theorem traverse_map (g : β → γ) (f : Callback σ α β) (xs : List α) (s : σ) :
    traverse (f.map g) xs s =
      (⟨(traverse f xs s).1.values.map g, (traverse f xs s).1.fault⟩, (traverse f xs s).2) := by
  induction xs generalizing s with
  | nil => rfl
  | cons x xs ih =>
      rw [traverse_cons, traverse_cons, Callback.map]
      rcases f x s with ⟨fault | y, s'⟩
      · rfl
      · dsimp only
        rw [ih, List.map_cons]

namespace Slots

variable {slots : Slots α} {xs : List α} {x : α} {m h w r k : Nat}

/-- In the middle of a slide: the slots from place `w` up to place `r` are free, and from there on
stand `xs`. -/
structure Sliding (slots : Slots α) (h m w r : Nat) (xs : List α) : Prop where
  size : slots.size = m
  head_lt : h < m
  le : w ≤ r
  length_le : r + xs.length ≤ m
  free : ∀ j, w ≤ j → j < r → slots.view h j = none
  seen : ∀ i < xs.length, slots.view h (r + i) = xs[i]?

theorem Sliding.first (hs : Sliding slots h m w r (x :: xs)) : slots.view h r = some x :=
  hs.seen 0 (Nat.succ_pos _)

theorem Sliding.rest (hs : Sliding slots h m w r (x :: xs)) {i : Nat} (hi : i < xs.length) :
    slots.view h (r + 1 + i) = xs[i]? := by
  rw [Nat.add_right_comm, Nat.add_assoc, hs.seen (i + 1) (Nat.succ_lt_succ hi),
    List.getElem?_cons_succ]

/-- An element that goes leaves one more slot free. -/
theorem Sliding.drop (hs : Sliding slots h m w r (x :: xs)) :
    Sliding (slots.put (Circle.forward h r m) none) h m w (r + 1) xs := by
  have length := hs.length_le
  rw [List.length_cons] at length
  have emptied {k} (hk : k < m) := view_put hs.size hs.head_lt (show r < m by omega) hk none
  refine ⟨(size_put ..).trans hs.size, hs.head_lt, Nat.le_succ_of_le hs.le, by omega, ?_, ?_⟩
  · intro j hw hr
    rw [emptied (by omega)]
    by_cases there : j = r
    · rw [if_pos there]
    · rw [if_neg there, hs.free j hw (by omega)]
  · intro i hi
    rw [emptied (by omega), if_neg (by omega), hs.rest hi]

/-- What the slots show after an element that stays has changed places with the first free slot. -/
theorem Sliding.view_keep (hs : Sliding slots h m w r (x :: xs)) (hk : k < m) :
    (slots.swap (Circle.forward h r m) (Circle.forward h w m)).view h k =
      if k = w then some x else if k = r then none else slots.view h k := by
  have length := hs.length_le
  rw [List.length_cons] at length
  have le := hs.le
  rw [view_swap hs.size hs.head_lt (show r < m by omega) (show w < m by omega) hk]
  by_cases written : k = w
  · rw [if_pos written, if_pos written, hs.first]
    by_cases same : k = r
    · rw [if_pos same, ← written, same, hs.first]
    · rw [if_neg same]
  · rw [if_neg written, if_neg written]
    split
    · next there => exact hs.free w (Nat.le_refl w) (by omega)
    · rfl

/-- An element that stays makes room for itself in front of the free slots. -/
theorem Sliding.keep (hs : Sliding slots h m w r (x :: xs)) :
    Sliding (slots.swap (Circle.forward h r m) (Circle.forward h w m)) h m (w + 1) (r + 1) xs := by
  have length := hs.length_le
  rw [List.length_cons] at length
  have le := hs.le
  refine ⟨(size_swap ..).trans hs.size, hs.head_lt, Nat.succ_le_succ le, by omega, ?_, ?_⟩
  · intro j hw hr
    rw [hs.view_keep (by omega), if_neg (by omega)]
    by_cases there : j = r
    · rw [if_pos there]
    · rw [if_neg there, hs.free j (by omega) (by omega)]
  · intro i hi
    rw [hs.view_keep (by omega), if_neg (by omega), if_neg (by omega), hs.rest hi]

/-- The whole slide: the survivors stand behind those from before, and what was left of the two runs
is free. -/
theorem Sliding.slide (hs : Sliding slots h m w r xs) {doomed : List Bool}
    (length : doomed.length = xs.length) :
    ∃ slots', Deque.slide slots (Circle.forward h w m) (Circle.forward h r m) doomed =
        (slots', Circle.forward h (w + (survivors doomed xs).length) m) ∧
      slots'.size = m ∧
      ∀ k < m, slots'.view h k =
        if k < w then slots.view h k
        else if k < r + xs.length then (survivors doomed xs)[k - w]?
        else slots.view h k := by
  -- Each answer uses up the first of `xs`; `drop` and `keep` restore the invariant for the others.
  induction doomed generalizing slots w r xs with
  | nil =>
      obtain rfl : xs = [] := List.eq_nil_of_length_eq_zero length.symm
      refine ⟨slots, rfl, hs.size, ?_⟩
      intro k hk
      rw [List.length_nil, Nat.add_zero]
      by_cases before : k < w
      · rw [if_pos before]
      · rw [if_neg before]
        split
        · next between => exact hs.free k (Nat.le_of_not_lt before) between
        · rfl
  | cons gone doomed ih =>
      obtain ⟨x, xs, rfl⟩ := List.exists_cons_of_length_eq_add_one length.symm
      rw [List.length_cons, List.length_cons, Nat.add_right_cancel_iff] at length
      have bound := hs.length_le
      have le := hs.le
      rw [List.length_cons] at bound ⊢
      have nextRead : Circle.next (Circle.forward h r m) m = Circle.forward h (r + 1) m :=
        Circle.next_forward hs.head_lt (by omega)
      cases gone with
      | true =>
          obtain ⟨slots', done, size, seen⟩ := ih hs.drop length
          refine ⟨slots', ?_, size, ?_⟩
          · rw [Deque.slide_doomed, hs.size, nextRead]
            exact done
          · intro k hk
            rw [seen k hk, view_put hs.size hs.head_lt (by omega) hk, survivors,
              Nat.add_right_comm, Nat.add_assoc]
            by_cases before : k < w
            · rw [if_pos before, if_pos before, if_neg (by omega)]
            · rw [if_neg before, if_neg before]
              split
              · rfl
              · rw [if_neg (by omega)]
      | false =>
          have nextWrite : Circle.next (Circle.forward h w m) m = Circle.forward h (w + 1) m :=
            Circle.next_forward hs.head_lt (by omega)
          obtain ⟨slots', done, size, seen⟩ := ih hs.keep length
          refine ⟨slots', ?_, size, ?_⟩
          · rw [Deque.slide_kept, hs.size, nextRead, nextWrite, survivors, List.length_cons,
              ← Nat.add_assoc, Nat.add_right_comm]
            exact done
          · intro k hk
            rw [seen k hk, hs.view_keep hk, survivors, Nat.add_right_comm, Nat.add_assoc]
            by_cases before : k < w
            · rw [if_pos (by omega), if_neg (by omega), if_neg (by omega), if_pos before]
            · rw [if_neg before]
              by_cases written : k = w
              · rw [if_pos (by omega), if_pos written, if_pos (by omega), written, Nat.sub_self]
                rfl
              · rw [if_neg (by omega)]
                split
                · rw [show k - w = k - (w + 1) + 1 by omega, List.getElem?_cons_succ]
                · rw [if_neg (by omega)]

end Slots

namespace Deque

variable {d : Deque α}

theorem negated_eq_map (predicate : Callback σ α Bool) : negated predicate = predicate.map not := by
  funext x s
  rw [negated, Callback.map]
  rcases predicate x s with ⟨fault | answer, s'⟩
  · rfl
  · rfl

/-- The elements in front of the first that is to go are not touched, and what is left of the others
follows them. -/
theorem Holds.compact (h : d.Holds xs) {plan : RemovalPlan} (hp : plan.first ≤ xs.length) :
    (d.compact plan).Holds (xs.take plan.first ++
      survivors (plan.verdicts (xs.length - plan.first)) (xs.drop plan.first)) := by
  have length := h.length_lt
  have count : (plan.verdicts (xs.length - plan.first)).length = (xs.drop plan.first).length := by
    rw [RemovalPlan.verdicts, List.length_map, List.length_range, List.length_drop]
  have start : Slots.Sliding d.slots d.head d.slotCount plan.first plan.first
      (xs.drop plan.first) := {
    size := size_slots d
    head_lt := h.head_lt
    le := Nat.le_refl _
    length_le := by
      rw [List.length_drop]
      omega
    free := fun j hj hj' => absurd hj' (Nat.not_lt_of_le hj)
    seen := fun i hi => by
      rw [List.length_drop] at hi
      rw [h.view_eq _ (by omega), List.getElem?_drop] }
  obtain ⟨slots', hs, size, seen⟩ := start.slide count
  have shorter := (survivors_sublist (plan.verdicts (xs.length - plan.first))
    (xs.drop plan.first)).length_le
  rw [List.length_drop] at shorter seen
  rw [Deque.compact_eq, h.length_eq, position, hs]
  refine holds_mk size h.head_lt ?_ ?_ ?_
  · rw [List.length_append, List.length_take]
    omega
  · rw [List.length_append, List.length_take_of_le hp]
  · intro k hk
    rw [seen k hk, List.getElem?_append, List.length_take_of_le hp, h.view_eq k hk]
    split
    · next before => rw [List.getElem?_take_of_lt before]
    · split
      · rfl
      · rw [List.getElem?_eq_none (by omega), List.getElem?_eq_none (by omega)]

/-- The plan for some answers removes the elements that they say. -/
theorem Holds.compact_of_planOf (h : d.Holds xs) {answers : List Bool} {plan : RemovalPlan}
    (length : answers.length = xs.length) (hp : d.planOf 0 answers = some plan) :
    (d.compact plan).Holds (survivors answers xs) := by
  obtain ⟨kept, first, split_answers⟩ :=
    answers_of_planOf (by rw [h.length_eq, Nat.zero_add, length]) hp
  rw [Nat.zero_add] at first
  subst first
  have fewer : plan.first ≤ xs.length := by
    have total := congrArg List.length split_answers
    rw [List.length_append, List.length_replicate] at total
    omega
  rw [split_answers, survivors_replicate_append _ fewer, h.length_eq]
  exact h.compact fewer

/-- A predicate that stops leaves no trace; otherwise exactly the elements that it selected go. -/
theorem Holds.removeWhere (h : d.Holds xs) (predicate : Callback σ α Bool) (s : σ) :
    ∃ d', d.removeWhere predicate s =
        (((traverse predicate xs s).1.complete.map fun doomed => doomed.any id, d'),
          (traverse predicate xs s).2) ∧
      d'.Holds (match (traverse predicate xs s).1.complete with
        | .ok doomed => survivors doomed xs
        | .error _ => xs) := by
  have length := (length_traverse predicate xs s).2
  rw [Deque.removeWhere, planRemoval_eq, h.toList_eq]
  generalize traverse predicate xs s = outcome at length ⊢
  obtain ⟨⟨answers, fault⟩, s'⟩ := outcome
  cases fault with
  | some fault => exact ⟨d, rfl, h⟩
  | none =>
      simp only [Trace.complete, Except.map]
      cases plan : d.planOf 0 answers with
      | some plan =>
          have any : answers.any id = true := by
            rw [← Bool.not_eq_false, ← planOf_eq_none_iff (d := d), plan]
            exact Option.some_ne_none _
          rw [any]
          exact ⟨_, rfl, h.compact_of_planOf (length rfl) plan⟩
      | none =>
          have any := planOf_eq_none_iff.1 plan
          have none_gone : survivors answers xs = xs := by
            have all : answers = xs.map fun _ => false := by
              rw [List.map_const', List.eq_replicate_iff]
              exact ⟨length rfl, by simpa using any⟩
            rw [all, survivors_map]
            simp
          rw [any]
          exact ⟨d, rfl, by rwa [none_gone]⟩

/-- The answers up to the first fault take the places of the elements that they are about. -/
theorem Holds.replaceAll (h : d.Holds xs) (operator : Callback σ α α) (s : σ) :
    ∃ d', d.replaceAll operator s =
        (((traverse operator xs s).1.complete.map fun _ => (), d'), (traverse operator xs s).2) ∧
      d'.Holds ((traverse operator xs s).1.values ++
        xs.drop (traverse operator xs s).1.values.length) := by
  have length := h.length_lt
  have fewer := (length_traverse operator xs s).1
  rw [Deque.replaceAll, h.toList_eq]
  generalize traverse operator xs s = outcome at fewer ⊢
  obtain ⟨⟨answers, fault⟩, s'⟩ := outcome
  dsimp only at fewer ⊢
  have filled {k} (hk : k < d.slotCount) := Slots.view_fill 0 answers (size_slots d)
    h.head_lt (by omega) hk
  rw [Circle.forward_zero h.head_lt] at filled
  have total : (answers ++ xs.drop answers.length).length = xs.length := by
    rw [List.length_append, List.length_drop]
    exact Nat.add_sub_cancel' fewer
  have holds : Holds ⟨d.slots.fill d.head answers, d.head, d.tail⟩
      (answers ++ xs.drop answers.length) := by
    refine holds_mk ((Slots.size_fill ..).trans (size_slots d)) h.head_lt (by omega)
      (by rw [total, h.tail_eq]) ?_
    intro k hk
    rw [filled hk, h.view_eq k hk, List.getElem?_append, List.getElem?_drop, Nat.zero_add]
    split
    · next early => rw [if_pos early.2, Nat.sub_zero]
    · next late => rw [if_neg (by omega), Nat.add_sub_cancel' (by omega)]
  cases fault with
  | some fault => exact ⟨_, rfl, holds⟩
  | none => exact ⟨_, rfl, holds⟩

end Deque

end RingDeque

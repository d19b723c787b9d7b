import RingDeque.Deque.Sort
import RingDeque.Proofs.RemovalPlan

/-!
# Callbacks that use a part of a state

An operation passes the state of its callback on from call to call and looks at it nowhere. So if
every call works only on a part of that state, then so does the whole operation, and it does to that
part what it would do if there were nothing else. `Carries` says this of anything that takes a
state: `ι` puts the part into its place.
-/

namespace RingDeque

variable {μ : Type u} {τ : Type v} {α : Type w} {β : Type x} {ι : μ → τ}

/-- On the part `m` of a state, `F` does what `G` does to `m` alone, and the rest of the state
stays. -/
def Carries (ι : μ → τ) (F : τ → β × τ) (G : μ → β × μ) : Prop :=
  ∀ m, F (ι m) = ((G m).1, ι (G m).2)

theorem Carries.traverse {F : Callback τ α β} {G : Callback μ α β}
    (h : ∀ x, Carries ι (F x) (G x)) (xs : List α) :
    Carries ι (RingDeque.traverse F xs) (RingDeque.traverse G xs) := by
  induction xs with
  | nil =>
      intro m
      rfl
  | cons x xs ih =>
      intro m
      rw [traverse_cons, traverse_cons, h x m]
      rcases G x m with ⟨_ | y, m'⟩
      · rfl
      · dsimp only
        rw [ih m']

/-- What a source delivers: the answers of `item` for the numbers below `count`, and then `finish`,
which finds the end. -/
def delivered (count : Nat) (item : Callback τ Nat α) (finish : τ → Except Fault Unit × τ) (s : τ) :
    Trace α × τ :=
  match traverse item (List.range count) s with
  | (⟨values, some fault⟩, s) => (⟨values, some fault⟩, s)
  | (⟨values, none⟩, s) =>
    match finish s with
    | (.error fault, s) => (⟨values, some fault⟩, s)
    | (.ok (), s) => (⟨values, none⟩, s)

namespace Carries

variable {F : Callback τ α Bool} {G : Callback μ α Bool}

theorem negated (h : ∀ x, Carries ι (F x) (G x)) (x : α) :
    Carries ι (Deque.negated F x) (Deque.negated G x) := by
  intro m
  rw [Deque.negated, Deque.negated, h x m]
  rcases G x m with ⟨_ | answer, m'⟩
  · rfl
  · rfl

theorem planRemoval (h : ∀ x, Carries ι (F x) (G x)) (d : Deque α) :
    Carries ι (d.planRemoval F) (d.planRemoval G) := by
  intro m
  rw [Deque.planRemoval_eq, Deque.planRemoval_eq, Carries.traverse h d.toList m]

theorem removeWhere (h : ∀ x, Carries ι (F x) (G x)) (d : Deque α) :
    Carries ι (d.removeWhere F) (d.removeWhere G) := by
  intro m
  rw [Deque.removeWhere, Deque.removeWhere, planRemoval h d m]
  rcases d.planRemoval G m with ⟨fault | _ | plan, m'⟩
  · rfl
  · rfl
  · rfl

theorem forEach {F : Callback τ α Unit} {G : Callback μ α Unit}
    (h : ∀ x, Carries ι (F x) (G x)) (d : Deque α) : Carries ι (d.forEach F) (d.forEach G) := by
  intro m
  rw [Deque.forEach, Deque.forEach, Carries.traverse h d.toList m]
  rcases RingDeque.traverse G d.toList m with ⟨⟨answers, _ | fault⟩, m'⟩
  · rfl
  · rfl

theorem replaceAll {F : Callback τ α α} {G : Callback μ α α}
    (h : ∀ x, Carries ι (F x) (G x)) (d : Deque α) :
    Carries ι (d.replaceAll F) (d.replaceAll G) := by
  intro m
  rw [Deque.replaceAll, Deque.replaceAll, Carries.traverse h d.toList m]
  rcases RingDeque.traverse G d.toList m with ⟨⟨answers, _ | fault⟩, m'⟩
  · rfl
  · rfl

theorem delivered {F : Callback τ Nat α} {G : Callback μ Nat α}
    {finish : τ → Except Fault Unit × τ} {finish' : μ → Except Fault Unit × μ}
    (h : ∀ i, Carries ι (F i) (G i)) (hf : Carries ι finish finish') (count : Nat) :
    Carries ι (RingDeque.delivered count F finish) (RingDeque.delivered count G finish') := by
  intro m
  rw [RingDeque.delivered, RingDeque.delivered, Carries.traverse h (List.range count) m]
  rcases RingDeque.traverse G (List.range count) m with ⟨⟨values, _ | fault⟩, m'⟩
  · dsimp only
    rw [hf m']
    rcases finish' m' with ⟨_ | _, m''⟩
    · rfl
    · rfl
  · rfl

/-! ### Sorting -/

section Comparison

variable {F : Comparison τ α} {G : Comparison μ α}

theorem moveLess (h : ∀ x y, Carries ι (F x y) (G x y)) (x : α) (merged ys : List α) :
    Carries ι (RingDeque.moveLess F x merged ys) (RingDeque.moveLess G x merged ys) := by
  induction ys generalizing merged with
  | nil =>
      intro m
      rfl
  | cons y ys ih =>
      intro m
      rw [RingDeque.moveLess, RingDeque.moveLess, h x y m]
      rcases G x y m with ⟨fault | order, m'⟩
      · rfl
      · cases order with
        | lt => rfl
        | eq => rfl
        | gt => exact ih (y :: merged) m'

theorem merge (h : ∀ x y, Carries ι (F x y) (G x y)) (merged xs ys : List α) :
    Carries ι (RingDeque.merge F merged xs ys) (RingDeque.merge G merged xs ys) := by
  induction xs generalizing merged ys with
  | nil =>
      intro m
      rfl
  | cons x xs ih =>
      intro m
      rw [RingDeque.merge, RingDeque.merge, moveLess h x merged ys m]
      rcases RingDeque.moveLess G x merged ys m with ⟨⟨_ | fault, merged', ys'⟩, m'⟩
      · exact ih (x :: merged') ys' m'
      · rfl

theorem sortHalves (h : ∀ x y, Carries ι (F x y) (G x y)) (cuts : Nat) (xs : List α) :
    Carries ι (RingDeque.sortHalves F cuts xs) (RingDeque.sortHalves G cuts xs) := by
  induction cuts generalizing xs with
  | zero =>
      intro m
      rfl
  | succ cuts ih =>
      intro m
      rw [RingDeque.sortHalves, RingDeque.sortHalves]
      by_cases few : xs.length < 2
      · rw [if_pos few, if_pos few]
      · rw [if_neg few, if_neg few]
        dsimp only
        rw [ih (xs.take (xs.length / 2)) m]
        rcases RingDeque.sortHalves G cuts (xs.take (xs.length / 2)) m with ⟨⟨_ | fault, left⟩, m'⟩
        · dsimp only
          rw [ih (xs.drop (xs.length / 2)) m']
          rcases RingDeque.sortHalves G cuts (xs.drop (xs.length / 2)) m' with
            ⟨⟨_ | fault, right⟩, m''⟩
          · exact merge h [] left right m''
          · rfl
        · rfl

theorem onSlots (h : ∀ x y, Carries ι (F x y) (G x y)) (x? y? : Option α) :
    Carries ι (F.onSlots x? y?) (G.onSlots x? y?) := by
  intro m
  cases x? with
  | none => cases y? <;> rfl
  | some x =>
      cases y? with
      | none => rfl
      | some y => exact h x y m

theorem sortSlots (h : ∀ x y, Carries ι (F x y) (G x y)) (start stop : Nat) (slots : Slots α) :
    Carries ι (Deque.sortSlots sortList F start stop slots)
      (Deque.sortSlots sortList G start stop slots) := by
  intro m
  rw [Deque.sortSlots, Deque.sortSlots, sortList, sortHalves (onSlots h)]
  rfl

/-- All ways in which the elements are brought together and taken back. -/
theorem sortElements (h : ∀ x y, Carries ι (F x y) (G x y)) (d : Deque α) :
    Carries ι (d.sortElements sortList F) (d.sortElements sortList G) := by
  intro m
  rw [Deque.sortElements_eq, Deque.sortElements_eq]
  by_cases few : d.length < 2
  · rw [if_pos few, if_pos few]
  rw [if_neg few, if_neg few]
  by_cases straight : (!d.isWrapped) = true
  · rw [if_pos straight, if_pos straight, sortSlots h]
  rw [if_neg straight, if_neg straight]
  by_cases atStart : d.tail = 0
  · rw [if_pos atStart, if_pos atStart, sortSlots h]
  rw [if_neg atStart, if_neg atStart]
  by_cases gap : d.tail + d.length ≤ d.head
  · rw [if_pos gap, if_pos gap, sortSlots h]
  · rw [if_neg gap, if_neg gap, sortList, sortHalves h]
    rfl

theorem sortBy (h : ∀ x y, Carries ι (F x y) (G x y)) (d : Deque α) :
    Carries ι (d.sortBy F) (d.sortBy G) := by
  intro m
  rw [Deque.sortBy, Deque.sortBy, Deque.sortWith_eq, Deque.sortWith_eq, sortElements h d m]
  rcases d.sortElements sortList G m with ⟨⟨_ | fault, d'⟩, m'⟩
  · rfl
  · rfl

end Comparison

end Carries

end RingDeque

import RingDeque.Proofs.Sort

/-!
# Sorting is stable in every layout

Whatever the comparison does, a sort puts the elements of a deque into the slots that they had
(`Rearranged`), also when it fails on the way. A comparison that is a total preorder leaves one
possible result. So where the elements wrap, and how much room there is beside them, cannot be told
from the order that they end in.
-/

namespace RingDeque.Deque

variable {σ : Type u} {α : Type v} {d d' : Deque α} {xs ys : List α}

/-- `d'` has the elements of `d`, perhaps in another order, in the slots in which `d` has them. -/
structure Rearranged (d d' : Deque α) : Prop where
  head_eq : d'.head = d.head
  tail_eq : d'.tail = d.tail
  slotCount_eq : d'.slotCount = d.slotCount
  wellFormed : d'.WellFormed
  perm : d'.toList.Perm d.toList
  free : ∀ p < d'.slotCount, d'.length ≤ Circle.steps d'.head p d'.slotCount → d'.slot p = none

theorem Holds.rearranged (h : d.Holds xs) {slots : Slots α} (size : slots.size = d.slotCount)
    (h' : Holds { d with slots := slots } ys) (perm : ys.Perm xs) :
    Rearranged d { d with slots := slots } where
  head_eq := rfl
  tail_eq := rfl
  slotCount_eq := size
  wellFormed := h'.wellFormed
  perm := by rwa [h.toList_eq, h'.toList_eq]
  free := by
    intro p hp beyond
    rw [h'.length_eq] at beyond
    rw [h'.slot_eq hp, List.getElem?_eq_none beyond]

variable {sorter : Sorter.{u, v} σ} {order : α → α → Ordering}

/-- A total preorder is answered to the end, and leads to the stable sort of the elements. -/
theorem Holds.isStableSort_sortWith (h : d.Holds xs) (sound : sorter.Sound)
    {compare : Comparison σ α} (consistent : compare.Consistent order) (s : σ) :
    (d.sortWith sorter compare s).1.1 = .ok () ∧
      IsStableSort (fun x y => order x y != .gt) xs (d.sortWith sorter compare s).1.2.toList := by
  obtain ⟨way, sorts⟩ := h.sortWith sound
  obtain ⟨fault, sorted, s', slots', answer, yields, -, holds⟩ := sorts compare s
  obtain ⟨finished, stable⟩ := sound.stable_of_yields yields consistent
  dsimp only at finished stable
  subst finished
  rw [answer]
  exact ⟨rfl, holds.toList_eq ▸ stable⟩

/-- If the comparison that comes first fails, nothing has moved. -/
theorem Holds.first_sortWith (h : d.Holds xs) (sound : sorter.Sound) (long : 2 ≤ xs.length) :
    ∃ x ∈ xs, ∃ y ∈ xs, ∀ (compare : Comparison σ α) (s : σ) (fault : Fault) (s' : σ),
      compare x y s = (.error fault, s') →
        d.sortWith sorter compare s = ((.error fault, d), s') := by
  obtain ⟨way, sorts⟩ := h.sortWith sound
  obtain ⟨x, hx, y, hy, first⟩ := sound.first_of_way way long
  refine ⟨x, hx, y, hy, ?_⟩
  intro compare s fault s' failed
  obtain ⟨fault', sorted, s'', slots', answer, yields, size, holds⟩ := sorts compare s
  have unmoved := first compare s fault s' failed _ yields
  simp only [Prod.mk.injEq] at unmoved
  obtain ⟨⟨rfl, rfl⟩, rfl⟩ := unmoved
  rw [answer, holds.ext h rfl size]

/-- In every layout, and with every sound sort of lists: the elements stay in their slots, whatever
the comparison answers and wherever it fails. If it is a total preorder, they are sorted and tied
ones keep their order, so deques with the same elements end in the same order. If the comparison
that comes first fails, it is as if nothing had been called. The sort by halves is sound. -/
theorem sortWith_stable (h : d.WellFormed) (sound : sorter.Sound) :
    (∀ (compare : Comparison σ α) (s : σ), Rearranged d (d.sortWith sorter compare s).1.2) ∧
    (∀ (compare : Comparison σ α) (order : α → α → Ordering), compare.Consistent order → ∀ s,
      (d.sortWith sorter compare s).1.1 = .ok () ∧
      IsStableSort (fun x y => order x y != .gt) d.toList (d.sortWith sorter compare s).1.2.toList ∧
      ∀ (e : Deque α) (s' : σ), e.WellFormed → e.toList = d.toList →
        (e.sortWith sorter compare s').1.2.toList = (d.sortWith sorter compare s).1.2.toList) ∧
    (2 ≤ d.length → ∃ x ∈ d.toList, ∃ y ∈ d.toList,
      ∀ (compare : Comparison σ α) (s : σ) (fault : Fault) (s' : σ),
        compare x y s = (.error fault, s') →
          d.sortWith sorter compare s = ((.error fault, d), s')) ∧
    Sorter.Sound (sortList : Sorter.{u, v} σ) ∧
    ∀ (compare : Comparison σ α) (s : σ), d.sortBy compare s = d.sortWith sortList compare s := by
  refine ⟨?_, ?_, ?_, sound_sortList, fun _ _ => rfl⟩
  · intro compare s
    obtain ⟨way, sorts⟩ := h.holds.sortWith sound
    obtain ⟨fault, sorted, s', slots', answer, yields, size, holds⟩ := sorts compare s
    rw [answer]
    exact h.holds.rearranged size holds (sound.perm_of_yields yields)
  · intro compare order consistent s
    obtain ⟨finished, stable⟩ := h.holds.isStableSort_sortWith sound consistent s
    refine ⟨finished, stable, ?_⟩
    intro e s' he same
    obtain ⟨-, stable'⟩ := he.holds.isStableSort_sortWith sound consistent s'
    rw [same] at stable'
    have total (x y : α) : (order x y != .gt || order y x != .gt) = true := by
      simpa using consistent.total x y
    exact stable'.unique total stable
  · rw [h.holds.length_eq]
    exact h.holds.first_sortWith sound

/-- Pairs that are compared by their first numbers only, around the end of a buffer with room for
all of them between `tail` and `head`. The comparison counts its calls. -/
theorem sortWith_stable_staged :
    let d : Deque (Nat × Nat) :=
      ⟨#[some (2, 3), some (1, 4), none, none, none, none, none, some (2, 1), some (1, 2)], 7, 2⟩
    let counting : Comparison Nat (Nat × Nat) := fun x y calls => (.ok (compare x.1 y.1), calls + 1)
    d.WellFormed ∧ 2 ≤ d.length ∧ Sorter.Sound (sortList : Sorter.{0, 0} Nat) ∧
      counting.Consistent (fun x y => compare x.1 y.1) ∧
      Rearranged d (d.sortWith sortList counting 0).1.2 ∧
      IsStableSort (fun x y => compare x.1 y.1 != .gt) d.toList [(1, 2), (1, 4), (2, 1), (2, 3)] ∧
      ∃ x ∈ d.toList, ∃ y ∈ d.toList, ∀ (fault : Fault) (compare : Comparison Nat (Nat × Nat)),
        compare x y 0 = (.error fault, 1) →
          d.sortWith sortList compare 0 = ((.error fault, d), 1) := by
  intro d counting
  have ordered : d.WellFormed := isWellFormed_iff.1 (by decide)
  have sound : Sorter.Sound (sortList : Sorter.{0, 0} Nat) := sound_sortList
  have consistent : counting.Consistent (fun x y => compare x.1 y.1) := {
    answers := fun _ _ _ => rfl
    total := fun x y => by
      rw [Nat.compare_ne_gt, Nat.compare_ne_gt]
      exact Nat.le_total ..
    trans := fun x y z => by
      simp only [Nat.compare_ne_gt]
      exact Nat.le_trans
    swap := fun x y => (Nat.compare_swap ..).symm }
  obtain ⟨rearranged, stable, first, -⟩ := sortWith_stable ordered sound
  obtain ⟨-, sorted, -⟩ := stable counting _ consistent 0
  have run : (d.sortWith sortList counting 0).1.2.toList = [(1, 2), (1, 4), (2, 1), (2, 3)] := by
    decide +kernel
  rw [run] at sorted
  have long : 2 ≤ d.length := by decide
  obtain ⟨x, hx, y, hy, fails⟩ := first long
  refine ⟨ordered, long, sound, consistent, rearranged counting 0, sorted, x, hx, y, hy, ?_⟩
  intro fault compare failed
  exact fails compare 0 fault 1 failed

end RingDeque.Deque

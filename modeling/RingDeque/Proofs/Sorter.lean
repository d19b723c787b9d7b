import RingDeque.Proofs.SortList

/-!
# What a deque asks of the sort of lists that it uses

A sort is sound if it loses and doubles no element, whatever the comparison answers and wherever it
fails, if a comparison that is a total preorder leads to the stable sort, and if nothing has moved
before the first comparison has answered. No more is asked. In particular nothing is said of the
order in which a comparison that fails leaves the elements, and nothing of what becomes of a
comparison that contradicts itself.

A deque sorts slots or elements, or has nothing to sort. Its layout alone decides which `Way` it
goes, and soundness carries over from slots to the elements in them.
-/

namespace RingDeque

variable {σ : Type u} {α : Type v} {compare : Comparison σ α} {order : α → α → Ordering}
variable {xs ys : List α} {s : σ}

/-- A comparison that is a total preorder and gives the opposite answer about exchanged elements. -/
structure Comparison.Consistent (compare : Comparison σ α) (order : α → α → Ordering) : Prop
    extends compare.Lawful order where
  swap : ∀ x y, order y x = (order x y).swap

/-- What a sort of lists keeps to. -/
structure Sorter.Sound (sorter : Sorter.{u, v} σ) : Prop where
  /-- The elements stay the same, also if the comparison fails. -/
  perm : ∀ {β : Type v} (compare : Comparison σ β) (xs : List β) (s : σ),
    (sorter compare xs s).1.2.Perm xs
  /-- A total preorder leads to the stable sort. -/
  stable : ∀ {β : Type v} {compare : Comparison σ β} {order : β → β → Ordering},
    compare.Consistent order → ∀ (xs : List β) (s : σ),
      (sorter compare xs s).1.1 = none ∧
        IsStableSort (fun x y => order x y != .gt) xs (sorter compare xs s).1.2
  /-- The first two elements that are compared depend on the list alone, and if that comparison
  fails, the list is as it was. -/
  first : ∀ {β : Type v} (xs : List β), 2 ≤ xs.length → ∃ x ∈ xs, ∃ y ∈ xs,
    ∀ (compare : Comparison σ β) (s : σ) (fault : Fault) (s' : σ),
      compare x y s = (.error fault, s') → sorter compare xs s = ((some fault, xs), s')

/-! ### The sort by halves -/

/-- The leftmost part with two elements is compared first. -/
theorem sortHalves_first (cuts : Nat) (xs : List α) (long : 2 ≤ xs.length)
    (enough : xs.length ≤ cuts + 1) :
    ∃ x ∈ xs, ∃ y ∈ xs, ∀ (compare : Comparison σ α) (s : σ) (fault : Fault) (s' : σ),
      compare x y s = (.error fault, s') →
        sortHalves compare cuts xs s = ((some fault, xs), s') := by
  induction cuts generalizing xs with
  | zero => omega
  | succ cuts ih =>
      have halves := List.take_append_drop (xs.length / 2) xs
      have left : (xs.take (xs.length / 2)).length = xs.length / 2 :=
        List.length_take_of_le (Nat.div_le_self ..)
      have right : (xs.drop (xs.length / 2)).length = xs.length - xs.length / 2 := List.length_drop
      have alone {ys : List α} (compare : Comparison σ α) (s : σ) (short : ys.length < 2) :
          sortHalves compare cuts ys s = ((none, ys), s) := by
        cases cuts with
        | zero => rfl
        | succ cuts => rw [sortHalves, if_pos short]
      by_cases inLeft : 2 ≤ xs.length / 2
      · obtain ⟨x, hx, y, hy, fails⟩ := ih (xs.take (xs.length / 2)) (by omega) (by omega)
        refine ⟨x, List.mem_of_mem_take hx, y, List.mem_of_mem_take hy, ?_⟩
        intro compare s fault s' failed
        rw [sortHalves, if_neg (by omega)]
        simp only [fails compare s fault s' failed, halves]
      by_cases inRight : 2 ≤ xs.length - xs.length / 2
      · obtain ⟨x, hx, y, hy, fails⟩ := ih (xs.drop (xs.length / 2)) (by omega) (by omega)
        refine ⟨x, List.mem_of_mem_drop hx, y, List.mem_of_mem_drop hy, ?_⟩
        intro compare s fault s' failed
        rw [sortHalves, if_neg (by omega)]
        simp only [alone compare s (show (xs.take (xs.length / 2)).length < 2 by omega),
          fails compare s fault s' failed, halves]
      · obtain ⟨x, y, rfl⟩ : ∃ x y, xs = [x, y] := by
          obtain ⟨x, xs, rfl⟩ := List.exists_cons_of_length_pos (show 0 < xs.length by omega)
          obtain ⟨y, rfl⟩ := List.length_eq_one_iff.1 (show xs.length = 1 by grind)
          exact ⟨x, y, rfl⟩
        refine ⟨x, by simp, y, by simp, ?_⟩
        intro compare s fault s' failed
        rw [sortHalves, if_neg (by simp)]
        have one (z : α) := alone compare s (show [z].length < 2 by simp)
        simp [one, merge, moveLess, failed]

theorem sound_sortList : Sorter.Sound (sortList : Sorter.{u, v} σ) where
  perm := sortList_perm
  stable consistent xs s := by
    have lawful := consistent.toLawful
    have trans := lawful.trans_allows s
    have total := lawful.total_allows s
    rw [lawful.sortList]
    rw [lawful.allows_eq] at trans total ⊢
    exact ⟨rfl, isStableSort_mergeSort trans total xs⟩
  first xs long := sortHalves_first xs.length xs long (Nat.le_succ _)

/-! ### Slots in place of elements -/

/-- The order of slots by what they hold. -/
def orderOfSlots (order : α → α → Ordering) : Option α → Option α → Ordering
  | some x, some y => order x y
  | some _, none => .lt
  | none, some _ => .gt
  | none, none => .eq

theorem Comparison.Consistent.onSlots (h : compare.Consistent order) :
    compare.onSlots.Consistent (orderOfSlots order) where
  answers := by
    rintro (_ | x) (_ | y) s
    · rfl
    · rfl
    · rfl
    · exact h.answers x y s
  total := by
    rintro (_ | x) (_ | y)
    · simp [orderOfSlots]
    · simp [orderOfSlots]
    · simp [orderOfSlots]
    · exact h.total x y
  trans := by
    rintro (_ | x) (_ | y) (_ | z) front back
    · exact front
    · exact absurd rfl back
    · exact absurd rfl front
    · exact absurd rfl front
    · nofun
    · exact absurd rfl back
    · nofun
    · exact h.trans x y z front back
  swap := by
    rintro (_ | x) (_ | y)
    · rfl
    · rfl
    · rfl
    · exact h.swap x y

/-- Elements that were sorted in their slots are sorted. -/
theorem IsStableSort.of_map_some
    (h : IsStableSort (fun x? y? => orderOfSlots order x? y? != .gt) (xs.map some) (ys.map some)) :
    IsStableSort (fun x y => order x y != .gt) xs ys where
  perm := by simpa using h.perm.filterMap id
  sorted := List.pairwise_map.1 h.sorted
  stable x := by
    have same := h.stable (some x)
    rw [List.filter_map, List.filter_map] at same
    exact (List.map_inj_right fun _ _ => Option.some.inj).1 same

/-- Slots that held elements hold the same elements when they are in another order. -/
theorem exists_map_some {zs : List (Option α)} (perm : zs.Perm (xs.map some)) :
    ∃ ys : List α, zs = ys.map some := by
  have occupied : ∀ z? ∈ zs, z?.isSome := by
    intro z? mem
    obtain ⟨x, -, rfl⟩ := List.mem_map.1 (perm.mem_iff.1 mem)
    rfl
  clear perm
  induction zs with
  | nil => exact ⟨[], rfl⟩
  | cons z? zs ih =>
      obtain ⟨ys, rfl⟩ := ih fun z? mem => occupied z? (List.mem_cons_of_mem _ mem)
      obtain ⟨x, rfl⟩ := Option.isSome_iff_exists.1 (occupied z? List.mem_cons_self)
      exact ⟨x :: ys, rfl⟩

namespace Sorter

variable {sorter : Sorter.{u, v} σ} {outcome : (Option Fault × List α) × σ}

/-- The ways in which a deque comes by its elements in order. -/
inductive Way where
  /-- There is nothing to sort. -/
  | short
  /-- It sorts slots that hold the elements. -/
  | slots
  /-- It sorts the elements outside the buffer. -/
  | elements

/-- What each of the ways leads to for the elements `xs`. -/
inductive Yields (sorter : Sorter.{u, v} σ) (compare : Comparison σ α) (xs : List α) (s : σ) :
    Way → (Option Fault × List α) × σ → Prop
  | short : xs.length < 2 → Yields sorter compare xs s .short ((none, xs), s)
  | slots {fault : Option Fault} {ys : List α} {s' : σ} :
      sorter compare.onSlots (xs.map some) s = ((fault, ys.map some), s') →
        Yields sorter compare xs s .slots ((fault, ys), s')
  | elements : Yields sorter compare xs s .elements (sorter compare xs s)

variable {way : Way}

namespace Sound

variable (sound : sorter.Sound)
include sound

theorem perm_of_yields (h : Yields sorter compare xs s way outcome) : outcome.1.2.Perm xs := by
  cases h with
  | short => exact .refl _
  | slots sorted =>
      have perm := sound.perm compare.onSlots (xs.map some) s
      rw [sorted] at perm
      simpa using perm.filterMap id
  | elements => exact sound.perm compare xs s

theorem stable_of_yields (h : Yields sorter compare xs s way outcome)
    (consistent : compare.Consistent order) :
    outcome.1.1 = none ∧ IsStableSort (fun x y => order x y != .gt) xs outcome.1.2 := by
  cases h with
  | short short => exact ⟨rfl, isStableSort_of_length_lt short⟩
  | slots sorted =>
      have stable := sound.stable consistent.onSlots (xs.map some) s
      rw [sorted] at stable
      exact ⟨stable.1, stable.2.of_map_some⟩
  | elements => exact sound.stable consistent xs s

/-- Each way has a comparison that comes first. -/
theorem first_of_way (way : Way) (long : 2 ≤ xs.length) :
    ∃ x ∈ xs, ∃ y ∈ xs, ∀ (compare : Comparison σ α) (s : σ) (fault : Fault) (s' : σ),
      compare x y s = (.error fault, s') →
        ∀ outcome, Yields sorter compare xs s way outcome → outcome = ((some fault, xs), s') := by
  cases way with
  | short =>
      refine ⟨xs[0], List.getElem_mem _, xs[1], List.getElem_mem _, ?_⟩
      intro compare s fault s' failed outcome yields
      cases yields with
      | short short => exact absurd long (Nat.not_le_of_lt short)
  | slots =>
      obtain ⟨x?, inside, y?, inside', fails⟩ :=
        sound.first (xs.map some) (by rwa [List.length_map])
      obtain ⟨x, hx, rfl⟩ := List.mem_map.1 inside
      obtain ⟨y, hy, rfl⟩ := List.mem_map.1 inside'
      refine ⟨x, hx, y, hy, ?_⟩
      intro compare s fault s' failed outcome yields
      cases yields with
      | slots sorted =>
          rw [fails compare.onSlots s fault s' failed] at sorted
          simp only [Prod.mk.injEq] at sorted
          obtain ⟨⟨rfl, same⟩, rfl⟩ := sorted
          rw [(List.map_inj_right fun _ _ => Option.some.inj).1 same]
  | elements =>
      obtain ⟨x, hx, y, hy, fails⟩ := sound.first xs long
      refine ⟨x, hx, y, hy, ?_⟩
      intro compare s fault s' failed outcome yields
      cases yields with
      | elements => exact fails compare s fault s' failed

end Sound

/-- The sort by halves answers in the same way however the deque comes to it. -/
theorem Yields.eq_sortList (h : Yields sortList compare xs s way outcome) :
    outcome = sortList compare xs s := by
  cases h with
  | short short => exact (sortList_of_length_lt short s).symm
  | slots sorted =>
      rw [sortList_onSlots] at sorted
      generalize sortList compare xs s = outcome at sorted ⊢
      obtain ⟨⟨fault, ys⟩, s'⟩ := outcome
      simp only [Prod.mk.injEq] at sorted
      obtain ⟨⟨rfl, same⟩, rfl⟩ := sorted
      rw [(List.map_inj_right fun _ _ => Option.some.inj).1 same]
  | elements => rfl

end Sorter

end RingDeque

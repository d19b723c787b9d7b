import RingDeque.Proofs.Positional
import RingDeque.Proofs.Sorter

/-!
# Sorting in place

In each of the four layouts the sort reads the elements in order, and the sorted ones take the same
slots. Where the elements are first brought together, `stage` and `unstage` are described by what
every slot of the buffer holds in between. All of this goes for every sound sort of lists; it is
only asked to return what it was given.
-/

namespace RingDeque.Deque

variable {σ : Type u} {α : Type v} {d : Deque α} {xs ys : List α} {m start stop : Nat}
variable {sorter : Sorter.{u, v} σ}

/-- The contents of the slots, each by its distance from the first element, make up a deque. -/
theorem holds_of_at? {slots : Slots α} {head tail : Nat} (size : slots.size = m)
    (head_lt : head < m) (length_lt : xs.length < m)
    (tail_eq : tail = Circle.forward head xs.length m)
    (seen : ∀ p < m, slots.at? p = xs[Circle.steps head p m]?) :
    (Deque.mk slots head tail).Holds xs :=
  holds_mk size head_lt length_lt tail_eq fun k hk => by
    rw [Slots.view_def size, seen _ (Circle.forward_lt head_lt (Nat.le_of_lt hk)),
      Circle.steps_forward head_lt hk]

/-- Reading slots that are all occupied. -/
theorem toList_extract {slots : Slots α} (length : xs.length = stop - start)
    (hs : start ≤ stop) (hm : stop ≤ slots.size)
    (seen : ∀ k < xs.length, slots.at? (start + k) = xs[k]?) :
    (slots.extract start stop).toList = xs.map some := by
  apply List.ext_getElem
  · simp only [Array.length_toList, Array.size_extract, List.length_map]
    omega
  · intro k hk hk'
    rw [List.length_map] at hk'
    have here := seen k hk'
    rw [Slots.at?_eq_getElem (by omega), List.getElem?_eq_getElem hk'] at here
    simpa using here

/-- Slots next to one another are sorted like the elements in them, and the others are left
alone. -/
theorem sortSlots_eq {slots : Slots α} (sound : sorter.Sound) (xs : List α) (start stop : Nat)
    (compare : Comparison σ α) (s : σ) (size : slots.size = m)
    (length : xs.length = stop - start) (hs : start ≤ stop) (hm : stop ≤ m)
    (seen : ∀ k < xs.length, slots.at? (start + k) = xs[k]?) :
    ∃ (fault : Option Fault) (sorted : List α) (s' : σ) (slots' : Slots α),
      sorter compare.onSlots (xs.map some) s = ((fault, sorted.map some), s') ∧
      sortSlots sorter compare start stop slots s = ((fault, slots'), s') ∧ slots'.size = m ∧
      ∀ p, slots'.at? p =
        if start ≤ p ∧ p < stop then sorted[p - start]? else slots.at? p := by
  have perm := sound.perm compare.onSlots (xs.map some) s
  rw [sortSlots, toList_extract length hs (by omega) seen]
  generalize sorter compare.onSlots (xs.map some) s = outcome at perm ⊢
  obtain ⟨⟨fault, contents⟩, s'⟩ := outcome
  obtain ⟨sorted, rfl⟩ := exists_map_some perm
  have same : sorted.length = xs.length := by simpa using perm.length_eq
  refine ⟨fault, sorted, s', _, rfl, rfl, ?_, ?_⟩
  · simp only [Array.size_append, Array.size_extract, List.size_toArray, List.length_map]
    omega
  · intro p
    simp only [Slots.at?, Array.getElem?_append, Array.size_append, Array.size_extract,
      List.size_toArray, List.length_map, List.getElem?_toArray, List.getElem?_map,
      Array.getElem?_extract]
    grind

theorem Holds.at?_eq (h : d.Holds xs) {p : Nat} (hp : p < d.slotCount) :
    d.slots.at? p = xs[Circle.steps d.head p d.slotCount]? :=
  h.slot_eq hp

theorem Holds.stage (h : d.Holds xs) (hw : d.slotCount ≤ d.head + xs.length)
    (hg : d.tail + xs.length ≤ d.head) :
    d.stage.size = d.slotCount ∧ ∀ p < d.slotCount, d.stage.at? p =
      if d.tail ≤ p ∧ p < d.tail + xs.length then xs[p - d.tail]? else none := by
  have head := h.head_lt
  have tail : d.tail = d.head + xs.length - d.slotCount := by
    rw [h.tail_eq, Circle.forward_eq, if_neg (by omega)]
  have size : (d.slots.moveRun 0 (d.tail + (d.slotCount - d.head)) d.tail).size = d.slotCount :=
    Slots.size_moveRun ..
  have trailing {p} (hp : p < d.slotCount) :=
    Slots.at?_moveRun 0 (d.tail + (d.slotCount - d.head)) d.tail
    (by rw [size_slots]; omega) (by rw [size_slots]; omega)
    (fun j hj hj' hj'' => by
      rw [h.at?_eq (by omega), Circle.steps_eq, if_neg (by omega),
        List.getElem?_eq_none (by omega)])
        hp
  have leading {p} (hp : p < d.slotCount) := Slots.at?_moveRun d.head d.tail (d.slotCount - d.head)
    (by rw [size]; omega) (by rw [size]; omega)
    (fun j hj hj' hj'' => by
      rw [trailing (by omega), if_neg (by omega), if_neg (by omega), h.at?_eq (by omega),
        Circle.steps_eq, if_neg (by omega), List.getElem?_eq_none (by omega)]) (size.symm ▸ hp)
  refine ⟨d.size_stage, ?_⟩
  intro p hp
  rw [Deque.stage_eq, leading hp]
  split
  · next front =>
      rw [trailing (by omega), if_neg (by omega), if_neg (by omega), h.at?_eq (by omega),
        Circle.steps_eq, if_pos (by omega), if_pos (by omega)]
      congr 1
      omega
  · split
    · rw [if_neg (by omega)]
    · rw [trailing hp]
      split
      · rw [h.at?_eq (by omega), Circle.steps_eq, if_neg (by omega), if_pos (by omega)]
        congr 1
        omega
      · split
        · rw [if_neg (by omega)]
        · rw [h.at?_eq hp, Circle.steps_eq, if_neg (by omega), if_neg (by omega),
            List.getElem?_eq_none (by omega)]

theorem Holds.unstage (h : d.Holds xs) (hw : d.slotCount ≤ d.head + xs.length)
    (hg : d.tail + xs.length ≤ d.head) (hl : ys.length = xs.length) {slots : Slots α}
    (size : slots.size = d.slotCount)
    (seen : ∀ p < d.slotCount, slots.at? p =
      if d.tail ≤ p ∧ p < d.tail + xs.length then ys[p - d.tail]? else none) :
    Holds ⟨d.unstage slots, d.head, d.tail⟩ ys := by
  have head := h.head_lt
  have tail : d.tail = d.head + xs.length - d.slotCount := by
    rw [h.tail_eq, Circle.forward_eq, if_neg (by omega)]
  have size' : (slots.moveRun d.tail d.head (d.slotCount - d.head)).size = d.slotCount :=
    (Slots.size_moveRun ..).trans size
  have leading {p} (hp : p < d.slotCount) := Slots.at?_moveRun d.tail d.head (d.slotCount - d.head)
    (by rw [size]; omega) (by rw [size]; omega)
    (fun j hj hj' hj'' => by rw [seen j (by omega), if_neg (by omega)]) (size.symm ▸ hp)
  have trailing {p} (hp : p < d.slotCount) :=
    Slots.at?_moveRun (d.tail + (d.slotCount - d.head)) 0 d.tail
    (by rw [size']; omega) (by rw [size']; omega)
    (fun j hj hj' hj'' => by
      rw [leading (by omega), if_neg (by omega), if_neg (by omega), seen j (by omega),
        if_neg (by omega)]) (size'.symm ▸ hp)
  refine holds_of_at? ((d.size_unstage slots).trans size) head (hl ▸ h.length_lt)
    (hl ▸ h.tail_eq) ?_
  intro p hp
  rw [Deque.unstage_eq, trailing hp, Circle.steps_eq]
  split
  · next front =>
      rw [leading (by omega), if_neg (by omega), if_neg (by omega), seen _ (by omega),
        if_pos (by omega), if_neg (by omega)]
      congr 1
      omega
  · split
    · next between => rw [if_neg (by omega), List.getElem?_eq_none (by omega)]
    · rw [leading hp]
      split
      · rw [seen _ (by omega), if_pos (by omega), if_pos (by omega)]
        congr 1
        omega
      · split
        · rw [if_neg (by omega), List.getElem?_eq_none (by omega)]
        · rw [seen p hp, if_neg (by omega), if_neg (by omega), List.getElem?_eq_none (by omega)]

/-- Elements that stand next to one another are sorted where they stand. -/
theorem Holds.sortSlots (h : d.Holds xs) (sound : sorter.Sound) (stop : Nat)
    (hs : d.head + xs.length = stop) (hm : stop ≤ d.slotCount) (compare : Comparison σ α) (s : σ) :
    ∃ fault sorted s' slots',
      sortSlots sorter compare d.head stop d.slots s = ((fault, slots'), s') ∧
      sorter.Yields compare xs s .slots ((fault, sorted), s') ∧ slots'.size = d.slotCount ∧
      Holds ⟨slots', d.head, d.tail⟩ sorted := by
  have length := h.length_lt
  obtain ⟨fault, sorted, s', slots', answer, hs, size, seen⟩ := sortSlots_eq sound xs d.head stop
    compare s (size_slots d) (by omega) (by omega) hm
    (fun k hk => by
      rw [h.at?_eq (by omega), Circle.steps_eq, if_pos (by omega), Nat.add_sub_cancel_left])
  have yields : sorter.Yields compare xs s .slots ((fault, sorted), s') := .slots answer
  have same : sorted.length = xs.length := (sound.perm_of_yields yields).length_eq
  refine ⟨fault, sorted, s', slots', hs, yields, size,
    holds_of_at? size h.head_lt (by omega) (same ▸ h.tail_eq) ?_⟩
  intro p hp
  rw [seen p, h.at?_eq hp]
  simp only [Circle.steps_eq]
  grind

/-- Elements that were brought together are sorted in the gap, and go back. -/
theorem Holds.sortStaged (h : d.Holds xs) (sound : sorter.Sound)
    (hw : d.slotCount ≤ d.head + xs.length) (hg : d.tail + xs.length ≤ d.head)
    (compare : Comparison σ α) (s : σ) :
    ∃ fault sorted s' slots',
      Deque.sortSlots sorter compare d.tail (d.tail + xs.length) d.stage s = ((fault, slots'), s') ∧
      sorter.Yields compare xs s .slots ((fault, sorted), s') ∧
      (d.unstage slots').size = d.slotCount ∧ Holds ⟨d.unstage slots', d.head, d.tail⟩ sorted := by
  have head := h.head_lt
  obtain ⟨size, staged⟩ := h.stage hw hg
  obtain ⟨fault, sorted, s', slots', answer, hs, size', seen⟩ := sortSlots_eq sound xs
    d.tail (d.tail + xs.length) compare s size (by omega) (by omega) (by omega)
    (fun k hk => by rw [staged _ (by omega), if_pos (by omega), Nat.add_sub_cancel_left])
  have yields : sorter.Yields compare xs s .slots ((fault, sorted), s') := .slots answer
  have same : sorted.length = xs.length := (sound.perm_of_yields yields).length_eq
  refine ⟨fault, sorted, s', slots', hs, yields, ?_, h.unstage hw hg same size' ?_⟩
  · exact (d.size_unstage slots').trans size'
  · intro p hp
    rw [seen p, staged p hp]
    split <;> rfl

/-- Elements that were taken out of the buffer are put back from the first slot on. -/
theorem Holds.refill (h : d.Holds xs) (same : ys.length = xs.length) :
    ((d.slots.clear d.head xs.length).fill d.head ys).size = d.slotCount ∧
      Holds ⟨(d.slots.clear d.head xs.length).fill d.head ys, d.head, d.tail⟩ ys := by
  have head := h.head_lt
  have length := h.length_lt
  have size : (d.slots.clear d.head xs.length).size = d.slotCount := Slots.size_clear ..
  have size' := (Slots.size_fill (d.slots.clear d.head xs.length) d.head ys).trans size
  refine ⟨size', holds_mk size' head (by rw [same]; exact length) (same ▸ h.tail_eq) ?_⟩
  intro k hk
  have filled := Slots.view_fill 0 ys size head (by rw [same]; omega) hk
  have cleared := Slots.view_clear 0 xs.length (size_slots d) head (by omega) hk
  rw [Circle.forward_zero head] at filled cleared
  rw [filled, cleared, h.view_eq k hk]
  grind

/-- The elements take the slots that they had, in the order in which the sort of lists left them.
The layout alone decides how it is asked. -/
theorem Holds.sortElements (h : d.Holds xs) (sound : sorter.Sound) :
    ∃ way, ∀ (compare : Comparison σ α) (s : σ), ∃ fault sorted s' slots',
      d.sortElements sorter compare s = ((fault, { d with slots := slots' }), s') ∧
      sorter.Yields compare xs s way ((fault, sorted), s') ∧ slots'.size = d.slotCount ∧
      Holds { d with slots := slots' } sorted := by
  have head := h.head_lt
  have length := h.length_lt
  have wrapped := h.isWrapped_iff
  have tail := h.tail_eq
  by_cases short : xs.length < 2
  · refine ⟨.short, fun compare s => ⟨none, xs, s, d.slots, ?_, .short short, rfl, h⟩⟩
    rw [Deque.sortElements_eq, h.length_eq, if_pos short]
  by_cases wraps : d.isWrapped = true
  · have around := wrapped.1 wraps
    rw [Circle.forward_eq, if_neg (by omega)] at tail
    by_cases reached : d.tail = 0
    · refine ⟨.slots, fun compare s => ?_⟩
      obtain ⟨fault, sorted, s', slots', hs, rest⟩ :=
        h.sortSlots sound d.slotCount (by omega) (Nat.le_refl _) compare s
      refine ⟨fault, sorted, s', slots', ?_, rest⟩
      rw [Deque.sortElements_eq, h.length_eq, if_neg short, if_neg (by simpa using wraps),
        if_pos reached, hs]
    by_cases gap : d.tail + xs.length ≤ d.head
    · refine ⟨.slots, fun compare s => ?_⟩
      obtain ⟨fault, sorted, s', slots', hs, rest⟩ := h.sortStaged sound around gap compare s
      refine ⟨fault, sorted, s', d.unstage slots', ?_, rest⟩
      rw [Deque.sortElements_eq, h.length_eq, if_neg short, if_neg (by simpa using wraps),
        if_neg reached, if_pos gap, hs]
    · refine ⟨.elements, fun compare s => ?_⟩
      have yields : sorter.Yields compare xs s .elements (sorter compare xs s) := .elements
      have same := (sound.perm_of_yields yields).length_eq
      rcases run : sorter compare xs s with ⟨⟨fault, sorted⟩, s'⟩
      rw [run] at yields same
      refine ⟨fault, sorted, s', _, ?_, yields, h.refill same⟩
      rw [Deque.sortElements_eq, h.length_eq, h.toList_eq, if_neg short,
        if_neg (by simpa using wraps),
        if_neg reached, if_neg gap, run]
  · have within := mt wrapped.2 wraps
    rw [Circle.forward_eq, if_pos (by omega)] at tail
    refine ⟨.slots, fun compare s => ?_⟩
    obtain ⟨fault, sorted, s', slots', hs, rest⟩ :=
      h.sortSlots sound d.tail tail.symm (by omega) compare s
    refine ⟨fault, sorted, s', slots', ?_, rest⟩
    rw [Deque.sortElements_eq, h.length_eq, if_neg short, if_pos (by simpa using wraps), hs]

/-- The answer of a sort, and the deque that it leaves. -/
theorem Holds.sortWith (h : d.Holds xs) (sound : sorter.Sound) :
    ∃ way, ∀ (compare : Comparison σ α) (s : σ), ∃ fault sorted s' slots',
      d.sortWith sorter compare s =
        ((match fault with
          | none => .ok ()
          | some fault => .error fault, { d with slots := slots' }), s') ∧
      sorter.Yields compare xs s way ((fault, sorted), s') ∧ slots'.size = d.slotCount ∧
      Holds { d with slots := slots' } sorted := by
  obtain ⟨way, sorts⟩ := h.sortElements sound
  refine ⟨way, fun compare s => ?_⟩
  obtain ⟨fault, sorted, s', slots', answer, rest⟩ := sorts compare s
  rw [Deque.sortWith_eq, answer]
  cases fault with
  | none => exact ⟨none, sorted, s', slots', rfl, rest⟩
  | some fault => exact ⟨some fault, sorted, s', slots', rfl, rest⟩

/-- With the sort by halves the deque holds what a list of its elements would become. -/
theorem Holds.sortBy (h : d.Holds xs) (compare : Comparison σ α) (s : σ) :
    ∃ d', d.sortBy compare s =
        ((match (sortList compare xs s).1.1 with
          | none => .ok ()
          | some fault => .error fault, d'), (sortList compare xs s).2) ∧
      d'.Holds (sortList compare xs s).1.2 := by
  obtain ⟨way, sorts⟩ := h.sortWith sound_sortList
  obtain ⟨fault, sorted, s', slots', answer, yields, -, holds⟩ := sorts compare s
  rw [← yields.eq_sortList]
  exact ⟨_, answer, holds⟩

end RingDeque.Deque

import RingDeque.Proofs.Circle
import RingDeque.Slots

/-!
# What a buffer looks like from one of its slots

`view slots h k` is what the slot `k` steps behind `h` holds. Every operation on slots is described
by the view that it leaves, so that no later proof sees where the buffer ends.
-/

namespace RingDeque.Slots

variable {α : Type u} {slots : Slots α} {m h i j k s : Nat}

/-- What the slot `k` steps behind `h` holds. -/
def view (slots : Slots α) (h k : Nat) : Option α :=
  slots.at? (Circle.forward h k slots.size)

theorem view_def (size : slots.size = m) (h k : Nat) :
    slots.view h k = slots.at? (Circle.forward h k m) := by
  rw [view, size]

theorem view_zero (hk : k < slots.size) : slots.view 0 k = slots.at? k := by
  rw [view, Circle.zero_forward hk]

theorem view_next (size : slots.size = m) (hh : h < m) (hk : k < m) :
    slots.view (Circle.next h m) k = slots.view h (k + 1) := by
  rw [view_def size, view_def size, Circle.forward_next hh hk]

theorem view_prev_succ (size : slots.size = m) (hh : h < m) (hk : k < m) :
    slots.view (Circle.prev h m) (k + 1) = slots.view h k := by
  rw [view_def size, view_def size, Circle.forward_prev_succ hh hk]

/-- Seen from `i` slots earlier, the last `i` slots come first. -/
theorem view_backward (size : slots.size = m) (hh : h < m) (hi : i ≤ m) (hk : k < m) :
    slots.view (Circle.backward h i m) k =
      if k < i then slots.view h (m - i + k) else slots.view h (k - i) := by
  rw [view_def size, view_def size, view_def size]
  split
  · next before => rw [Circle.forward_backward_of_lt hh hi before]
  · next behind =>
      rw [← Circle.forward_backward_add hh (show i + (k - i) ≤ m by omega),
        Nat.add_sub_cancel' (by omega)]

/-- Once around the circle is the slot itself. -/
theorem view_size (size : slots.size = m) (hh : h < m) : slots.view h m = slots.view h 0 := by
  rw [view_def size, view_def size, Circle.forward_size, Circle.forward_zero hh]

theorem at?_eq_getElem (hk : k < slots.size) : slots.at? k = slots[k] := by
  simp [at?, hk]

theorem put_put (slots : Slots α) (i : Nat) (x y : Option α) :
    (slots.put i x).put i y = slots.put i y := by
  simp [put]

/-- An empty slot that is emptied again. -/
theorem put_none (hi : slots.at? i = none) : slots.put i none = slots := by
  apply Array.ext (size_put ..)
  intro p hp hp'
  have read := at?_put slots i p none
  rw [at?_eq_getElem hp, at?_eq_getElem hp'] at read
  rw [read]
  split
  · next here => rw [← at?_eq_getElem hp', ← here.1, hi]
  · rfl

theorem at?_swap (hi : i < slots.size) (hj : j < slots.size) (hk : k < slots.size) :
    (slots.swap i j).at? k =
      if k = i then slots.at? j else if k = j then slots.at? i else slots.at? k := by
  rw [at?_eq_getElem (by rwa [size_swap]), at?_eq_getElem hi, at?_eq_getElem hj,
    at?_eq_getElem hk]
  simp only [swap, Array.getElem_swapIfInBounds, hi, hj, and_true]
  rfl

theorem view_put (size : slots.size = m) (hh : h < m) (hi : i < m) (hk : k < m)
    (content : Option α) :
    (slots.put (Circle.forward h i m) content).view h k =
      if k = i then content else slots.view h k := by
  subst size
  have inside := Circle.forward_lt hh (Nat.le_of_lt hi)
  simp only [view, at?_put, size_put, Circle.forward_inj hi hk, inside, and_true, eq_comm]

theorem view_swap (size : slots.size = m) (hh : h < m) (hi : i < m) (hj : j < m) (hk : k < m) :
    (slots.swap (Circle.forward h i m) (Circle.forward h j m)).view h k =
      if k = i then slots.view h j else if k = j then slots.view h i else slots.view h k := by
  subst size
  have inside {k} (hk : k < slots.size) : Circle.forward h k slots.size < slots.size :=
    Circle.forward_lt hh (Nat.le_of_lt hk)
  simp only [view, size_swap, at?_swap (inside hi) (inside hj) (inside hk),
    Circle.forward_inj hk hi, Circle.forward_inj hk hj]

theorem view_clear (s length : Nat) (size : slots.size = m) (hh : h < m) (hs : s + length ≤ m)
    (hk : k < m) :
    (slots.clear (Circle.forward h s m) length).view h k =
      if s ≤ k ∧ k < s + length then none else slots.view h k := by
  induction length generalizing slots s with
  | zero =>
      rw [if_neg (by omega)]
      rfl
  | succ n ih =>
      rw [clear, size, Circle.next_forward hh (by omega),
        ih _ ((size_put ..).trans size) (by omega),
        view_put size hh (by omega) hk]
      grind

theorem view_fill (s : Nat) (xs : List α) (size : slots.size = m) (hh : h < m)
    (hs : s + xs.length ≤ m) (hk : k < m) :
    (slots.fill (Circle.forward h s m) xs).view h k =
      if s ≤ k ∧ k < s + xs.length then xs[k - s]? else slots.view h k := by
  induction xs generalizing slots s with
  | nil =>
      rw [if_neg (by simp only [List.length_nil]; omega)]
      rfl
  | cons x xs ih =>
      rw [List.length_cons] at hs
      rw [fill_cons, size, Circle.next_forward hh (by omega),
        ih _ ((size_put ..).trans size) (by omega),
        view_put size hh (by omega) hk]
      grind

end RingDeque.Slots

import RingDeque.Circle

/-!
# Walks on a circle

A slot is named by its distance from a base: `forward h k m` is the slot that lies `k` steps behind
`h`. Distances below `m` name different slots and reach every slot, so a statement about all slots
is a statement about all distances. The lemmas say how the other walks look in these coordinates,
also when the base is moved.
-/

namespace RingDeque.Circle

variable {h i j k m p : Nat}

/-- The coordinates behind the comparison are a remainder. -/
theorem forward_eq_mod (hh : h < m) (hk : k ≤ m) : forward h k m = (h + k) % m := by
  simp only [forward_eq]
  split
  · rw [Nat.mod_eq_of_lt (by omega)]
  · rw [Nat.mod_eq_sub_mod (by omega), Nat.mod_eq_of_lt (by omega)]

theorem steps_eq_mod (hp : p < m) : steps h p m = (p + m - h) % m := by
  simp only [steps_eq]
  split
  · rw [Nat.mod_eq_sub_mod (by omega), Nat.mod_eq_of_lt (by omega)]
    omega
  · rw [Nat.mod_eq_of_lt (by omega)]

theorem backward_eq_mod (hh : h < m) (hk : k ≤ m) : backward h k m = (h + m - k) % m := by
  simp only [backward_eq]
  split
  · rw [Nat.mod_eq_sub_mod (by omega), Nat.mod_eq_of_lt (by omega)]
    omega
  · rw [Nat.mod_eq_of_lt (by omega)]

theorem forward_inj (hi : i < m) (hj : j < m) :
    forward h i m = forward h j m ↔ i = j := by
  simp only [forward_eq]
  split <;> split <;> omega

/-- Every slot has a coordinate. -/
theorem exists_forward (hh : h < m) (hp : p < m) : ∃ k < m, p = forward h k m :=
  ⟨steps h p m, steps_lt hh hp, (forward_steps hh hp).symm⟩

@[simp] theorem zero_forward (hk : k < m) : forward 0 k m = k := by
  simp [forward_eq, hk]

@[simp] theorem forward_size (h m : Nat) : forward h m m = h := by
  simp only [forward_eq]
  split <;> omega

theorem forward_forward (hh : h < m) (hk : i + k ≤ m) :
    forward (forward h i m) k m = forward h (i + k) m := by
  simp only [forward_eq]
  split <;> split <;> split <;> omega

/-- Up to the end of the buffer, slots that are next to one another have coordinates that are. -/
theorem forward_add (inside : forward h i m + k < m) :
    forward h (i + k) m = forward h i m + k := by
  simp only [forward_eq] at *
  grind

/-- How many slots are left up to the end of the buffer. -/
theorem sub_forward (hh : h < m) (hk : k ≤ m - h) :
    m - forward h k m = if k < m - h then m - h - k else m := by
  simp only [forward_eq]
  grind

theorem forward_succ_sub (hi : 1 ≤ k) (hk : k ≤ i + 1) (inside : k ≤ forward h i m + 1) :
    forward h i m + 1 - k = forward h (i + 1 - k) m := by
  simp only [forward_eq] at *
  grind

theorem backward_succ (hh : h < m) (hk : k ≤ h + 1) :
    backward h k m + 1 = if k < h + 1 then h + 1 - k else m := by
  simp only [backward_eq]
  grind

theorem forward_between_iff {n : Nat} (hh : h < m) (hk : k < m) (hi : i + n ≤ m)
    (inside : forward h i m + n ≤ m) :
    (forward h i m ≤ forward h k m ∧ forward h k m < forward h i m + n) ↔ i ≤ k ∧ k < i + n := by
  simp only [forward_eq] at *
  grind

theorem next_forward (hh : h < m) (hk : k < m) : next (forward h k m) m = forward h (k + 1) m := by
  rw [← forward_one (forward_lt hh (Nat.le_of_lt hk)), forward_forward hh hk]

theorem prev_forward_succ (hh : h < m) (hk : k < m) :
    prev (forward h (k + 1) m) m = forward h k m := by
  rw [← next_forward hh hk, prev_next (forward_lt hh (Nat.le_of_lt hk))]

theorem prev_eq_forward (hh : h < m) : prev h m = forward h (m - 1) m := by
  simp only [prev_eq, forward_eq]
  split <;> split <;> omega

theorem backward_one (h m : Nat) : backward h 1 m = prev h m := by
  simp only [backward_eq, prev_eq]
  split <;> split <;> omega

theorem backward_forward_of_le (hh : h < m) (hk : k ≤ m) (hi : i ≤ k) :
    backward (forward h k m) i m = forward h (k - i) m := by
  have split_walk : forward h k m = forward (forward h (k - i) m) i m := by
    rw [forward_forward hh (by omega), Nat.sub_add_cancel hi]
  rw [split_walk, backward_forward (forward_lt hh (by omega)) (by omega)]

theorem steps_forward_forward (hh : h < m) (hij : i ≤ j) (hj : j < m) :
    steps (forward h i m) (forward h j m) m = j - i := by
  have split_walk : forward h j m = forward (forward h i m) (j - i) m := by
    rw [forward_forward hh (by omega), Nat.add_sub_cancel' hij]
  rw [split_walk, steps_forward (forward_lt hh (by omega)) (by omega)]

/-- The same slot, seen from the slot behind the base. -/
theorem forward_next (hh : h < m) (hk : k < m) :
    forward (next h m) k m = forward h (k + 1) m := by
  rw [← forward_one hh, forward_forward hh (by omega), Nat.add_comm]

/-- The same slot, seen from the slot in front of the base. -/
theorem forward_prev_succ (hh : h < m) (hk : k < m) :
    forward (prev h m) (k + 1) m = forward h k m := by
  rw [← forward_next (prev_lt hh) hk, next_prev hh]

theorem forward_backward_of_lt (hh : h < m) (hi : i ≤ m) (hk : k < i) :
    forward (backward h i m) k m = forward h (m - i + k) m := by
  simp only [forward_eq, backward_eq]
  split <;> split <;> split <;> omega

theorem forward_backward_add (hh : h < m) (hk : i + k ≤ m) :
    forward (backward h i m) (i + k) m = forward h k m := by
  rw [← forward_forward (backward_lt hh (by omega)) hk, forward_backward hh (by omega)]

/-- Walking on does not change how far apart two slots are. -/
theorem backward_forward_comm (hh : h < m) (hi : i ≤ m) (hk : k ≤ m) :
    backward (forward h k m) i m = forward (backward h i m) k m := by
  simp only [forward_eq, backward_eq]
  grind

end RingDeque.Circle

import RingDeque.Proofs.Shifts

/-!
# Shifting a run on the circle

A shift is described without regard to the pieces that it is made of: slot `source k` gives what it
holds to slot `target k`, for every `k` below the length of the run, and all that it needs is that
the slots which the run moves into are its own or empty. Since slots are only ever swapped, the
result is a permutation of the buffer whatever the slots hold. Shifting the run back restores the
buffer.

The coordinates of the run and of its target, seen from the first slot that takes part, are two
intervals. So both directions are one case each of a lemma on intervals.
-/

namespace RingDeque.Slots

variable {α : Type u} {slots slots' : Slots α} {source target : Nat → Nat}
variable {m h i j k start distance length moved remaining rounds more : Nat}

/-- The slots that are moved into are among those that are moved, or empty. -/
def Free (slots : Slots α) (source target : Nat → Nat) (length : Nat) : Prop :=
  ∀ k < length, (∀ i < length, source i ≠ target k) → slots.at? (target k) = none

/-- What slot `source k` holds goes to slot `target k`, for every `k` below `length`. Slots that
were left are empty, all others stay, and nothing is lost or doubled. -/
structure Moves (slots slots' : Slots α) (source target : Nat → Nat) (length : Nat) : Prop where
  size_eq : slots'.size = slots.size
  arrived : ∀ k < length, slots'.at? (target k) = slots.at? (source k)
  vacated : ∀ k < length, (∀ i < length, target i ≠ source k) → slots'.at? (source k) = none
  untouched : ∀ p, (∀ k < length, source k ≠ p) → (∀ k < length, target k ≠ p) →
    slots'.at? p = slots.at? p
  perm : slots'.Perm slots

theorem perm_swap (slots : Slots α) (i j : Nat) : (slots.swap i j).Perm slots := by
  rw [swap, Array.swapIfInBounds_def]
  split
  · split
    · exact Array.swap_perm ..
    · exact .rfl
  · exact .rfl

theorem perm_reverseRun (slots : Slots α) (i n : Nat) : (slots.reverseRun i n).Perm slots := by
  fun_induction slots.reverseRun i n with
  | case1 => exact .rfl
  | case2 => exact .rfl
  | case3 slots i n ih => exact ih.trans (perm_swap ..)

theorem perm_rotateRun (slots : Slots α) (i k n : Nat) : (slots.rotateRun i k n).Perm slots :=
  (perm_reverseRun ..).trans ((perm_reverseRun ..).trans (perm_reverseRun ..))

theorem perm_swapRuns (slots : Slots α) (i j n : Nat) : (slots.swapRuns i j n).Perm slots := by
  induction n generalizing slots i j with
  | zero => exact .rfl
  | succ n ih => exact (ih ..).trans (perm_swap ..)

theorem perm_moveRun (slots : Slots α) (source target n : Nat) :
    (slots.moveRun source target n).Perm slots := by
  rw [moveRun_eq]
  split
  · exact .rfl
  split
  · exact perm_swapRuns ..
  split <;> exact perm_rotateRun ..

theorem perm_shiftPiecesFrontward (slots : Slots α) (start distance length moved rounds : Nat) :
    (slots.shiftPiecesFrontward start distance length moved rounds).1.Perm slots := by
  induction rounds generalizing slots moved with
  | zero => exact .rfl
  | succ rounds ih =>
      by_cases rest : moved < length
      · rw [shiftPiecesFrontward_step rfl rest rfl rfl rfl]
        exact (ih ..).trans (perm_moveRun ..)
      · rw [shiftPiecesFrontward_of_le (Nat.le_of_not_lt rest)]

theorem perm_shiftPiecesBackward (slots : Slots α) (start distance remaining rounds : Nat) :
    (slots.shiftPiecesBackward start distance remaining rounds).1.Perm slots := by
  induction rounds generalizing slots remaining with
  | zero => exact .rfl
  | succ rounds ih =>
      rcases Nat.eq_zero_or_pos remaining with rfl | rest
      · rw [shiftPiecesBackward_zero]
      · rw [shiftPiecesBackward_step rfl rest rfl rfl rfl]
        exact (ih ..).trans (perm_moveRun ..)

/-- Once the whole run has been moved, further rounds do nothing. -/
theorem shiftPiecesFrontward_add
    (ended : (slots.shiftPiecesFrontward start distance length moved rounds).2 = length)
    (more : Nat) :
    slots.shiftPiecesFrontward start distance length moved (rounds + more) =
      slots.shiftPiecesFrontward start distance length moved rounds := by
  induction rounds generalizing slots moved with
  | zero => exact shiftPiecesFrontward_of_le (Nat.le_of_eq ended.symm) _
  | succ rounds ih =>
      rcases Nat.lt_or_ge moved length with rest | whole
      · rw [shiftPiecesFrontward_step rfl rest rfl rfl rfl] at ended
        rw [Nat.succ_add, shiftPiecesFrontward_step rfl rest rfl rfl rfl,
          shiftPiecesFrontward_step rfl rest rfl rfl rfl]
        exact ih ended
      · rw [shiftPiecesFrontward_of_le whole, shiftPiecesFrontward_of_le whole]

theorem shiftPiecesBackward_add
    (ended : (slots.shiftPiecesBackward start distance remaining rounds).2 = 0) (more : Nat) :
    slots.shiftPiecesBackward start distance remaining (rounds + more) =
      slots.shiftPiecesBackward start distance remaining rounds := by
  induction rounds generalizing slots remaining with
  | zero =>
      have whole : remaining = 0 := ended
      subst whole
      exact shiftPiecesBackward_zero ..
  | succ rounds ih =>
      rcases Nat.eq_zero_or_pos remaining with rfl | rest
      · rw [shiftPiecesBackward_zero, shiftPiecesBackward_zero]
      · rw [shiftPiecesBackward_step rfl rest rfl rfl rfl] at ended
        rw [Nat.succ_add, shiftPiecesBackward_step rfl rest rfl rfl rfl,
          shiftPiecesBackward_step rfl rest rfl rfl rfl]
        exact ih ended

/-- Three rounds are enough, and so are as many as the run has slots. -/
theorem shiftPiecesFrontward_eq (size : slots.size = m) (hs : start < m)
    (fits : length + distance ≤ m) (enough : min 3 length ≤ rounds) :
    slots.shiftPiecesFrontward start distance length 0 rounds =
      (slots.shiftFrontward start distance length, length) := by
  have ends (rounds : Nat) (enough : length ≤ rounds ∨ 3 ≤ rounds) :
      (slots.shiftPiecesFrontward start distance length 0 rounds).2 = length :=
    shiftPiecesFrontward_ends size hs (by omega) (by omega) (Nat.zero_le _)
      (enough.imp_right (Nat.le_trans (pieces_le ..)))
  have whole : slots.shiftPiecesFrontward start distance length 0 length =
      (slots.shiftFrontward start distance length, length) :=
    Prod.ext (shiftFrontward_eq ..).symm (ends length (by omega))
  rw [← whole]
  rcases Nat.le_total rounds length with fewer | more
  · have settled := shiftPiecesFrontward_add (ends rounds (by omega)) (length - rounds)
    rwa [Nat.add_sub_cancel' fewer, eq_comm] at settled
  · have settled := shiftPiecesFrontward_add (ends length (by omega)) (rounds - length)
    rwa [Nat.add_sub_cancel' more] at settled

theorem shiftPiecesBackward_eq (size : slots.size = m) (hs : start < m)
    (fits : length + distance ≤ m) (enough : min 3 length ≤ rounds) :
    slots.shiftPiecesBackward start distance length rounds =
      (slots.shiftBackward start distance length, 0) := by
  have ends (rounds : Nat) (enough : length ≤ rounds ∨ 3 ≤ rounds) :
      (slots.shiftPiecesBackward start distance length rounds).2 = 0 :=
    shiftPiecesBackward_ends size hs (by omega) (by omega)
      (enough.imp_right (Nat.le_trans (pieces_le ..)))
  have whole : slots.shiftPiecesBackward start distance length length =
      (slots.shiftBackward start distance length, 0) :=
    Prod.ext (shiftBackward_eq ..).symm (ends length (by omega))
  rw [← whole]
  rcases Nat.le_total rounds length with fewer | more
  · have settled := shiftPiecesBackward_add (ends rounds (by omega)) (length - rounds)
    rwa [Nat.add_sub_cancel' fewer, eq_comm] at settled
  · have settled := shiftPiecesBackward_add (ends length (by omega)) (rounds - length)
    rwa [Nat.add_sub_cancel' more] at settled

theorem ext_view (size : slots.size = m) (size' : slots'.size = m) (hh : h < m)
    (seen : ∀ k < m, slots'.view h k = slots.view h k) : slots' = slots := by
  apply Array.ext (size'.trans size.symm)
  intro p hp' hp
  obtain ⟨k, bound, rfl⟩ := Circle.exists_forward hh (show p < m by omega)
  have here := seen k bound
  rwa [view_def size, view_def size', at?_eq_getElem hp, at?_eq_getElem hp'] at here

/-- Seen from `h`, the slots of a run that are empty or its own. -/
theorem Free.view_eq_none (free : slots.Free source target length) (size : slots.size = m)
    (hi : i + length ≤ m) (hj : j + length ≤ m)
    (from_i : ∀ k < length, source k = Circle.forward h (i + k) m)
    (from_j : ∀ k < length, target k = Circle.forward h (j + k) m)
    {p : Nat} (hp : j ≤ p) (hp' : p < j + length) (outside : ¬(i ≤ p ∧ p < i + length)) :
    slots.view h p = none := by
  have place : target (p - j) = Circle.forward h p m := by
    rw [from_j _ (by omega), Nat.add_sub_cancel' hp]
  rw [view_def size, ← place]
  refine free _ (by omega) fun k hk same => outside ?_
  rw [from_i k hk, place, Circle.forward_inj (by omega) (by omega)] at same
  omega

/-- Seen from `h`, the run and its target are two intervals. -/
theorem Moves.of_view (size : slots.size = m) (size' : slots'.size = m) (hh : h < m)
    (hi : i + length ≤ m) (hj : j + length ≤ m)
    (from_i : ∀ k < length, source k = Circle.forward h (i + k) m)
    (from_j : ∀ k < length, target k = Circle.forward h (j + k) m)
    (seen : ∀ k < m, slots'.view h k =
      if j ≤ k ∧ k < j + length then slots.view h (i + (k - j))
      else if i ≤ k ∧ k < i + length then none
      else slots.view h k)
    (perm : slots'.Perm slots) : slots.Moves slots' source target length where
  size_eq := size'.trans size.symm
  arrived k hk := by
    have here := seen (j + k) (by omega)
    rw [if_pos (by omega), Nat.add_sub_cancel_left, view_def size, view_def size'] at here
    rw [from_i k hk, from_j k hk, here]
  vacated k hk left := by
    have away : ¬(j ≤ i + k ∧ i + k < j + length) := by
      intro within
      refine left (i + k - j) (by omega) ?_
      rw [from_i k hk, from_j _ (by omega), Nat.add_sub_cancel' within.1]
    have here := seen (i + k) (by omega)
    rw [if_neg away, if_pos (by omega), view_def size'] at here
    rw [from_i k hk, here]
  untouched p outside outside' := by
    rcases Nat.lt_or_ge p m with inside | beyond
    · obtain ⟨q, hq, rfl⟩ := Circle.exists_forward hh inside
      have here := seen q hq
      rw [if_neg, if_neg, view_def size, view_def size'] at here
      · exact here
      · intro within
        refine outside (q - i) (by omega) ?_
        rw [from_i _ (by omega), Nat.add_sub_cancel' within.1]
      · intro within
        refine outside' (q - j) (by omega) ?_
        rw [from_j _ (by omega), Nat.add_sub_cancel' within.1]
    · rw [at?_eq_none_of_size_le _ (size'.symm ▸ beyond),
        at?_eq_none_of_size_le _ (size.symm ▸ beyond)]
  perm := perm

/-- Where the slots of a run are, and where they are `distance` slots before that, seen from the
first of the latter. -/
theorem forward_backward_eq_mod (hs : start < m) (fits : k + distance ≤ m) :
    (start + k) % m = Circle.forward (Circle.backward start distance m) (distance + k) m ∧
      (start + k + m - distance) % m =
      Circle.forward (Circle.backward start distance m) (0 + k) m := by
  have first := Circle.backward_lt hs (show distance ≤ m by omega)
  constructor
  · rw [Circle.forward_backward_add hs (by omega), Circle.forward_eq_mod hs (by omega)]
  · rw [Circle.forward_eq_mod first (by omega), Circle.backward_eq_mod hs (by omega),
      Nat.mod_add_mod]
    exact congrArg (· % m) (by omega)

/-- A shift toward the front takes the run where it should be, piece by piece, and the opposite
shift takes it back. -/
theorem Free.shiftFrontward (size : slots.size = m) (hs : start < m) (fits : length + distance ≤ m)
    (free : slots.Free (fun k => (start + k) % m) (fun k => (start + k + m - distance) % m)
      length) :
    slots.Moves (slots.shiftFrontward start distance length)
        (fun k => (start + k) % m) (fun k => (start + k + m - distance) % m) length ∧
      (slots.shiftFrontward start distance length).shiftBackward
        ((start + m - distance) % m) distance length = slots := by
  have first := Circle.backward_lt hs (show distance ≤ m by omega)
  have place := Circle.forward_backward hs (show distance ≤ m by omega)
  have from_i (k : Nat) (hk : k < length) :=
    (forward_backward_eq_mod hs (show k + distance ≤ m by omega)).1
  have from_j (k : Nat) (hk : k < length) :=
    (forward_backward_eq_mod hs (show k + distance ≤ m by omega)).2
  have empty (p : Nat) (hp : p < length) (outside : p < distance) : slots.view _ p = none :=
    free.view_eq_none size (by omega) (by omega) from_i from_j (Nat.zero_le p) (by omega) (by omega)
  have size' : (slots.shiftFrontward start distance length).size = m :=
    (size_shiftFrontward ..).trans size
  have seen {k : Nat} (hk : k < m) := view_shiftFrontward 0 distance length size first (by omega)
    (fun p hp hp' hp'' => empty p (by omega) (by omega)) hk
  simp only [Nat.zero_add, place] at seen
  constructor
  · refine .of_view size size' first (by omega) (by omega) from_i from_j (fun k hk => ?_)
      (shiftFrontward_eq slots start distance length ▸ perm_shiftPiecesFrontward ..)
    rw [seen hk, Nat.zero_add, Nat.sub_zero, Nat.add_comm k]
  · rw [← Circle.backward_eq_mod hs (by omega), ← Circle.forward_zero first]
    refine ext_view size ((size_shiftBackward ..).trans size') first fun k hk => ?_
    rw [view_shiftBackward 0 distance length size' first (by omega) _ hk]
    · split
      · next back =>
          rw [seen (by omega), if_pos (by omega), Nat.sub_add_cancel (by omega)]
      split
      · next vacated => exact (empty k (by omega) (by omega)).symm
      · next elsewhere => rw [seen hk, if_neg (by omega), if_neg (by omega)]
    · intro p hp hp' hp''
      rw [seen (by omega), if_neg (by omega), if_pos (by omega)]

/-- Where the slots of a run are, and where they are `distance` slots behind that, seen from the
first of the former. -/
theorem forward_forward_eq_mod (hs : start < m) (fits : k + distance ≤ m) :
    (start + k) % m = Circle.forward start (0 + k) m ∧
      (start + k + distance) % m = Circle.forward start (distance + k) m := by
  constructor
  · rw [Circle.forward_eq_mod hs (by omega), Nat.zero_add]
  · rw [Circle.forward_eq_mod hs (by omega)]
    exact congrArg (· % m) (by omega)

/-- A shift toward the back takes the run where it should be, and the opposite shift takes it
back. -/
theorem Free.shiftBackward (size : slots.size = m) (hs : start < m) (fits : length + distance ≤ m)
    (free : slots.Free (fun k => (start + k) % m) (fun k => (start + k + distance) % m) length) :
    slots.Moves (slots.shiftBackward start distance length)
        (fun k => (start + k) % m) (fun k => (start + k + distance) % m) length ∧
      (slots.shiftBackward start distance length).shiftFrontward
        ((start + distance) % m) distance length = slots := by
  have from_i (k : Nat) (hk : k < length) :=
    (forward_forward_eq_mod hs (show k + distance ≤ m by omega)).1
  have from_j (k : Nat) (hk : k < length) :=
    (forward_forward_eq_mod hs (show k + distance ≤ m by omega)).2
  have empty (p : Nat) (hp : distance ≤ p) (hp' : p < distance + length) (outside : length ≤ p) :
      slots.view start p = none :=
    free.view_eq_none size (by omega) (by omega) from_i from_j hp hp' (by omega)
  have size' : (slots.shiftBackward start distance length).size = m :=
    (size_shiftBackward ..).trans size
  have seen {k : Nat} (hk : k < m) := view_shiftBackward 0 distance length size hs (by omega)
    (fun p hp hp' hp'' => empty p (by omega) (by omega) (by omega)) hk
  simp only [Circle.forward_zero hs, Nat.zero_add] at seen
  constructor
  · refine .of_view size size' hs (by omega) (by omega) from_i from_j (fun k hk => ?_)
      (shiftBackward_eq slots start distance length ▸ perm_shiftPiecesBackward ..)
    rw [seen hk, Nat.zero_add, Nat.zero_add]
  · have place : (start + distance) % m = Circle.forward start (0 + distance) m := by
      rw [Circle.forward_eq_mod hs (by omega), Nat.zero_add]
    rw [place]
    refine ext_view size ((size_shiftFrontward ..).trans size') hs fun k hk => ?_
    rw [view_shiftFrontward 0 distance length size' hs (by omega) _ hk]
    · split
      · next back =>
          rw [seen (by omega), if_pos (by omega), Nat.add_sub_cancel]
      split
      · next vacated => exact (empty k (by omega) (by omega) (by omega)).symm
      · next elsewhere => rw [seen hk, if_neg (by omega), if_neg (by omega)]
    · intro p hp hp' hp''
      rw [seen (by omega), if_neg (by omega), if_pos (by omega)]

/-- Whatever the slots hold, three rounds or as many as the run has slots move all of it. Where the
slots that it moves into are its own or empty, it ends up where it should be, no other slot is
affected, and shifting it back restores the buffer. -/
theorem shifts_move_and_restore (slots : Slots α) (start distance length : Nat)
    (hs : start < slots.size) (fits : length + distance ≤ slots.size) :
    let m := slots.size
    let source := fun k => (start + k) % m
    let frontward := fun k => (start + k + m - distance) % m
    let backward := fun k => (start + k + distance) % m
    (∀ rounds, min 3 length ≤ rounds →
      slots.shiftPiecesFrontward start distance length 0 rounds =
          (slots.shiftFrontward start distance length, length) ∧
        slots.shiftPiecesBackward start distance length rounds =
          (slots.shiftBackward start distance length, 0)) ∧
      (slots.Free source frontward length →
        slots.Moves (slots.shiftFrontward start distance length) source frontward length ∧
          (slots.shiftFrontward start distance length).shiftBackward
            (frontward 0) distance length = slots) ∧
      (slots.Free source backward length →
        slots.Moves (slots.shiftBackward start distance length) source backward length ∧
          (slots.shiftBackward start distance length).shiftFrontward
            (backward 0) distance length = slots) := by
  refine ⟨fun rounds enough => ?_, fun free => ?_, fun free => ?_⟩
  · exact ⟨shiftPiecesFrontward_eq rfl hs fits enough, shiftPiecesBackward_eq rfl hs fits enough⟩
  · exact free.shiftFrontward rfl hs fits
  · exact free.shiftBackward rfl hs fits

/-- Three elements that wrap overlap the slots that they move into. They take two pieces. -/
theorem shifts_move_and_restore_wrapped :
    let slots : Slots Nat := #[some 2, some 3, none, none, some 1]
    let source := fun k => (4 + k) % 5
    let frontward := fun k => (4 + k + 5 - 1) % 5
    slots.Free source frontward 3 ∧
      slots.shiftFrontward 4 1 3 = #[some 3, none, none, some 1, some 2] ∧
      slots.Moves (slots.shiftFrontward 4 1 3) source frontward 3 ∧
      (slots.shiftFrontward 4 1 3).shiftBackward (frontward 0) 1 3 = slots := by
  intro slots source frontward
  have free : slots.Free source frontward 3 := by
    unfold Free
    decide
  exact ⟨free, by decide, (shifts_move_and_restore slots 4 1 3 (by decide) (by decide)).2.1 free⟩

end RingDeque.Slots

import RingDeque.Proofs.Slots

/-!
# Moving runs of slots

A run of slots may be moved where the slots that it moves into are either its own or empty. It then
leaves empty slots behind, and no other slot changes. This is shown first for slots next to one
another, whether or not they overlap the slots that they move into, and then for a run on the
circle, which is moved piece by piece.

What the pieces have in common is the state between two of them: one part of the run is where it
should be, and the slots that the other part moves into are its own or empty. Two pieces that are
moved one after the other come to one movement of both. No piece is empty, and three always suffice.
-/

namespace RingDeque.Slots

variable {α : Type u} {slots : Slots α} {m h i j k n s distance length : Nat}

theorem at?_reverseRun (slots : Slots α) (hi : i + n ≤ slots.size) (hk : k < slots.size) :
    (slots.reverseRun i n).at? k =
      if i ≤ k ∧ k < i + n then slots.at? (i + (i + n - 1 - k)) else slots.at? k := by
  fun_induction slots.reverseRun i n with
  | case1 => exact (if_neg (by omega)).symm
  | case2 slots i =>
      split
      · next here => congr 1; omega
      · rfl
  | case3 slots i n ih =>
      have outer {p} (hp : p < slots.size) :=
        at?_swap (i := i) (j := i + n + 1) (by omega) (by omega) hp
      rw [ih (by rw [size_swap]; omega) (by rwa [size_swap])]
      split
      · next inner =>
          rw [outer (by omega), if_neg (by omega), if_neg (by omega), if_pos (by omega)]
          congr 1
          omega
      · rw [outer hk]
        split
        · next first => subst first; rw [if_pos (by omega)]; congr 1; omega
        split
        · next last => subst last; rw [if_pos (by omega)]; congr 1; omega
        · rw [if_neg (by omega)]

theorem at?_rotateRun (hj : j ≤ n) (hi : i + n ≤ slots.size) (hk : k < slots.size) :
    (slots.rotateRun i j n).at? k =
      if i ≤ k ∧ k < i + (n - j) then slots.at? (k + j)
      else if i + (n - j) ≤ k ∧ k < i + n then slots.at? (k - (n - j))
      else slots.at? k := by
  have front {p} (hp : p < slots.size) := at?_reverseRun slots (i := i) (n := j) (by omega) hp
  have back {p} (hp : p < slots.size) :=
    at?_reverseRun (slots.reverseRun i j) (i := i + j) (n := n - j) (k := p)
      (by rw [size_reverseRun]; omega) (by rwa [size_reverseRun])
  rw [rotateRun, at?_reverseRun _ (by simp only [size_reverseRun]; omega)
    (by simpa only [size_reverseRun])]
  by_cases inside : i ≤ k ∧ k < i + n
  · rw [if_pos inside, back (by omega)]
    by_cases first : k < i + (n - j)
    · rw [if_pos (by omega), if_pos (by omega), front (by omega), if_neg (by omega)]
      congr 1
      omega
    · rw [if_neg (by omega), if_neg (by omega), if_pos (by omega), front (by omega),
        if_pos (by omega)]
      congr 1
      omega
  · rw [if_neg inside, if_neg (by omega), if_neg (by omega), back hk, if_neg (by omega), front hk,
      if_neg (by omega)]

theorem at?_swapRuns (slots : Slots α) (apart : i + n ≤ j ∨ j + n ≤ i) (hi : i + n ≤ slots.size)
    (hj : j + n ≤ slots.size) (hk : k < slots.size) :
    (slots.swapRuns i j n).at? k =
      if i ≤ k ∧ k < i + n then slots.at? (k - i + j)
      else if j ≤ k ∧ k < j + n then slots.at? (k - j + i)
      else slots.at? k := by
  induction n generalizing slots i j with
  | zero =>
      rw [if_neg (by omega), if_neg (by omega)]
      rfl
  | succ n ih =>
      have first {p} (hp : p < slots.size) := at?_swap (i := i) (j := j) (by omega) (by omega) hp
      have rest := ih (slots.swap i j) (i := i + 1) (j := j + 1) (by omega)
        (by rw [size_swap]; omega) (by rw [size_swap]; omega) (by rwa [size_swap])
      rw [swapRuns, rest]
      split
      · rw [first (by omega), if_neg (by omega), if_neg (by omega), if_pos (by omega)]
        exact congrArg slots.at? (by omega)
      split
      · rw [first (by omega), if_neg (by omega), if_neg (by omega), if_neg (by omega),
          if_pos (by omega)]
        exact congrArg slots.at? (by omega)
      · clear rest ih
        grind

/-- Slots may be moved where those that they are moved to are either theirs or empty. They leave
empty slots behind. -/
theorem at?_moveRun (source target n : Nat) (hs : source + n ≤ slots.size)
    (ht : target + n ≤ slots.size)
    (free : ∀ p, target ≤ p → p < target + n → ¬(source ≤ p ∧ p < source + n) → slots.at? p = none)
    (hk : k < slots.size) :
    (slots.moveRun source target n).at? k =
      if target ≤ k ∧ k < target + n then slots.at? (source + (k - target))
      else if source ≤ k ∧ k < source + n then none
      else slots.at? k := by
  rw [moveRun_eq]
  split
  · next still => grind
  split
  · next apart =>
      rw [at?_swapRuns slots (by omega) hs ht hk]
      grind
  split
  · next frontward =>
      rw [at?_rotateRun (by omega) (by omega) hk]
      grind
  · next backward =>
      rw [at?_rotateRun (by omega) (by omega) hk]
      grind

/-- What slot `k` holds after `n` slots from `i` on were moved to those from `j` on and left empty
slots behind. -/
def relocated (content : Nat → Option α) (i j n k : Nat) : Option α :=
  if j ≤ k ∧ k < j + n then content (i + (k - j))
  else if i ≤ k ∧ k < i + n then none
  else content k

section Relocated

variable {content content' : Nat → Option α} {n' : Nat}

theorem relocated_zero (content : Nat → Option α) (i j k : Nat) :
    relocated content i j 0 k = content k := by
  rw [relocated, if_neg (by omega), if_neg (by omega)]

theorem relocated_congr (same : ∀ p < m, content p = content' p) (hi : i + n ≤ m) (hk : k < m) :
    relocated content i j n k = relocated content' i j n k := by
  unfold relocated
  split
  · exact same _ (by omega)
  · rw [same k hk]

theorem relocated_frontward (content : Nat → Option α) (i distance n k : Nat) :
    relocated content (i + distance) i n k =
      if i ≤ k ∧ k < i + n then content (k + distance)
      else if i + distance ≤ k ∧ k < i + distance + n then none
      else content k := by
  unfold relocated
  split
  · exact congrArg content (by omega)
  · rfl

theorem relocated_backward (content : Nat → Option α) (i distance n k : Nat) :
    relocated content i (i + distance) n k =
      if i + distance ≤ k ∧ k < i + distance + n then content (k - distance)
      else if i ≤ k ∧ k < i + n then none
      else content k := by
  unfold relocated
  split
  · exact congrArg content (by omega)
  · rfl

/-- A slot that is not moved into is empty if its content was moved away or if it held none. -/
theorem relocated_eq_none (outside : ¬(j ≤ k ∧ k < j + n))
    (free : ¬(i ≤ k ∧ k < i + n) → content k = none) :
    relocated content i j n k = none := by
  rw [relocated, if_neg outside]
  split
  · rfl
  · next kept => exact free kept

/-- A movement toward the front may be made in two parts, the one in front first. -/
theorem relocated_append (frontward : j ≤ i) :
    relocated (relocated content i j n) (i + n) (j + n) n' k =
      relocated content i j (n + n') k := by
  unfold relocated
  grind

/-- A movement toward the back may be made in two parts, the one behind first. -/
theorem relocated_prepend (backward : i ≤ j) :
    relocated (relocated content (i + n') (j + n') n) i j n' k =
      relocated content i j (n' + n) k := by
  unfold relocated
  grind

end Relocated

/-- Seen from any slot, as long as neither the slots nor those that they are moved to cross the end
of the buffer. -/
theorem view_moveRun (size : slots.size = m) (hh : h < m) (hi : i + n ≤ m) (hj : j + n ≤ m)
    (source : Circle.forward h i m + n ≤ m) (target : Circle.forward h j m + n ≤ m)
    (free : ∀ p, j ≤ p → p < j + n → ¬(i ≤ p ∧ p < i + n) → slots.view h p = none) (hk : k < m) :
    (slots.moveRun (Circle.forward h i m) (Circle.forward h j m) n).view h k =
      relocated (slots.view h) i j n k := by
  have free' (p : Nat) (hp : Circle.forward h j m ≤ p) (hp' : p < Circle.forward h j m + n)
      (outside : ¬(Circle.forward h i m ≤ p ∧ p < Circle.forward h i m + n)) :
      slots.at? p = none := by
    obtain ⟨p, bound, rfl⟩ := Circle.exists_forward hh (show p < m by omega)
    have within := (Circle.forward_between_iff hh bound hj target).1 ⟨hp, hp'⟩
    rw [Circle.forward_between_iff hh bound hi source] at outside
    exact (view_def size h p).symm.trans (free p within.1 within.2 outside)
  have inside : Circle.forward h k m < slots.size :=
    size.symm ▸ Circle.forward_lt hh (Nat.le_of_lt hk)
  rw [relocated, view_def ((size_moveRun ..).trans size), view_def size, view_def size,
    at?_moveRun _ _ n (by omega) (by omega) free' inside]
  simp only [Circle.forward_between_iff hh hk hj target, Circle.forward_between_iff hh hk hi source]
  split
  · next moved =>
      have place : Circle.forward h k m = Circle.forward h j m + (k - j) := by
        rw [← Circle.forward_add (by omega), Nat.add_sub_cancel' moved.1]
      rw [place, Nat.add_sub_cancel_left, Circle.forward_add (by omega)]
  · rfl

/-- How many pieces are left at most, if there are `a` slots up to the end of the buffer for the
rest of the run, and `b` for the slots that it moves into. Either end is crossed at most once. -/
def pieces (a b rest : Nat) : Nat :=
  (if 0 < rest then 1 else 0) + (if a < rest then 1 else 0) + (if b < rest then 1 else 0)

theorem rest_eq_zero {a b rest : Nat} (none_left : rest ≤ 0 ∨ pieces a b rest ≤ 0) : rest = 0 := by
  unfold pieces at none_left
  grind

theorem pieces_le (a b rest : Nat) : pieces a b rest ≤ 3 := by
  unfold pieces
  split <;> split <;> split <;> omega

@[simp] theorem pieces_zero (a b : Nat) : pieces a b 0 = 0 := by
  simp [pieces]

/-- A piece ends where the rest ends or where one of the two is at the end of the buffer, and goes
on at its beginning. -/
theorem pieces_lt {a b rest piece : Nat} (hr : 0 < rest) (hm : rest ≤ m) (ha : 0 < a) (hb : 0 < b)
    (hp : piece = min (min rest a) b) :
    pieces (if piece < a then a - piece else m) (if piece < b then b - piece else m)
      (rest - piece) < pieces a b rest := by
  unfold pieces
  grind

/-- No piece is empty, so there are enough rounds for the whole run. -/
theorem shiftPiecesFrontward_ends {start moved rounds : Nat} (size : slots.size = m)
    (hs : start < m) (hd : distance ≤ m) (hl : length ≤ m) (hm : moved ≤ length)
    (enough : length - moved ≤ rounds ∨
      pieces (m - Circle.forward start moved m)
        (m - Circle.backward (Circle.forward start moved m) distance m) (length - moved) ≤ rounds) :
    (slots.shiftPiecesFrontward start distance length moved rounds).2 = length := by
  induction rounds generalizing slots moved with
  | zero =>
      have whole := rest_eq_zero enough
      exact show moved = length by omega
  | succ rounds ih =>
      rcases Nat.lt_or_ge moved length with rest | whole
      · have inside := Circle.forward_lt hs (show moved ≤ m by omega)
        have inside' := Circle.backward_lt inside hd
        generalize hp : min (min (length - moved) (m - Circle.forward start moved m))
          (m - Circle.backward (Circle.forward start moved m) distance m) = piece
        have fewer := pieces_lt (m := m) (by omega) (by omega) (by omega) (by omega) hp.symm
        have next : Circle.forward start (moved + piece) m =
            Circle.forward (Circle.forward start moved m) piece m :=
          (Circle.forward_forward hs (by omega)).symm
        rw [shiftPiecesFrontward_step size rest rfl rfl hp.symm]
        refine ih ((size_moveRun ..).trans size) (by omega) ?_
        rw [next, Circle.backward_forward_comm inside hd (by omega),
          Circle.sub_forward inside (by omega),
          Circle.sub_forward inside' (by omega), ← Nat.sub_sub]
        omega
      · rw [shiftPiecesFrontward_of_le whole]
        exact Nat.le_antisymm hm whole

theorem view_shiftPiecesFrontward (s distance length moved rounds : Nat) (size : slots.size = m)
    (hh : h < m) (hs : s + distance + length ≤ m) (hm : moved ≤ length)
    (ended : (slots.shiftPiecesFrontward (Circle.forward h (s + distance) m) distance length moved
      rounds).2 = length)
    (free : ∀ j, s + moved ≤ j → j < s + moved + distance → j < s + length → slots.view h j = none)
    (hk : k < m) :
    (slots.shiftPiecesFrontward (Circle.forward h (s + distance) m) distance length moved
      rounds).1.view h k =
      relocated (slots.view h) (s + distance + moved) (s + moved) (length - moved) k := by
  induction rounds generalizing slots moved with
  | zero =>
      have whole : moved = length := ended
      rw [whole, Nat.sub_self, relocated_zero]
      rfl
  | succ rounds ih =>
      rcases Nat.lt_or_ge moved length with rest | whole
      · have source : Circle.forward (Circle.forward h (s + distance) m) moved m =
            Circle.forward h (s + distance + moved) m := Circle.forward_forward hh (by omega)
        have target : Circle.backward (Circle.forward h (s + distance + moved) m) distance m =
            Circle.forward h (s + moved) m := by
          rw [Circle.backward_forward_of_le hh (by omega) (by omega)]
          exact congrArg (Circle.forward h · m) (by omega)
        generalize hp : min (min (length - moved) (m - Circle.forward h (s + distance + moved) m))
          (m - Circle.forward h (s + moved) m) = piece
        have inside := Circle.forward_lt hh (show s + distance + moved ≤ m by omega)
        have inside' := Circle.forward_lt hh (show s + moved ≤ m by omega)
        have done {j} (hj : j < m) :=
          view_moveRun (i := s + distance + moved) (j := s + moved) (n := piece)
          size hh (by omega) (by omega) (by omega) (by omega)
          (fun p hp hp' outside => free p hp (by omega) (by omega)) hj
        rw [shiftPiecesFrontward_step size rest source target hp.symm] at ended ⊢
        have total : piece + (length - (moved + piece)) = length - moved := by omega
        rw [ih (moved + piece) ((size_moveRun ..).trans size) (by omega) ended,
          relocated_congr (fun _ => done) (by omega) hk, ← Nat.add_assoc, ← Nat.add_assoc,
          relocated_append (by omega), total]
        intro j hj hj' hj''
        rw [done (by omega)]
        exact relocated_eq_none (by omega) fun _ => free j (by omega) (by omega) hj''
      · rw [shiftPiecesFrontward_of_le whole, Nat.sub_eq_zero_of_le whole, relocated_zero]

/-- No piece is empty, so there are enough rounds for the whole run. -/
theorem shiftPiecesBackward_ends {start remaining rounds : Nat} (size : slots.size = m)
    (hs : start < m) (hd : distance ≤ m) (hr : remaining ≤ m)
    (enough : remaining ≤ rounds ∨
      pieces (Circle.forward start (remaining - 1) m + 1)
        (Circle.forward (Circle.forward start (remaining - 1) m) distance m + 1) remaining ≤
          rounds) :
    (slots.shiftPiecesBackward start distance remaining rounds).2 = 0 := by
  induction rounds generalizing slots remaining with
  | zero => exact rest_eq_zero enough
  | succ rounds ih =>
      rcases Nat.eq_zero_or_pos remaining with rfl | rest
      · rw [shiftPiecesBackward_zero]
      · have inside := Circle.forward_lt hs (show remaining - 1 ≤ m by omega)
        have inside' := Circle.forward_lt inside hd
        generalize hp : min (min remaining (Circle.forward start (remaining - 1) m + 1))
          (Circle.forward (Circle.forward start (remaining - 1) m) distance m + 1) = piece
        have fewer :=
          pieces_lt (m := m) (a := _ + 1) (b := _ + 1) rest hr (by omega) (by omega) hp.symm
        rw [shiftPiecesBackward_step size rest rfl rfl hp.symm]
        refine ih ((size_moveRun ..).trans size) (by omega) ?_
        rcases Nat.eq_zero_or_pos (remaining - piece) with whole | more
        · rw [whole]
          simp
        · have next : Circle.forward start (remaining - piece - 1) m =
              Circle.backward (Circle.forward start (remaining - 1) m) piece m := by
            rw [Circle.backward_forward_of_le hs (by omega) (by omega)]
            exact congrArg (Circle.forward start · m) (by omega)
          rw [next, ← Circle.backward_forward_comm inside (by omega) hd,
            Circle.backward_succ inside (by omega),
            Circle.backward_succ inside' (by omega)]
          omega

theorem view_shiftPiecesBackward (s distance remaining rounds : Nat) (size : slots.size = m)
    (hh : h < m) (hs : s + remaining + distance ≤ m)
    (ended : (slots.shiftPiecesBackward (Circle.forward h s m) distance remaining rounds).2 = 0)
    (free : ∀ j, s + remaining ≤ j → s + distance ≤ j → j < s + distance + remaining →
      slots.view h j = none)
    (hk : k < m) :
    (slots.shiftPiecesBackward (Circle.forward h s m) distance remaining rounds).1.view h k =
      relocated (slots.view h) s (s + distance) remaining k := by
  induction rounds generalizing slots remaining with
  | zero =>
      have whole : remaining = 0 := ended
      rw [whole, relocated_zero]
      rfl
  | succ rounds ih =>
      rcases Nat.eq_zero_or_pos remaining with rfl | rest
      · rw [shiftPiecesBackward_zero, relocated_zero]
      · have last : Circle.forward (Circle.forward h s m) (remaining - 1) m =
            Circle.forward h (s + (remaining - 1)) m := Circle.forward_forward hh (by omega)
        have target : Circle.forward (Circle.forward h (s + (remaining - 1)) m) distance m =
            Circle.forward h (s + distance + (remaining - 1)) m := by
          rw [Circle.forward_forward hh (by omega), Nat.add_right_comm]
        generalize hp : min (min remaining (Circle.forward h (s + (remaining - 1)) m + 1))
          (Circle.forward h (s + distance + (remaining - 1)) m + 1) = piece
        have fits : piece ≤ remaining := by omega
        have front {t} (ht : t + remaining ≤ m)
          (hp : piece ≤ Circle.forward h (t + (remaining - 1)) m + 1) :
            Circle.forward h (t + (remaining - 1)) m + 1 - piece =
              Circle.forward h (t + (remaining - piece)) m := by
          rw [Circle.forward_succ_sub (by omega) (by omega) hp]
          exact congrArg (Circle.forward h · m) (by omega)
        have source := front (t := s) (by omega) (by omega)
        have source' := front (t := s + distance) (by omega) (by omega)
        have inside := Circle.forward_lt hh (show s + (remaining - 1) ≤ m by omega)
        have inside' := Circle.forward_lt hh (show s + distance + (remaining - 1) ≤ m by omega)
        have done {j} (hj : j < m) := view_moveRun (i := s + (remaining - piece))
          (j := s + distance + (remaining - piece)) (n := piece)
          size hh (by omega) (by omega) (by omega) (by omega)
          (fun p hp hp' outside => free p (by omega) (by omega) (by omega)) hj
        rw [shiftPiecesBackward_step size rest last target hp.symm, source, source'] at ended ⊢
        rw [ih (remaining - piece) ((size_moveRun ..).trans size) (by omega) ended,
          relocated_congr (fun _ => done) (by omega) hk, relocated_prepend (Nat.le_add_right ..),
          Nat.sub_add_cancel fits]
        intro j hj hj' hj''
        rw [done (by omega)]
        exact relocated_eq_none (by omega) fun _ => free j (by omega) (by omega) (by omega)

/-- The run begins `distance` slots behind the place that it moves to. -/
theorem view_shiftFrontward (s distance length : Nat) (size : slots.size = m) (hh : h < m)
    (hs : s + distance + length ≤ m)
    (free : ∀ j, s ≤ j → j < s + distance → j < s + length → slots.view h j = none)
    (hk : k < m) :
    (slots.shiftFrontward (Circle.forward h (s + distance) m) distance length).view h k =
      if s ≤ k ∧ k < s + length then slots.view h (k + distance)
      else if s + distance ≤ k ∧ k < s + distance + length then none
      else slots.view h k := by
  rw [← relocated_frontward]
  rw [shiftFrontward_eq]
  refine view_shiftPiecesFrontward s distance length 0 length size hh hs (Nat.zero_le _) ?_ free hk
  refine shiftPiecesFrontward_ends size (Circle.forward_lt hh ?_) ?_ ?_ (Nat.zero_le _)
    (.inl (Nat.sub_le ..))
  · omega
  · omega
  · omega

/-- Both ends of the movement are fixed by the slots that the run covers before and after it. -/
theorem view_shiftBackward (s distance length : Nat) (size : slots.size = m) (hh : h < m)
    (hs : s + length + distance ≤ m)
    (free : ∀ j, s + length ≤ j → s + distance ≤ j → j < s + distance + length →
      slots.view h j = none) (hk : k < m) :
    (slots.shiftBackward (Circle.forward h s m) distance length).view h k =
      if s + distance ≤ k ∧ k < s + distance + length then slots.view h (k - distance)
      else if s ≤ k ∧ k < s + length then none
      else slots.view h k := by
  rw [← relocated_backward]
  rw [shiftBackward_eq]
  refine view_shiftPiecesBackward s distance length length size hh hs ?_ free hk
  refine shiftPiecesBackward_ends size (Circle.forward_lt hh ?_) ?_ ?_ (.inl (Nat.le_refl _))
  · omega
  · omega
  · omega

/-- A run that is moved within the buffer, without going around its end. -/
theorem at?_shiftBackward (s distance length : Nat) (size : slots.size = m) (hm : s < m)
    (hs : s + length + distance ≤ m)
    (free : ∀ j, s + length ≤ j → s + distance ≤ j → j < s + distance + length →
      slots.at? j = none) (hk : k < m) :
    (slots.shiftBackward s distance length).at? k =
      if s + distance ≤ k ∧ k < s + distance + length then slots.at? (k - distance)
      else if s ≤ k ∧ k < s + length then none
      else slots.at? k := by
  have seen {j} (hj : j < m) : slots.view 0 j = slots.at? j := view_zero (by omega)
  have moved := view_shiftBackward (h := 0) s distance length size (by omega) hs
    (fun j hj hj' hj'' => (seen (by omega)).trans (free j hj hj' hj'')) hk
  rwa [Circle.zero_forward hm, view_zero (by rwa [size_shiftBackward, size]), seen (by omega),
    seen hk] at moved

end RingDeque.Slots

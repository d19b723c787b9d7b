import RingDeque.Deque.Sort

/-!
# What sorting a list does

Whatever the comparison answers and wherever it stops, the sort returns the elements it was given in
some order. A comparison that always answers, and answers as a total preorder does, leads to the
stable sort. There is only one: the elements that are tied keep their order, so two sorted lists
with the same ties are equal. `List.mergeSort` cuts an odd list differently, and that is why the two
sorts are compared by what they leave and not step by step.
-/

namespace RingDeque

variable {σ : Type u} {α : Type v} {β : Type w} {compare : Comparison σ α} {xs ys zs : List α}

/-! ### Every comparison -/

theorem moveLess_perm (compare : Comparison σ α) (x : α) (merged ys : List α) (s : σ) :
    ((moveLess compare x merged ys s).1.2.1 ++ (moveLess compare x merged ys s).1.2.2).Perm
      (merged ++ ys) := by
  induction ys generalizing merged s with
  | nil => exact .refl _
  | cons y ys ih =>
      rw [moveLess]
      split
      · exact .refl _
      · exact (ih (y :: merged) _).trans List.perm_middle.symm
      · exact .refl _

theorem merge_perm (merged xs ys : List α) (s : σ) :
    (merge compare merged xs ys s).1.2.Perm (merged ++ xs ++ ys) := by
  induction xs generalizing merged ys s with
  | nil =>
      rw [merge, List.append_nil]
      exact (List.reverse_perm merged).append_right ys
  | cons x xs ih =>
      have moved := moveLess_perm compare x merged ys s
      rw [merge]
      rcases outcome : moveLess compare x merged ys s with ⟨⟨fault, front, rest⟩, s'⟩
      rw [outcome] at moved
      have sorted : (front ++ x :: xs ++ rest).Perm (merged ++ x :: xs ++ ys) := by
        calc (front ++ x :: xs ++ rest).Perm (x :: xs ++ (front ++ rest)) := by
              rw [← List.append_assoc]
              exact List.perm_append_comm.append_right rest
          _ |>.Perm (x :: xs ++ (merged ++ ys)) := moved.append_left _
          _ |>.Perm (merged ++ x :: xs ++ ys) := by
              rw [← List.append_assoc]
              exact List.perm_append_comm.append_right ys
      cases fault with
      | some fault =>
          exact (((List.reverse_perm front).append_right _).append_right _).trans sorted
      | none =>
          refine (ih (x :: front) rest s').trans (List.Perm.trans ?_ sorted)
          rw [List.append_assoc, List.append_assoc]
          exact List.perm_middle.symm

/-- A sort neither loses nor doubles an element, even when it is cut short. -/
theorem sortHalves_perm (cuts : Nat) (xs : List α) (s : σ) :
    (sortHalves compare cuts xs s).1.2.Perm xs := by
  induction cuts generalizing xs s with
  | zero => exact .refl _
  | succ cuts ih =>
      have halves := List.take_append_drop (xs.length / 2) xs
      rw [sortHalves]
      split
      · exact .refl _
      · have left := ih (xs.take (xs.length / 2)) s
        dsimp only
        rcases first : sortHalves compare cuts (xs.take (xs.length / 2)) s with
          ⟨⟨_ | fault, front⟩, s'⟩
        · have both := left.append (ih (xs.drop (xs.length / 2)) s')
          rw [halves, first] at both
          dsimp only
          rcases second : sortHalves compare cuts (xs.drop (xs.length / 2)) s' with
            ⟨⟨_ | fault, back⟩, s''⟩
          · rw [second] at both
            exact (merge_perm [] front back s'').trans both
          · rwa [second] at both
        · have both := left.append_right (xs.drop (xs.length / 2))
          rwa [halves, first] at both

theorem sortList_perm (compare : Comparison σ α) (xs : List α) (s : σ) :
    (sortList compare xs s).1.2.Perm xs :=
  sortHalves_perm xs.length xs s

theorem sortList_of_length_lt (h : xs.length < 2) (s : σ) :
    sortList compare xs s = ((none, xs), s) := by
  match xs with
  | [] => rfl
  | [x] => rfl
  | x :: y :: xs =>
      rw [List.length_cons, List.length_cons] at h
      omega

/-! ### Slots in place of elements -/

theorem moveLess_onSlots (x : α) (merged ys : List α) (s : σ) :
    moveLess compare.onSlots (some x) (merged.map some) (ys.map some) s =
      let ((fault, merged, ys), s) := moveLess compare x merged ys s
      ((fault, merged.map some, ys.map some), s) := by
  induction ys generalizing merged s with
  | nil => rfl
  | cons y ys ih =>
      rw [List.map_cons, moveLess, moveLess, Comparison.onSlots]
      rcases compare x y s with ⟨_ | _ | _ | _, s'⟩
      · rfl
      · rfl
      · rfl
      · exact ih (y :: merged) s'

theorem merge_onSlots (merged xs ys : List α) (s : σ) :
    merge compare.onSlots (merged.map some) (xs.map some) (ys.map some) s =
      let ((fault, sorted), s) := merge compare merged xs ys s
      ((fault, sorted.map some), s) := by
  induction xs generalizing merged ys s with
  | nil => simp [merge]
  | cons x xs ih =>
      rw [List.map_cons, merge, merge, moveLess_onSlots]
      rcases moveLess compare x merged ys s with ⟨⟨_ | fault, front, rest⟩, s'⟩
      · exact ih (x :: front) rest s'
      · simp

theorem sortHalves_onSlots (cuts : Nat) (xs : List α) (s : σ) :
    sortHalves compare.onSlots cuts (xs.map some) s =
      let ((fault, sorted), s) := sortHalves compare cuts xs s
      ((fault, sorted.map some), s) := by
  induction cuts generalizing xs s with
  | zero => rfl
  | succ cuts ih =>
      rw [sortHalves, sortHalves, List.length_map]
      split
      · rfl
      · dsimp only
        rw [← List.map_take, ← List.map_drop, ih]
        rcases sortHalves compare cuts (xs.take (xs.length / 2)) s with ⟨⟨_ | fault, front⟩, s'⟩
        · dsimp only
          rw [ih]
          rcases sortHalves compare cuts (xs.drop (xs.length / 2)) s' with
            ⟨⟨_ | fault, back⟩, s''⟩
          · exact merge_onSlots [] front back s''
          · simp
        · simp

/-- Occupied slots are sorted like the elements in them. -/
theorem sortList_onSlots (compare : Comparison σ α) (xs : List α) (s : σ) :
    sortList compare.onSlots (xs.map some) s =
      let ((fault, sorted), s) := sortList compare xs s
      ((fault, sorted.map some), s) := by
  rw [sortList, sortList, List.length_map, sortHalves_onSlots]

/-! ### Total preorders -/

/-- Whether `compare`, asked in state `s`, lets `x` stand in front of `y`. -/
def Comparison.allows (compare : Comparison σ α) (s : σ) (x y : α) : Bool :=
  match (compare x y s).1 with
  | .ok .gt => false
  | _ => true

/-- A comparison that always answers, whatever its state, and by a total preorder. -/
structure Comparison.Lawful (compare : Comparison σ α) (order : α → α → Ordering) : Prop where
  answers : ∀ x y s, (compare x y s).1 = .ok (order x y)
  total : ∀ x y, order x y ≠ .gt ∨ order y x ≠ .gt
  trans : ∀ x y z, order x y ≠ .gt → order y z ≠ .gt → order x z ≠ .gt

/-- Whether neither of two elements must stand in front of the other. -/
def tied (le : α → α → Bool) (x y : α) : Bool :=
  le x y && le y x

/-- `ys` has the elements of `xs` in order, and tied ones in the order that they had. -/
structure IsStableSort (le : α → α → Bool) (xs ys : List α) : Prop where
  perm : ys.Perm xs
  sorted : ys.Pairwise fun x y => le x y = true
  stable : ∀ x, ys.filter (tied le x) = xs.filter (tied le x)

section

variable {le : α → α → Bool}

theorem tied_self (total : ∀ x y, (le x y || le y x) = true) (x : α) : tied le x x = true := by
  simpa [tied] using total x x

/-- A sorted list is known by its elements and the order among tied ones. -/
theorem IsStableSort.unique (total : ∀ x y, (le x y || le y x) = true)
    (hy : IsStableSort le xs ys) (hz : IsStableSort le xs zs) : ys = zs := by
  have perm : ys.Perm zs := hy.perm.trans hz.perm.symm
  have stable : ∀ x, ys.filter (tied le x) = zs.filter (tied le x) := fun x =>
    (hy.stable x).trans (hz.stable x).symm
  obtain ⟨-, hy, -⟩ := hy
  obtain ⟨-, hz, -⟩ := hz
  induction ys generalizing zs with
  | nil => exact perm.nil_eq
  | cons y ys ih =>
      cases zs with
      | nil => exact absurd perm.length_eq (by simp)
      | cons z zs =>
          have front : le y z = true := by
            rcases List.mem_cons.1 (perm.mem_iff.2 (List.mem_cons_self)) with same | behind
            · simpa [same] using total y y
            · exact List.rel_of_pairwise_cons hy behind
          have back : le z y = true := by
            rcases List.mem_cons.1 (perm.mem_iff.1 (List.mem_cons_self)) with same | behind
            · simpa [same] using total z z
            · exact List.rel_of_pairwise_cons hz behind
          have first := stable y
          rw [List.filter_cons_of_pos (tied_self total y),
            List.filter_cons_of_pos (by rw [tied, front, back]; rfl), List.cons.injEq] at first
          obtain ⟨rfl, -⟩ := first
          have rest : ∀ x, ys.filter (tied le x) = zs.filter (tied le x) := by
            intro x
            have all := stable x
            rw [List.filter_cons, List.filter_cons] at all
            split at all
            · exact (List.cons.inj all).2
            · exact all
          rw [ih perm.cons_inv rest hy.of_cons hz.of_cons]

/-- Where the first lists are in order, merging them puts tied elements of the first list in
front. -/
theorem filter_tied_merge (trans : ∀ x y z, le x y = true → le y z = true → le x z = true)
    (hx : xs.Pairwise fun x y => le x y = true) (hy : ys.Pairwise fun x y => le x y = true)
    (a : α) :
    (List.merge xs ys le).filter (tied le a) = xs.filter (tied le a) ++ ys.filter (tied le a) := by
  induction xs generalizing ys with
  | nil => simp
  | cons x xs ih =>
      induction ys with
      | nil => simp
      | cons y ys ihy =>
          by_cases front : le x y = true
          · rw [List.cons_merge_cons_pos le xs ys front, List.filter_cons, List.filter_cons,
              ih hx.of_cons hy]
            split <;> rfl
          · rw [List.cons_merge_cons_neg le xs ys front, List.filter_cons, ihy hy.of_cons,
              List.filter_cons (x := y)]
            split
            · next tie =>
                have apart : (x :: xs).filter (tied le a) = [] := by
                  rw [List.filter_eq_nil_iff]
                  intro z hz tie'
                  have ordered : le x z = true := by
                    rcases List.mem_cons.1 hz with rfl | behind
                    · simp only [tied, Bool.and_eq_true] at tie'
                      exact trans _ _ _ tie'.2 tie'.1
                    · exact List.rel_of_pairwise_cons hx behind
                  simp only [tied, Bool.and_eq_true] at tie tie'
                  exact front (trans _ _ _ ordered (trans _ _ _ tie'.2 tie.1))
                rw [apart]
                rfl
            · rfl

theorem IsStableSort.merge (trans : ∀ x y z, le x y = true → le y z = true → le x z = true)
    (total : ∀ x y, (le x y || le y x) = true) {xs' ys' : List α} (hx : IsStableSort le xs xs')
    (hy : IsStableSort le ys ys') : IsStableSort le (xs ++ ys) (List.merge xs' ys' le) where
  perm := (List.merge_perm_append le).trans (hx.perm.append hy.perm)
  sorted := List.pairwise_merge trans total xs' ys' hx.sorted hy.sorted
  stable x := by
    rw [filter_tied_merge trans hx.sorted hy.sorted, hx.stable, hy.stable, List.filter_append]

theorem isStableSort_of_length_lt (h : xs.length < 2) : IsStableSort le xs xs where
  perm := .refl _
  sorted := by
    match xs with
    | [] => exact .nil
    | [x] => exact List.pairwise_singleton _ x
    | x :: y :: xs =>
        rw [List.length_cons, List.length_cons] at h
        omega
  stable _ := rfl

theorem isStableSort_mergeSort (trans : ∀ x y z, le x y = true → le y z = true → le x z = true)
    (total : ∀ x y, (le x y || le y x) = true) (xs : List α) :
    IsStableSort le xs (xs.mergeSort le) where
  perm := List.mergeSort_perm xs le
  sorted := List.pairwise_mergeSort trans total xs
  stable x := by
    have ties : (xs.filter (tied le x)).Pairwise fun y z => le y z = true := by
      rw [List.pairwise_filter]
      refine List.pairwise_of_forall fun y z hy hz => ?_
      simp only [tied, Bool.and_eq_true] at hy hz
      exact trans _ _ _ hy.2 hz.1
    have kept := (List.sublist_mergeSort trans total ties List.filter_sublist).filter (tied le x)
    simp only [List.filter_filter, Bool.and_self] at kept
    exact (kept.eq_of_length ((List.mergeSort_perm xs le).filter _).length_eq.symm).symm

end

section

variable {order : α → α → Ordering}

theorem Comparison.Lawful.allows_eq (h : compare.Lawful order) (s : σ) :
    compare.allows s = fun x y => order x y != .gt := by
  funext x y
  rw [Comparison.allows, h.answers]
  cases order x y <;> rfl

theorem Comparison.Lawful.total_allows (h : compare.Lawful order) (s : σ) (x y : α) :
    (compare.allows s x y || compare.allows s y x) = true := by
  simpa [h.allows_eq] using h.total x y

theorem Comparison.Lawful.trans_allows (h : compare.Lawful order) (s : σ) (x y z : α)
    (hxy : compare.allows s x y = true) (hyz : compare.allows s y z = true) :
    compare.allows s x z = true := by
  simp only [h.allows_eq, bne_iff_ne] at *
  exact h.trans x y z hxy hyz

/-- The elements that are moved are those that must stand in front of `x`. -/
theorem Comparison.Lawful.moveLess (h : compare.Lawful order) (x : α) (merged ys : List α)
    (s : σ) :
    (moveLess compare x merged ys s).1 =
      (none, (ys.takeWhile fun y => order x y == .gt).reverse ++ merged,
        ys.dropWhile fun y => order x y == .gt) := by
  induction ys generalizing merged s with
  | nil => rfl
  | cons y ys ih =>
      have answer := h.answers x y s
      rw [RingDeque.moveLess]
      generalize compare x y s = outcome at answer
      obtain ⟨reply, s'⟩ := outcome
      subst answer
      cases place : order x y with
      | gt => simpa [List.takeWhile_cons, List.dropWhile_cons, place] using ih (y :: merged) s'
      | lt => simp [place]
      | eq => simp [place]

/-- What a merge puts in front of the first element of the first list. -/
theorem merge_cons (x : α) (xs ys : List α) :
    List.merge (x :: xs) ys (fun x y => order x y != .gt) =
      (ys.takeWhile fun y => order x y == .gt) ++
        x :: List.merge xs (ys.dropWhile fun y => order x y == .gt)
          (fun x y => order x y != .gt) := by
  induction ys with
  | nil => simp
  | cons y ys ih =>
      by_cases place : order x y = .gt
      · rw [List.cons_merge_cons_neg _ _ _ (by simpa using place), ih,
          List.takeWhile_cons_of_pos (by simpa using place),
          List.dropWhile_cons_of_pos (by simpa using place)]
        rfl
      · rw [List.cons_merge_cons_pos _ _ _ (by simpa using place),
          List.takeWhile_cons_of_neg (by simpa using place),
          List.dropWhile_cons_of_neg (by simpa using place)]
        rfl

theorem Comparison.Lawful.merge (h : compare.Lawful order) (merged xs ys : List α) (s : σ) :
    (merge compare merged xs ys s).1 =
      (none, merged.reverse ++ List.merge xs ys fun x y => order x y != .gt) := by
  induction xs generalizing merged ys s with
  | nil => simp [RingDeque.merge]
  | cons x xs ih =>
      have moved := h.moveLess x merged ys s
      rw [RingDeque.merge]
      generalize RingDeque.moveLess compare x merged ys s = outcome at moved
      obtain ⟨reply, s'⟩ := outcome
      subst moved
      rw [ih, merge_cons]
      simp

theorem Comparison.Lawful.sortHalves (h : compare.Lawful order) (xs : List α) {cuts : Nat}
    (hc : xs.length ≤ cuts + 1) (s : σ) :
    ∃ ys, (sortHalves compare cuts xs s).1 = (none, ys) ∧
      IsStableSort (fun x y => order x y != .gt) xs ys := by
  have trans := h.trans_allows s
  have total := h.total_allows s
  rw [h.allows_eq] at trans total
  induction cuts generalizing xs s with
  | zero => exact ⟨xs, rfl, isStableSort_of_length_lt (by omega)⟩
  | succ cuts ih =>
      rw [RingDeque.sortHalves]
      split
      · next short => exact ⟨xs, rfl, isStableSort_of_length_lt short⟩
      · next long =>
          obtain ⟨front, hf, left⟩ := ih (xs.take (xs.length / 2))
            (by rw [List.length_take]; omega) s
          dsimp only
          generalize RingDeque.sortHalves compare cuts (xs.take (xs.length / 2)) s = first at hf
          obtain ⟨reply, s'⟩ := first
          subst hf
          obtain ⟨back, hb, right⟩ := ih (xs.drop (xs.length / 2))
            (by rw [List.length_drop]; omega) s'
          dsimp only
          generalize RingDeque.sortHalves compare cuts (xs.drop (xs.length / 2)) s' = second at hb
          obtain ⟨reply, s''⟩ := second
          subst hb
          have both := left.merge trans total right
          rw [List.take_append_drop] at both
          exact ⟨_, h.merge [] front back s'', both⟩

/-- With a total preorder the sort succeeds and is the stable sort. -/
theorem Comparison.Lawful.sortList (h : compare.Lawful order) (xs : List α) (s : σ) :
    (sortList compare xs s).1 = (none, xs.mergeSort (compare.allows s)) := by
  obtain ⟨ys, hys, sorted⟩ := h.sortHalves xs (Nat.le_succ _) s
  have trans := h.trans_allows s
  have total := h.total_allows s
  rw [h.allows_eq] at trans total ⊢
  rw [RingDeque.sortList, hys, sorted.unique total (isStableSort_mergeSort trans total xs)]

end

end RingDeque

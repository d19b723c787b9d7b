import RingDeque.Deque.Removal

/-!
# What a plan of a removal says

A plan keeps the answers of the predicate as bits, counted from the first element that is to go.
`planOf` makes the plan from a list of answers, and `planRemoval` is that plan for the answers of
the predicate (`planRemoval_eq`), so whoever knows how the predicate is called knows how the plan is
made. Reading the bits gives the answers back (`answers_of_planOf`), whichever words they are in.
-/

namespace RingDeque

variable {α : Type u} {σ : Type v}

/-- The set with the numbers of the answers that are yes. The first answer is about `number`. -/
def marked (doomed : BitSet) (number : Nat) : List Bool → BitSet
  | [] => doomed
  | true :: answers => marked (doomed.insert number) (number + 1) answers
  | false :: answers => marked doomed (number + 1) answers

theorem contains_marked (doomed : BitSet) (number : Nat) (answers : List Bool)
    (words : ∀ i < number + answers.length, i / BitSet.wordBits < doomed.words.size) (i : Nat) :
    (marked doomed number answers).contains i =
      (doomed.contains i || (decide (number ≤ i) && answers[i - number]?.getD false)) := by
  fun_induction marked doomed number answers with
  | case1 doomed number => simp
  | case2 doomed number answers ih =>
      rw [List.length_cons] at words
      rw [ih (fun i hi => by rw [BitSet.size_words_insert]; exact words i (by omega)),
        BitSet.contains_insert _ (words number (by omega))]
      grind
  | case3 doomed number answers ih =>
      rw [List.length_cons] at words
      rw [ih (fun i hi => words i (by omega))]
      grind

namespace Deque

variable {d : Deque α} {plan : RemovalPlan} {index : Nat} {answers : List Bool}

/-- The plan for answers about the elements from `index` on, when those in front of them are to
stay. -/
def planOf (d : Deque α) (index : Nat) : List Bool → Option RemovalPlan
  | [] => none
  | true :: answers =>
    some ⟨d.head, d.tail, index, marked ((BitSet.empty (d.length - index)).insert 0) 1 answers⟩
  | false :: answers => d.planOf (index + 1) answers

theorem planOf_eq_none_iff : d.planOf index answers = none ↔ answers.any id = false := by
  fun_induction planOf d index answers <;> simp_all

theorem place_of_planOf (h : d.planOf index answers = some plan) :
    plan.head = d.head ∧ plan.tail = d.tail := by
  fun_induction planOf d index answers with
  | case1 => cases h
  | case2 index answers =>
      cases h
      exact ⟨rfl, rfl⟩
  | case3 index answers ih => exact ih h

/-- The elements in front of the first that is to go stay, and from there on the bits are the
answers. -/
theorem answers_of_planOf (length : index + answers.length = d.length)
    (h : d.planOf index answers = some plan) :
    ∃ kept, plan.first = index + kept ∧
      answers = List.replicate kept false ++ plan.verdicts (d.length - plan.first) := by
  fun_induction planOf d index answers with
  | case1 => cases h
  | case2 index answers =>
      cases h
      refine ⟨0, rfl, ?_⟩
      rw [List.length_cons] at length
      have words {i : Nat} (hi : i < 1 + answers.length) :
          i / BitSet.wordBits < (BitSet.empty (d.length - index)).words.size :=
        BitSet.div_lt_size_empty (by omega)
      have bit (i : Nat) := contains_marked ((BitSet.empty (d.length - index)).insert 0) 1 answers
        (fun i hi => by rw [BitSet.size_words_insert]; exact words hi) i
      simp only [BitSet.contains_insert _ (words (show 0 < 1 + answers.length by omega)),
        BitSet.contains_empty] at bit
      have count : d.length - index = (true :: answers).length := by
        rw [List.length_cons]
        omega
      apply List.ext_getElem
      · simp [RemovalPlan.verdicts, count]
      · intro i hi _
        cases i with
        | zero => simp [RemovalPlan.verdicts, bit]
        | succ i =>
            rw [List.length_cons, Nat.succ_lt_succ_iff] at hi
            simp [RemovalPlan.verdicts, bit, hi]
  | case3 index answers ih =>
      rw [List.length_cons] at length
      obtain ⟨kept, first, rest⟩ := ih (by omega) h
      refine ⟨kept + 1, by omega, ?_⟩
      rw [List.replicate_succ, List.cons_append, ← rest]

theorem markDoomed_eq (predicate : Callback σ α Bool) (doomed : BitSet) (number : Nat) (xs : List α)
    (s : σ) :
    markDoomed predicate doomed number xs s =
      ((traverse predicate xs s).1.complete.map (marked doomed number),
        (traverse predicate xs s).2) := by
  induction xs generalizing doomed number s with
  | nil => rfl
  | cons x xs ih =>
      rw [markDoomed, traverse_cons]
      rcases predicate x s with ⟨fault | _ | _, s'⟩
      · rfl
      · dsimp only
        rw [ih]
        rcases traverse predicate xs s' with ⟨⟨answers, _ | fault⟩, s''⟩
        · rfl
        · rfl
      · dsimp only
        rw [ih]
        rcases traverse predicate xs s' with ⟨⟨answers, _ | fault⟩, s''⟩
        · rfl
        · rfl

/-- Until the predicate selects an element nothing is written down. From then on every answer is. -/
theorem planFrom_eq (predicate : Callback σ α Bool) (d : Deque α) (index : Nat) (xs : List α)
    (s : σ) :
    d.planFrom predicate index xs s =
      ((traverse predicate xs s).1.complete.map (d.planOf index), (traverse predicate xs s).2) := by
  induction xs generalizing index s with
  | nil => rfl
  | cons x xs ih =>
      rw [planFrom, findDoomed, traverse_cons]
      rcases predicate x s with ⟨fault | _ | _, s'⟩
      · rfl
      · refine (ih (index + 1) s').trans ?_
        dsimp only
        rcases traverse predicate xs s' with ⟨⟨answers, _ | fault⟩, s''⟩
        · rfl
        · rfl
      · dsimp only
        rw [markDoomed_eq]
        rcases traverse predicate xs s' with ⟨⟨answers, _ | fault⟩, s''⟩
        · rfl
        · rfl

theorem planRemoval_eq (predicate : Callback σ α Bool) (d : Deque α) (s : σ) :
    d.planRemoval predicate s =
      ((traverse predicate d.toList s).1.complete.map (d.planOf 0),
        (traverse predicate d.toList s).2) :=
  planFrom_eq predicate d 0 d.toList s

end Deque

end RingDeque

import RingDeque.Proofs.RemovalPlan
import RingDeque.Proofs.Words.Traversal

/-!
# Removing by a predicate on words

The elements are read twice: up to the first one that is to go, and again from the one behind it on.
Both scans count from the front of the deque, so a mark is the difference of two such counts, the
second of which was reached first. The survivors are slid together slot by slot. In the end the
marks are counted, word by word, for the log; there are at most 64 in each.

What a plan says depends on the list of the elements only, and that is how the scans are defined. On
words the traversal that delivers the elements counts too, so here they are scans of a traversal.
-/

namespace RingDeque

namespace BitSet

theorem computes_empty {bound : Nat} (hb : bound < 2 ^ 63) :
    (emptyOnWords bound).Computes (empty bound) := by
  refine .of_inRange ?_ rfl
  unfold emptyOnWords
  split
  · exact .result _
  · refine .add ?_ (.result _)
    rw [wordBits]
    omega

/-- The words have fewer than 64 bits too many. -/
theorem size_words_empty_lt (bound : Nat) : 64 * (empty bound).words.size < bound + 64 := by
  rw [empty_eq, Array.size_replicate, wordBits]
  omega

theorem bitCount_le (word : UInt64) : bitCount word ≤ 64 :=
  Nat.le_trans List.countP_le_length (Nat.le_of_eq List.length_range)

theorem inRange_sum (words : List UInt64) {total : Nat}
    (bound : total + 64 * words.length < 2 ^ 64) : (sumOnWords total words).InRange := by
  induction words generalizing total with
  | nil => exact .result _
  | cons word rest ih =>
      have few := bitCount_le word
      rw [List.length_cons] at bound
      exact .add (by omega) (ih (by omega))

end BitSet

namespace Deque

variable {α : Type u} {σ : Type v} {d : Deque α} {it : RingTraversal α} {xs : List α}
    {plan : RemovalPlan}
variable {predicate : Callback σ α Bool} {first index number count : Nat}

/-- `findDoomed` on words: ask about at most so many elements of a traversal. -/
def findDoomedOnWords (predicate : Callback σ α Bool) :
    Nat → Nat → RingTraversal α → σ → Calculation (Except Fault (Option Nat) × σ)
  | 0, _, _, s => .result (.ok none, s)
  | count + 1, index, it, s =>
    it.nextOnWords.bind fun
    | (none, _) => .result (.ok none, s)
    | (some x, it) =>
      match predicate x s with
      | (.error fault, s) => .result (.error fault, s)
      | (.ok true, s) => .result (.ok (some index), s)
      | (.ok false, s) => .add index 1 fun index => findDoomedOnWords predicate count index it s

/-- `markDoomed` on words: ask about an element with this index, and at most so many in all. -/
def markDoomedOnWords (predicate : Callback σ α Bool) (first : Nat) :
    Nat → Nat → Option α × RingTraversal α → BitSet → σ → Calculation (Except Fault BitSet × σ)
  | 0, _, _, doomed, s => .result (.ok doomed, s)
  | _ + 1, _, (none, _), doomed, s => .result (.ok doomed, s)
  | count + 1, index, (some x, it), doomed, s =>
    .add index 1 fun next =>
    .sub index first fun number =>
    match predicate x s with
    | (.error fault, s) => .result (.error fault, s)
    | (.ok true, s) =>
      it.nextOnWords.bind fun found =>
        markDoomedOnWords predicate first count next found (doomed.insert number) s
    | (.ok false, s) =>
      it.nextOnWords.bind fun found => markDoomedOnWords predicate first count next found doomed s

/-- `planRemoval` on words. The second scan jumps over the elements that the first has settled. -/
def planRemovalOnWords (predicate : Callback σ α Bool) (d : Deque α) (s : σ) :
    Calculation (Except Fault (Option RemovalPlan) × σ) :=
  d.traversalOnWords.bind fun it =>
  (findDoomedOnWords predicate it.remaining 0 it s).bind fun
  | (.error fault, s) => .result (.error fault, s)
  | (.ok none, s) => .result (.ok none, s)
  | (.ok (some first), s) =>
    d.lengthOnWords.bind fun length =>
    .sub length first fun span =>
    (BitSet.emptyOnWords span).bind fun unmarked =>
    d.traversalOnWords.bind fun it =>
    .add first 1 fun behind =>
    (it.nthOnWords behind).bind fun found =>
    (markDoomedOnWords predicate first span behind found (unmarked.insert 0) s).bind fun outcome =>
    .result <|
      match outcome with
      | (.error fault, s) => (.error fault, s)
      | (.ok doomed, s) => (.ok (some ⟨d.head, d.tail, first, doomed⟩), s)

/-- `removeWhere` on words. -/
def removeWhereOnWords (predicate : Callback σ α Bool) (d : Deque α) (s : σ) :
    Calculation ((Except Fault Bool × Deque α) × σ) :=
  (d.planRemovalOnWords predicate s).bind fun
  | (.error fault, s) => .result ((.error fault, d), s)
  | (.ok none, s) => .result ((.ok false, d), s)
  | (.ok (some plan), s) => (d.compactOnWords plan).bind fun d => .result ((.ok true, d), s)

/-- The scan stops at an element of the list, and returns those behind it. -/
theorem split_of_findDoomed {behind : List α} {s s' : σ}
    (h : findDoomed predicate index xs s = (.ok (some (first, behind)), s')) :
    ∃ kept x, xs = kept ++ x :: behind ∧ first = index + kept.length := by
  induction xs generalizing index s with
  | nil => cases h
  | cons x xs ih =>
      rw [findDoomed] at h
      rcases answer : predicate x s with ⟨fault | _ | _, t⟩ <;> rw [answer] at h
      · cases h
      · obtain ⟨kept, y, rest, place⟩ := ih h
        refine ⟨x :: kept, y, by rw [rest]; rfl, ?_⟩
        rw [place, List.length_cons]
        omega
      · cases h
        exact ⟨[], x, rfl, rfl⟩

theorem size_words_of_markDoomed {doomed marked : BitSet} {s s' : σ}
    (h : markDoomed predicate doomed number xs s = (.ok marked, s')) :
    marked.words.size = doomed.words.size := by
  induction xs generalizing doomed number s with
  | nil =>
      cases h
      rfl
  | cons x xs ih =>
      rw [markDoomed] at h
      rcases answer : predicate x s with ⟨fault | _ | _, t⟩ <;> rw [answer] at h
      · cases h
      · exact ih h
      · exact (ih h).trans (BitSet.size_words_insert ..)

theorem computes_findDoomed (predicate : Callback σ α Bool) (left : it.Left xs)
    (hm : it.slots.size < 2 ^ 63) (hi : index + xs.length < 2 ^ 64) (s : σ) :
    (findDoomedOnWords predicate xs.length index it s).Computes
      ((findDoomed predicate index xs s).1.map (Option.map Prod.fst),
      (findDoomed predicate index xs s).2) := by
  induction xs generalizing it index s with
  | nil => exact .result _
  | cons x xs ih =>
      obtain ⟨rest, step, left', size⟩ := left.computes_next hm
      rw [List.length_cons] at hi
      refine step.bind ?_
      rw [findDoomed]
      dsimp only [List.head?_cons]
      rcases predicate x s with ⟨fault | _ | _, t⟩
      · exact .result _
      · exact .add (by omega) (ih left' size (by omega) t)
      · exact .result _

theorem computes_markDoomed (predicate : Callback σ α Bool) (left : it.Left xs.tail)
    (hm : it.slots.size < 2 ^ 63) (hf : first ≤ index) (hi : index + xs.length < 2 ^ 64)
    (hc : xs.length ≤ count) (doomed : BitSet) (s : σ) :
    (markDoomedOnWords predicate first count index (xs.head?, it) doomed s).Computes
      (markDoomed predicate doomed (index - first) xs s) := by
  induction xs generalizing it index count doomed s with
  | nil =>
      cases count with
      | zero => exact .result _
      | succ count => exact .result _
  | cons x xs ih =>
      obtain _ | count := count
      · contradiction
      obtain ⟨rest, step, left', size⟩ := left.computes_next hm
      have number : index - first + 1 = index + 1 - first := by omega
      rw [List.length_cons] at hi hc
      refine .add (by omega) (.sub hf (by omega) ?_)
      rw [markDoomed, number]
      rcases predicate x s with ⟨fault | _ | _, t⟩
      · exact .result _
      · exact step.bind (ih left' size (by omega) (by omega) (by omega) doomed t)
      · exact step.bind (ih left' size (by omega) (by omega) (by omega) _ t)

theorem WellFormed.computes_planRemoval (h : d.WellFormed) (hm : d.slotCount < 2 ^ 63)
    (predicate : Callback σ α Bool) (s : σ) :
    (d.planRemovalOnWords predicate s).Computes (d.planRemoval predicate s) := by
  have length := h.length_lt
  have left := h.holds.left_traversal
  have room := (h.inside_traversal hm).size_lt
  have count : d.toList.length = d.length := h.holds.length_eq.symm
  have scan :=
    computes_findDoomed predicate left room (show 0 + d.toList.length < 2 ^ 64 by omega) s
  unfold planRemovalOnWords planRemoval planFrom
  refine (h.computes_traversal hm).bind ?_
  rw [left.remaining_eq]
  refine scan.bind ?_
  rcases stop : findDoomed predicate 0 d.toList s with ⟨fault | _ | ⟨first, behind⟩, t⟩
  · exact .result _
  · exact .result _
  obtain ⟨kept, x, split, place⟩ := split_of_findDoomed stop
  rw [Nat.zero_add] at place
  have rest : d.toList.drop (first + 1) = behind := by
    rw [split, place, ← List.drop_drop, List.drop_left]
    rfl
  have few : first + behind.length + 1 = d.length := by
    rw [← count, split, place, List.length_append, List.length_cons]
    rfl
  obtain ⟨it, jump, left', size⟩ := left.computes_nth room (first + 1)
  rw [← List.head?_drop, rest] at jump
  rw [← List.tail_drop, rest] at left'
  have marks := computes_markDoomed predicate left' size (Nat.le_add_right first 1)
    (show first + 1 + behind.length < 2 ^ 64 by omega)
    (show behind.length ≤ d.length - first by omega)
    ((BitSet.empty (d.length - first)).insert 0) t
  refine (h.computes_length hm).bind (.sub (by omega) (by omega) ?_)
  refine (BitSet.computes_empty (by omega)).bind
    ((h.computes_traversal hm).bind (.add (by omega) ?_))
  refine jump.bind (marks.bind ?_)
  rw [Nat.add_sub_cancel_left]
  exact .result _

/-- The first mark of a plan is about an element, and it has no more words than it needs. -/
theorem WellFormed.bounds_of_planRemoval (h : d.WellFormed) {s s' : σ}
    (hp : d.planRemoval predicate s = (.ok (some plan), s')) :
    plan.first < d.length ∧ 64 * plan.doomed.words.size < d.length + 64 := by
  have count : d.toList.length = d.length := h.holds.length_eq.symm
  unfold planRemoval planFrom at hp
  rcases stop : findDoomed predicate 0 d.toList s with ⟨fault | _ | ⟨first, behind⟩, t⟩ <;>
    rw [stop] at hp
  · cases hp
  · cases hp
  dsimp only at hp
  rcases answer : markDoomed predicate ((BitSet.empty (d.length - first)).insert 0) 1 behind t with
    ⟨fault | doomed, t'⟩ <;> rw [answer] at hp
  · cases hp
  obtain ⟨kept, x, split, place⟩ := split_of_findDoomed stop
  have size := size_words_of_markDoomed answer
  have few := BitSet.size_words_empty_lt (d.length - first)
  rw [split, List.length_append, List.length_cons] at count
  rw [BitSet.size_words_insert] at size
  cases hp
  dsimp only
  constructor
  · omega
  · omega

theorem computes_slide {slots : Slots α} {write read m : Nat} (size : slots.size = m)
    (hm : m < 2 ^ 63) (hw : write < m) (hr : read < m) (doomed : List Bool) :
    (slideOnWords slots write read doomed).Computes (slide slots write read doomed) := by
  refine .of_inRange ?_ rfl
  induction doomed generalizing slots write read with
  | nil => exact .result _
  | cons goes doomed ih =>
      subst size
      have next := Circle.next_lt hr
      cases goes with
      | true => exact .bind (Circle.computes_next hr hm) (ih (Slots.size_put ..) hw next)
      | false =>
          refine .bind (Circle.computes_next hw hm) (.bind (Circle.computes_next hr hm) ?_)
          exact ih (Slots.size_swap ..) (Circle.next_lt hw) next

theorem WellFormed.computes_compact (h : d.WellFormed) (hm : d.slotCount < 2 ^ 63)
    (hf : plan.first ≤ d.length) (words : 64 * plan.doomed.words.size < d.length + 64) :
    (d.compactOnWords plan).Computes (d.compact plan) := by
  have length := h.length_lt
  have start : d.position plan.first < d.slotCount := Circle.forward_lt h.head_lt (by omega)
  have few : 0 + 64 * plan.doomed.words.toList.length < 2 ^ 64 := by
    rw [Array.length_toList]
    omega
  refine .of_inRange (.bind (h.computes_length hm) (.sub hf (by omega) ?_)) rfl
  refine .bind (h.computes_position hm (by omega)) ?_
  refine .bind (computes_slide rfl hm start start _) ?_
  exact .bind (.of_inRange (BitSet.inRange_sum _ few) rfl) (.result _)

/-- Whatever the predicate answers, and whether it fails or not. -/
theorem WellFormed.computes_removeWhere (h : d.WellFormed) (hm : d.slotCount < 2 ^ 63)
    (predicate : Callback σ α Bool) (s : σ) :
    (d.removeWhereOnWords predicate s).Computes (d.removeWhere predicate s) := by
  refine (h.computes_planRemoval hm predicate s).bind ?_
  unfold removeWhere
  rcases answer : d.planRemoval predicate s with ⟨fault | _ | plan, t⟩
  · exact .result _
  · exact .result _
  · obtain ⟨first, words⟩ := h.bounds_of_planRemoval answer
    exact (h.computes_compact hm (Nat.le_of_lt first) words).bind (.result _)

end Deque

end RingDeque

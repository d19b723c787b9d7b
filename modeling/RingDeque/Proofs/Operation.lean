import RingDeque.Proofs.Removal
import RingDeque.Proofs.Sort

/-!
# Operations and what they do to a list

`Operation` names a call with its arguments. `run` makes the call on a deque and `onList` says what
the call means for the list of elements: what it returns, and the list afterwards. A list can always
be made longer, so the two agree as long as the allocator provides the slots that a call asks for.
`Served` is that condition. A call that is not served is refused and leaves the deque as it was.
-/

namespace RingDeque

variable {σ : Type u} {α : Type v}

/-- A call on a deque. Callbacks come with the state in which they start. -/
inductive Operation (σ : Type u) (α : Type v) where
  | pushFront (x : α)
  | pushBack (x : α)
  | popFront
  | popBack
  | insert (index : Nat) (x : α)
  | removeAt (index : Nat)
  | set (index : Nat) (x : α)
  | get (index : Nat)
  | lookup (index : Nat)
  | insertAll (index : Nat) (source : Trace α)
  | addAll (source : Trace α)
  | removeWhere (predicate : Callback σ α Bool) (s : σ)
  | retain (predicate : Callback σ α Bool) (s : σ)
  | sortBy (compare : Comparison σ α) (s : σ)
  | trimToSize
  | ensureCapacity (capacity : Nat)
  | replaceAll (operator : Callback σ α α) (s : σ)
  | clear

/-- What a call returns. Callbacks that see every element once also show the state in which they
were left. -/
inductive Answer (σ : Type u) (α : Type v) where
  | done (result : Except Fault Unit)
  | found (x? : Option α)
  | element (result : Except Error α)
  | allowed (result : Except Error Unit)
  | changed (result : Except Fault (Except Error Bool))
  | asked (result : Except Fault Bool) (s : σ)
  | replaced (result : Except Fault Unit) (s : σ)

/-- The error that a call returned. -/
def Answer.error? : Answer σ α → Option Error
  | .element (.error e) | .allowed (.error e) | .changed (.ok (.error e)) => some e
  | _ => none

/-- Whether the answer tells of this error, as a fault if the call must not fail. -/
def Answer.Refuses (answer : Answer σ α) (e : Error) : Prop :=
  answer.error? = some e ∨ answer = .done (.error (.refused e)) ∨
    answer = .changed (.error (.refused e))

namespace Operation

/-- Make the call on a deque. -/
def run (a : Allocator) : Operation σ α → Deque α → Answer σ α × Deque α
  | .pushFront x, d => let (result, d) := d.pushFront a x; (.done result, d)
  | .pushBack x, d => let (result, d) := d.pushBack a x; (.done result, d)
  | .popFront, d => let (x?, d) := d.popFront; (.found x?, d)
  | .popBack, d => let (x?, d) := d.popBack; (.found x?, d)
  | .insert index x, d => let (result, d) := d.insert a index x; (.allowed result, d)
  | .removeAt index, d => let (result, d) := d.removeAt index; (.element result, d)
  | .set index x, d => let (result, d) := d.set index x; (.element result, d)
  | .get index, d => (.element (d.get index), d)
  | .lookup index, d => (.found (d.get? index), d)
  | .insertAll index source, d =>
    let (result, d) := d.insertAll a index source; (.changed result, d)
  | .addAll source, d => let (result, d) := d.addAll a source; (.changed (result.map .ok), d)
  | .removeWhere predicate s, d =>
    let ((result, d), s) := d.removeWhere predicate s; (.asked result s, d)
  | .retain predicate s, d => let ((result, d), s) := d.retain predicate s; (.asked result s, d)
  | .sortBy compare s, d => let ((result, d), _) := d.sortBy compare s; (.done result, d)
  | .trimToSize, d => (.done (.ok ()), d.trimToSize a)
  | .ensureCapacity capacity, d =>
    let (result, d) := d.ensureCapacity a capacity; (.allowed result, d)
  | .replaceAll operator s, d =>
    let ((result, d), s) := d.replaceAll operator s; (.replaced result s, d)
  | .clear, d => (.done (.ok ()), d.clear)

/-- What the call means for the list of elements. -/
def onList : Operation σ α → List α → Answer σ α × List α
  | .pushFront x, xs => (.done (.ok ()), x :: xs)
  | .pushBack x, xs => (.done (.ok ()), xs ++ [x])
  | .popFront, xs => (.found xs.head?, xs.tail)
  | .popBack, xs => (.found xs.getLast?, xs.dropLast)
  | .insert index x, xs =>
    if xs.length < index then
      (.allowed (.error (.indexOutOfBounds index xs.length)), xs)
    else
      (.allowed (.ok ()), xs.insertIdx index x)
  | .removeAt index, xs =>
    match xs[index]? with
    | some x => (.element (.ok x), xs.eraseIdx index)
    | none => (.element (.error (.indexOutOfBounds index xs.length)), xs)
  | .set index x, xs =>
    match xs[index]? with
    | some y => (.element (.ok y), xs.set index x)
    | none => (.element (.error (.indexOutOfBounds index xs.length)), xs)
  | .get index, xs =>
    match xs[index]? with
    | some x => (.element (.ok x), xs)
    | none => (.element (.error (.indexOutOfBounds index xs.length)), xs)
  | .lookup index, xs => (.found xs[index]?, xs)
  | .insertAll index source, xs =>
    if xs.length < index then
      (.changed (.ok (.error (.indexOutOfBounds index xs.length))), xs)
    else
      match source.complete with
      | .ok ys => (.changed (.ok (.ok (!ys.isEmpty))), xs.take index ++ ys ++ xs.drop index)
      | .error fault => (.changed (.error fault), xs)
  | .addAll source, xs =>
    match source.complete with
    | .ok ys => (.changed (.ok (.ok (!ys.isEmpty))), xs ++ ys)
    | .error fault => (.changed (.error fault), xs)
  | .removeWhere predicate s, xs =>
    let (answers, s) := traverse predicate xs s
    match answers.complete with
    | .ok doomed => (.asked (.ok (doomed.any id)) s, survivors doomed xs)
    | .error fault => (.asked (.error fault) s, xs)
  | .retain predicate s, xs =>
    let (answers, s) := traverse predicate xs s
    match answers.complete with
    | .ok kept => (.asked (.ok (kept.any (!·))) s, survivors (kept.map (!·)) xs)
    | .error fault => (.asked (.error fault) s, xs)
  | .sortBy compare s, xs => (.done (.ok ()), xs.mergeSort (compare.allows s))
  | .trimToSize, xs => (.done (.ok ()), xs)
  | .ensureCapacity _, xs => (.allowed (.ok ()), xs)
  | .replaceAll operator s, xs =>
    let (answers, s) := traverse operator xs s
    (.replaced (answers.complete.map fun _ => ()) s,
      answers.values ++ xs.drop answers.values.length)
  | .clear, _ => (.done (.ok ()), [])

/-- The slots that the call needs are there or are granted. -/
def Served (a : Allocator) : Operation σ α → Deque α → Prop
  | .pushFront _, d | .pushBack _, d => d.Room a (d.length + 1)
  | .insert index _, d => index ≤ d.length → d.Room a (d.length + 1)
  | .insertAll index source, d =>
    index ≤ d.length → source.fault = none → d.Room a (d.length + source.values.length)
  | .addAll source, d => source.fault = none → d.Room a (d.length + source.values.length)
  | .ensureCapacity capacity, d => capacity < wordMax ∧ d.Room a capacity
  | _, _ => True

/-- A comparison that is passed to a sort is a total preorder. -/
def Lawful : Operation σ α → Prop
  | .sortBy compare _ => ∃ order, compare.Lawful order
  | _ => True

theorem error?_onList (op : Operation σ α) (xs : List α) :
    (op.onList xs).1.error? ≠ some .concurrentModification := by
  cases op with
  | insert | removeAt | set | get | addAll =>
      rw [onList]
      split <;> simp [Answer.error?]
  | insertAll index source =>
      rw [onList]
      split
      · simp [Answer.error?]
      · split <;> simp [Answer.error?]
  | removeWhere | retain =>
      simp only [onList]
      split <;> simp [Answer.error?]
  | _ => simp [onList, Answer.error?]

end Operation

/-- Asking for the opposite gives the opposite answers. -/
theorem traverse_negated (predicate : Callback σ α Bool) (xs : List α) (s : σ) :
    traverse (Deque.negated predicate) xs s =
      let (answers, s) := traverse predicate xs s
      (⟨answers.values.map (!·), answers.fault⟩, s) := by
  rw [Deque.negated_eq_map, traverse_map]

namespace Deque

variable {a : Allocator} {d : Deque α} {xs : List α}

theorem Holds.insertAll (h : d.Holds xs) (index : Nat) (source : Trace α)
    (hr : index ≤ xs.length → source.fault = none → d.Room a (xs.length + source.values.length)) :
    ∃ d', d.insertAll a index source =
        ((if xs.length < index then .ok (.error (.indexOutOfBounds index xs.length))
          else source.complete.map fun ys => .ok (!ys.isEmpty)), d') ∧
      d'.Holds (if xs.length < index then xs
        else match source.complete with
          | .ok ys => xs.take index ++ ys ++ xs.drop index
          | .error _ => xs) := by
  rw [Deque.insertAll_eq, outOfBounds, h.length_eq]
  split
  · exact ⟨d, rfl, h⟩
  · next inside =>
      obtain ⟨ys, fault⟩ := source
      cases fault with
      | some fault => exact ⟨d, rfl, h⟩
      | none =>
          obtain ⟨d', hd', holds⟩ := h.insertRange ys (Nat.le_of_not_lt inside)
            (hr (Nat.le_of_not_lt inside) rfl)
          exact ⟨d', by simp only [Trace.complete, hd']; rfl, holds⟩

theorem Holds.addAll (h : d.Holds xs) (source : Trace α)
    (hr : source.fault = none → d.Room a (xs.length + source.values.length)) :
    ∃ d', d.addAll a source = (source.complete.map fun ys => !ys.isEmpty, d') ∧
      d'.Holds (match source.complete with
        | .ok ys => xs ++ ys
        | .error _ => xs) := by
  rw [Deque.addAll, tryAddAll_eq, h.length_eq]
  obtain ⟨ys, fault⟩ := source
  cases fault with
  | some fault => exact ⟨d, rfl, h⟩
  | none =>
      obtain ⟨d', hd', holds⟩ := h.insertRange ys (Nat.le_refl _) (hr rfl)
      rw [List.take_length, List.drop_length, List.append_nil] at holds
      exact ⟨d', by simp only [Trace.complete, hd']; rfl, holds⟩

/-- One call: deque and list return the same and stay together. -/
theorem Holds.run (h : d.Holds xs) (op : Operation σ α) (hl : op.Lawful) (hs : op.Served a d) :
    ∃ d', op.run a d = ((op.onList xs).1, d') ∧ d'.Holds (op.onList xs).2 := by
  cases op with
  | pushFront x =>
      rw [Operation.Served, h.length_eq] at hs
      obtain ⟨d', hd', holds⟩ := h.tryPushFront (x := x) hs
      exact ⟨d', by rw [Operation.run, pushFront, hd']; rfl, holds⟩
  | pushBack x =>
      rw [Operation.Served, h.length_eq] at hs
      obtain ⟨d', hd', holds⟩ := h.tryPushBack (x := x) hs
      exact ⟨d', by rw [Operation.run, pushBack, hd']; rfl, holds⟩
  | popFront =>
      obtain ⟨d', hd', holds⟩ := h.popFront
      exact ⟨d', by rw [Operation.run, hd']; rfl, holds⟩
  | popBack =>
      obtain ⟨d', hd', holds⟩ := h.popBack
      exact ⟨d', by rw [Operation.run, hd']; rfl, holds⟩
  | insert index x =>
      rw [Operation.onList]
      split
      · next outside =>
          exact ⟨d, by rw [Operation.run, h.insert_outOfBounds outside], h⟩
      · next inside =>
          rw [Operation.Served, h.length_eq] at hs
          have within := Nat.le_of_not_lt inside
          obtain ⟨d', hd', holds⟩ := h.insert (x := x) within (hs within)
          exact ⟨d', by rw [Operation.run, hd'], holds⟩
  | removeAt index =>
      obtain ⟨d', hd', holds⟩ := h.removeAt index
      rw [Operation.run, hd', Operation.onList]
      cases place : xs[index]? with
      | some x => exact ⟨d', rfl, holds⟩
      | none =>
          rw [List.eraseIdx_of_length_le (List.getElem?_eq_none_iff.1 place)] at holds
          exact ⟨d', rfl, holds⟩
  | set index x =>
      obtain ⟨d', hd', holds⟩ := h.set (x := x) index
      rw [Operation.run, hd', Operation.onList]
      cases place : xs[index]? with
      | some x => exact ⟨d', rfl, holds⟩
      | none =>
          rw [List.set_eq_of_length_le (List.getElem?_eq_none_iff.1 place)] at holds
          exact ⟨d', rfl, holds⟩
  | get index =>
      rw [Operation.run, h.get, Operation.onList]
      cases xs[index]? <;> exact ⟨d, rfl, h⟩
  | lookup index => exact ⟨d, by rw [Operation.run, h.get?_eq]; rfl, h⟩
  | insertAll index source =>
      rw [Operation.Served, h.length_eq] at hs
      obtain ⟨d', hd', holds⟩ := h.insertAll index source hs
      rw [Operation.run, hd', Operation.onList]
      split at holds
      · next outside =>
          simp only [if_pos outside]
          exact ⟨d', rfl, holds⟩
      · next inside =>
          simp only [if_neg inside]
          cases read : source.complete with
          | ok ys => exact ⟨d', rfl, by rwa [read] at holds⟩
          | error fault => exact ⟨d', rfl, by rwa [read] at holds⟩
  | addAll source =>
      rw [Operation.Served, h.length_eq] at hs
      obtain ⟨d', hd', holds⟩ := h.addAll source hs
      rw [Operation.run, hd', Operation.onList]
      cases read : source.complete with
      | ok ys => exact ⟨d', rfl, by rwa [read] at holds⟩
      | error fault => exact ⟨d', rfl, by rwa [read] at holds⟩
  | removeWhere predicate s =>
      obtain ⟨d', hd', holds⟩ := h.removeWhere predicate s
      rw [Operation.run, hd', Operation.onList]
      dsimp only
      cases read : (traverse predicate xs s).1.complete with
      | ok doomed => exact ⟨d', rfl, by rwa [read] at holds⟩
      | error fault => exact ⟨d', rfl, by rwa [read] at holds⟩
  | retain predicate s =>
      obtain ⟨d', hd', holds⟩ := h.removeWhere (negated predicate) s
      rw [Operation.run, Deque.retain, hd', Operation.onList]
      rw [traverse_negated] at holds ⊢
      generalize traverse predicate xs s = outcome at holds ⊢
      obtain ⟨⟨kept, fault⟩, s'⟩ := outcome
      cases fault with
      | some fault => exact ⟨d', rfl, holds⟩
      | none =>
          refine ⟨d', ?_, holds⟩
          simp only [Trace.complete, Except.map, List.any_map]
          rfl
  | sortBy compare s =>
      obtain ⟨order, lawful⟩ := hl
      obtain ⟨d', hd', holds⟩ := h.sortBy compare s
      rw [lawful.sortList] at hd' holds
      exact ⟨d', by rw [Operation.run, hd']; rfl, holds⟩
  | trimToSize => exact ⟨_, rfl, h.trimToSize⟩
  | ensureCapacity capacity =>
      obtain ⟨d', hd', holds, -⟩ := h.ensureCapacity hs.1 hs.2
      exact ⟨d', by rw [Operation.run, hd']; rfl, holds⟩
  | replaceAll operator s =>
      obtain ⟨d', hd', holds⟩ := h.replaceAll operator s
      exact ⟨d', by rw [Operation.run, hd']; rfl, holds⟩
  | clear => exact ⟨_, rfl, h.clear⟩

/-- A call that is not served tells of the missing slots and changes nothing. -/
theorem Holds.run_refused (h : d.Holds xs) (op : Operation σ α) (hs : ¬op.Served a d) :
    ∃ e answer, NoRoom e ∧ op.run a d = (answer, d) ∧ answer.Refuses e := by
  cases op with
  | pushFront x =>
      rw [Operation.Served, h.length_eq] at hs
      obtain ⟨e, he, hd'⟩ := h.tryPushFront_refused (x := x) hs
      exact ⟨e, _, he, by rw [Operation.run, pushFront, hd']; rfl, .inr (.inl rfl)⟩
  | pushBack x =>
      rw [Operation.Served, h.length_eq] at hs
      obtain ⟨e, he, hd'⟩ := h.tryPushBack_refused (x := x) hs
      exact ⟨e, _, he, by rw [Operation.run, pushBack, hd']; rfl, .inr (.inl rfl)⟩
  | insert index x =>
      rw [Operation.Served, h.length_eq, Classical.not_imp] at hs
      obtain ⟨e, he, hd'⟩ := h.insert_refused (x := x) hs.1 hs.2
      exact ⟨e, _, he, by rw [Operation.run, hd'], .inl rfl⟩
  | insertAll index source =>
      rw [Operation.Served, h.length_eq, Classical.not_imp, Classical.not_imp] at hs
      obtain ⟨inside, read, room⟩ := hs
      obtain ⟨e, he, hd'⟩ := h.insertRange_refused index room
      refine ⟨e, .changed (.ok (.error e)), he, ?_, .inl rfl⟩
      rw [Operation.run, Deque.insertAll_eq, h.length_eq, if_neg (by omega)]
      simp only [Trace.complete, read, hd']
  | addAll source =>
      rw [Operation.Served, h.length_eq, Classical.not_imp] at hs
      obtain ⟨e, he, hd'⟩ := h.insertRange_refused xs.length hs.2
      refine ⟨e, _, he, ?_, .inr (.inr rfl)⟩
      rw [Operation.run, Deque.addAll, tryAddAll_eq, h.length_eq]
      simp only [Trace.complete, hs.1, hd']
      rfl
  | ensureCapacity capacity =>
      obtain ⟨e, he, hd'⟩ := ensureCapacity_of_not_room hs
      exact ⟨e, _, he, by rw [Operation.run, hd'], .inl rfl⟩
  | _ => exact (hs trivial).elim

/-- Whatever is called, whether or not it is served and however a comparison behaves, the deque
holds a list. No call finds that the deque has changed. -/
theorem Holds.run_any (h : d.Holds xs) (op : Operation σ α) :
    ∃ ys, (op.run a d).2.Holds ys ∧ (op.run a d).1.error? ≠ some .concurrentModification := by
  by_cases hs : op.Served a d
  · by_cases hl : op.Lawful
    · obtain ⟨d', hd', holds⟩ := h.run op hl hs
      rw [hd']
      exact ⟨_, holds, op.error?_onList xs⟩
    · cases op with
      | sortBy compare s =>
          obtain ⟨d', hd', holds⟩ := h.sortBy compare s
          rw [Operation.run, hd']
          exact ⟨_, holds, by simp [Answer.error?]⟩
      | _ => exact (hl trivial).elim
  · obtain ⟨e, answer, ⟨requested, rfl⟩, hd', refuses⟩ := h.run_refused op hs
    rw [hd']
    refine ⟨xs, h, ?_⟩
    rcases refuses with returned | rfl | rfl
    · simp [returned]
    · simp [Answer.error?]
    · simp [Answer.error?]

end Deque

end RingDeque

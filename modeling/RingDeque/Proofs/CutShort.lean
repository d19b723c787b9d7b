import RingDeque.Deque.Visit
import RingDeque.Proofs.Iterators
import RingDeque.Proofs.StableFilter
import RingDeque.Proofs.StaleCursor

/-!
# Operations cut short by a callback

A callback that fails ends the operation which called it, and what is left depends on what the
operation had done by then. `FailsAt` says at which call that is: it holds of a run exactly if the
run ends in a fault.

The operations that only look, or that read all their input before they write, leave the deque as it
was. `replaceAll` has written the answers of the calls before; `replaceEach` is the same operation
with its writes one by one, between the calls. A two-way cursor stands in front of the element that
the failing call was about.
-/

namespace RingDeque

variable {α : Type u} {β : Type w} {γ : Type x} {σ : Type v}

/-- `f` is called on the elements of a list in turn. The call with this number, counted from zero,
fails; the ones before it gave the answers. The two states are those before the first call and after
the last one. -/
inductive Callback.FailsAt (f : Callback σ α β) : Nat → List α → σ → List β → Fault → σ → Prop where
  | here {x : α} {xs : List α} {s s' : σ} {fault : Fault} (call : f x s = (.error fault, s')) :
      FailsAt f 0 (x :: xs) s [] fault s'
  | later {k : Nat} {x : α} {xs : List α} {s s₁ s' : σ} {y : β} {answers : List β} {fault : Fault}
      (call : f x s = (.ok y, s₁)) (rest : FailsAt f k xs s₁ answers fault s') :
      FailsAt f (k + 1) (x :: xs) s (y :: answers) fault s'

namespace Callback

variable {f : Callback σ α β} {k : Nat} {xs : List α} {s s' : σ} {answers : List β} {fault : Fault}

/-- Every run that ends in a fault fails at the call behind those that were answered. -/
theorem failsAt_iff : f.FailsAt k xs s answers fault s' ↔
    traverse f xs s = (⟨answers, some fault⟩, s') ∧ answers.length = k := by
  constructor
  · intro h
    induction h with
    | here call => exact ⟨by rw [traverse_cons, call], rfl⟩
    | later call rest ih =>
        rw [traverse_cons, call]
        dsimp only
        rw [ih.1]
        exact ⟨rfl, congrArg (· + 1) ih.2⟩
  · rintro ⟨run, rfl⟩
    induction xs generalizing s answers with
    | nil => cases run
    | cons x xs ih =>
        rw [traverse_cons] at run
        rcases call : f x s with ⟨_ | y, s₁⟩
        · rw [call] at run
          cases run
          exact .here call
        · rw [call] at run
          dsimp only at run
          rcases rest : traverse f xs s₁ with ⟨⟨values, fault'⟩, s₂⟩
          rw [rest] at run
          cases run
          exact .later call (ih rest)

theorem FailsAt.traverse_eq (h : f.FailsAt k xs s answers fault s') :
    traverse f xs s = (⟨answers, some fault⟩, s') :=
  (failsAt_iff.1 h).1

theorem FailsAt.length_answers (h : f.FailsAt k xs s answers fault s') : answers.length = k :=
  (failsAt_iff.1 h).2

theorem FailsAt.lt_length (h : f.FailsAt k xs s answers fault s') : k < xs.length := by
  induction h with
  | here call => exact Nat.zero_lt_succ _
  | later call rest ih => exact Nat.succ_lt_succ ih

/-- What is done to the answers does not matter to the call that gives none. -/
theorem FailsAt.map (h : f.FailsAt k xs s answers fault s') (g : β → γ) :
    (f.map g).FailsAt k xs s (answers.map g) fault s' := by
  rw [failsAt_iff, traverse_map, h.traverse_eq]
  exact ⟨rfl, by rw [List.length_map, h.length_answers]⟩

end Callback

namespace Deque

variable {d d' : Deque α} {xs : List α}

/-! ### Comparing with several values -/

/-- A value is compared with an element if none of the values before it equals that element. -/
theorem occursInBy_eq_error_iff {equal : Equality σ α} {values : List α} {x : α} {s s' : σ}
    {fault : Fault} : occursInBy equal values x s = (.error fault, s') ↔
      ∃ j, Callback.FailsAt (fun v => equal v x) j values s (List.replicate j false) fault s' := by
  induction values generalizing s with
  | nil =>
      constructor
      · nofun
      · nofun
  | cons v values ih =>
      rw [occursInBy]
      constructor
      · intro failed
        rcases call : equal v x s with ⟨_ | _ | _, s₁⟩
        · rw [call] at failed
          cases failed
          exact ⟨0, .here call⟩
        · rw [call] at failed
          obtain ⟨j, fails⟩ := ih.1 failed
          exact ⟨j + 1, .later call fails⟩
        · rw [call] at failed
          cases failed
      · rintro ⟨j, fails⟩
        cases j with
        | zero =>
            cases fails with
            | here call => rw [call]
        | succ j =>
            cases fails with
            | later call fails =>
                rw [call]
                exact ih.2 ⟨j, fails⟩

/-! ### Replacing -/

/-- Replace the elements in the given slots one after the other, each as soon as `operator` has
given the answer for it. -/
def replaceEach (operator : Callback σ α α) :
    List Nat → Deque α → σ → (Except Fault Unit × Deque α) × σ
  | [], d, s => ((.ok (), d), s)
  | p :: slots, d, s =>
    match d.slot p with
    | none => replaceEach operator slots d s
    | some x =>
      match operator x s with
      | (.error fault, s) => ((.error fault, d), s)
      | (.ok y, s) => replaceEach operator slots (d.replaceSlot p y).2 s

/-- The answers take the places of the first elements. Every other slot holds what it held, and the
layout is the same. -/
structure FirstReplaced (answers : List α) (d d' : Deque α) : Prop where
  wellFormed : d'.WellFormed
  toList_eq : d'.toList = answers ++ d.toList.drop answers.length
  head_eq : d'.head = d.head
  tail_eq : d'.tail = d.tail
  slotCount_eq : d'.slotCount = d.slotCount
  slot_replaced : ∀ k < answers.length, d'.slot (d.position k) = answers[k]?
  slot_kept : ∀ p, (∀ k < answers.length, p ≠ d.position k) → d'.slot p = d.slot p

theorem head_replaceAll (operator : Callback σ α α) (d : Deque α) (s : σ) :
    (d.replaceAll operator s).1.2.head = d.head := by
  rw [replaceAll]
  rcases traverse operator d.toList s with ⟨⟨answers, _ | fault⟩, s'⟩ <;> rfl

/-- In between two calls the answers that were given have been written, and the elements behind them
are untouched. -/
theorem Holds.replaceEach {done rest : List α} (h : d.Holds (done ++ rest))
    (operator : Callback σ α α) (s : σ) :
    ∃ d', replaceEach operator ((List.range' done.length rest.length).map d.position) d s =
        (((traverse operator rest s).1.complete.map fun _ => (), d'),
          (traverse operator rest s).2) ∧
      d'.Holds (done ++ ((traverse operator rest s).1.values ++
        rest.drop (traverse operator rest s).1.values.length)) ∧
      d'.head = d.head ∧ d'.slotCount = d.slotCount := by
  induction rest generalizing done d s with
  | nil => exact ⟨d, rfl, h, rfl, rfl⟩
  | cons x rest ih =>
      have inside : done.length < d.slotCount := by
        have length := h.length_lt
        rw [List.length_append] at length
        omega
      have here : (done ++ x :: rest)[done.length]? = some x := by simp
      rw [List.length_cons, List.range'_succ, List.map_cons, Deque.replaceEach,
        h.slot_position inside, here, traverse_cons]
      dsimp only
      rcases operator x s with ⟨fault | y, s₁⟩
      · exact ⟨d, rfl, h, rfl, rfl⟩
      · obtain ⟨d₁, written, h₁⟩ := h.replaceSlot (x := y) inside
        obtain ⟨head, -, size⟩ := d.layout_replaceSlot (d.position done.length) y
        have replaced : (done ++ x :: rest).set done.length y = (done ++ [y]) ++ rest := by simp
        rw [written] at head size
        rw [replaced] at h₁
        have position := position_congr head size
        obtain ⟨d', run, h', head', size'⟩ := ih h₁ s₁
        rw [List.length_append, List.length_singleton, position] at run
        rw [List.append_assoc] at h'
        dsimp only
        rw [written, run]
        generalize traverse operator rest s₁ = outcome at h' ⊢
        obtain ⟨⟨answers, _ | fault⟩, s'⟩ := outcome
        · exact ⟨d', rfl, h', head'.trans head, size'.trans size⟩
        · exact ⟨d', rfl, h', head'.trans head, size'.trans size⟩

/-- Writing each answer before the next call, to the slots of the writing iterator, comes to the
same as writing all that were given. -/
theorem replaceAll_eq_replaceEach (h : d.WellFormed) (operator : Callback σ α α) (s : σ) :
    d.replaceAll operator s = replaceEach operator (Traversal.toList d.slotTraversal) d s := by
  have slots : Traversal.toList d.slotTraversal = (List.range d.length).map d.position :=
    SlotTraversal.mirrors.toList h.holds.slots_slotTraversal
  have head := head_replaceAll operator d s
  have size := slotCount_replaceAll operator d s
  obtain ⟨d₁, all, h₁⟩ := h.holds.replaceAll operator s
  have start : d.Holds ([] ++ d.toList) := h.holds
  obtain ⟨d₂, each, h₂, head', size'⟩ := start.replaceEach operator s
  rw [all] at head size
  rw [List.length_nil, ← h.holds.length_eq, ← List.range_eq_range', ← slots] at each
  rw [all, each, h₁.ext h₂ (head.trans head'.symm) (size.trans size'.symm)]

theorem Holds.firstReplaced (h : d.Holds xs) {answers : List α} (fewer : answers.length ≤ xs.length)
    (h' : d'.Holds (answers ++ xs.drop answers.length)) (head : d'.head = d.head)
    (size : d'.slotCount = d.slotCount) : FirstReplaced answers d d' := by
  have length := h.length_lt
  have total : (answers ++ xs.drop answers.length).length = xs.length := by
    rw [List.length_append, List.length_drop]
    omega
  have position := position_congr head size
  have content {k} (hk : k < d.slotCount) :
      d'.slot (d.position k) = (answers ++ xs.drop answers.length)[k]? := by
    rw [← position, h'.slot_position (by rwa [size])]
  refine ⟨h'.wellFormed, ?_, head, ?_, size, ?_, ?_⟩
  · rw [h'.toList_eq, h.toList_eq]
  · rw [h'.tail_eq, h.tail_eq, total, head, size]
  · intro k hk
    rw [content (by omega), List.getElem?_append_left hk]
  · intro p apart
    by_cases hp : p < d.slotCount
    · obtain ⟨k, hk, place⟩ := Circle.exists_forward h.head_lt hp
      obtain rfl : p = d.position k := place
      have behind : answers.length ≤ k := Nat.le_of_not_lt fun early => apart k early rfl
      rw [h.slot_position hk, content hk, List.getElem?_append_right behind,
        List.getElem?_drop, Nat.add_sub_cancel' behind]
    · rw [slot_eq_none_of_le (Nat.le_of_not_lt hp),
        slot_eq_none_of_le (by rw [size]; exact Nat.le_of_not_lt hp)]

end Deque

/-! ### Cursors -/

theorem Gap.list_past (g : Gap α) (n : Nat) : (g.past n).list = g.list := by
  cases n <;> rfl

theorem Gap.place_past (g : Gap α) (n : Nat) : (g.past n).place = g.place + n := by
  cases n <;> rfl

namespace TwoWayCursor

/-- The cursor stands in front of the element at `index`, and from there a run of a callback sees
that one and all those behind it. -/
structure RestsAt (σ : Type v) (index : Nat) (d : Deque α) (c : TwoWayCursor) : Prop where
  agrees : c.agrees d = true
  nextIndex_eq : c.nextIndex = index
  next_eq : ∃ x, d.toList[index]? = some x ∧ (c.next d).1 = .ok x
  resumes : ∀ (action : Callback σ α Unit) (s : σ), ∃ c',
    c.forEachRemaining action d s =
      (((traverse action (d.toList.drop index) s).1.complete.map fun _ => .ok (), c'),
        (traverse action (d.toList.drop index) s).2)

/-- A gap in front of an element. -/
theorem restsAt_cursorOn {g : Gap α} {d : Deque α} (h : g.On d) (inside : g.place < g.list.length) :
    (g.cursorOn d).RestsAt σ g.place d := by
  refine ⟨g.agrees_cursorOn d, h.nextIndex, ⟨g.list[g.place], ?_, ?_⟩, fun action s => ?_⟩
  · rw [h.holds.toList_eq, List.getElem?_eq_getElem inside]
  · rw [h.next.1, Gap.element_of_lt inside]
  · rw [h.holds.toList_eq]
    exact ⟨_, (h.forEachRemaining action s).1⟩

/-- The calls that were answered are behind the cursor, the one that failed is not. -/
theorem Reached.forEachRemaining_of_failsAt {c : TwoWayCursor} {d : Deque α}
    (reached : Reached.{w, u} c) (h : d.WellFormed) (agrees : c.agrees d = true)
    {action : Callback σ α Unit} {k : Nat} {s s' : σ} {answers : List Unit} {fault : Fault}
    (fails : action.FailsAt k (d.toList.drop c.nextIndex) s answers fault s') :
    ∃ c', c.forEachRemaining action d s = ((.error fault, c'), s') ∧
      c'.RestsAt σ (c.nextIndex + k) d := by
  obtain ⟨β, g, e, on, rfl⟩ := reached.placed
  obtain ⟨here, same⟩ := on.on_of_agrees h.holds agrees
  rw [same] at fails ⊢
  rw [here.nextIndex] at fails ⊢
  obtain rfl := fails.length_answers
  obtain ⟨run, on'⟩ := here.forEachRemaining action s
  rw [fails.traverse_eq] at run on'
  have inside := fails.lt_length
  rw [List.length_drop] at inside
  have rests : RestsAt σ _ d _ := restsAt_cursorOn on' (by
    rw [Gap.place_past, Gap.list_past]
    exact Nat.add_lt_of_lt_sub' inside)
  rw [Gap.place_past] at rests
  exact ⟨_, run, rests⟩

end TwoWayCursor

/-- Whichever call of a callback fails, or whatever read of a source: the operations that remove or
insert many elements leave the deque as it was, `replaceAll` leaves the answers that it had in the
first places and everything else as it was, and a run of a cursor leaves the deque alone. A two-way
cursor rests in front of the element whose call failed. -/
theorem Deque.WellFormed.cut_short {d : Deque α} (h : d.WellFormed) (a : Allocator) :
    (∀ (predicate : Callback σ α Bool) k s answers fault s',
      predicate.FailsAt k d.toList s answers fault s' →
        d.removeWhere predicate s = ((.error fault, d), s') ∧
          d.retain predicate s = ((.error fault, d), s')) ∧
    (∀ (equal : Equality σ α) values k s answers fault s',
      (occursInBy equal values).FailsAt k d.toList s answers fault s' →
        d.removeAllBy equal values s = ((.error fault, d), s') ∧
          d.retainAllBy equal values s = ((.error fault, d), s')) ∧
    (∀ (equal : Equality σ α) values x s fault s',
      occursInBy equal values x s = (.error fault, s') ↔
        ∃ j, Callback.FailsAt (fun v => equal v x) j values s (List.replicate j false) fault s') ∧
    (∀ (source : Trace α) fault, source.fault = some fault →
      d.addAll a source = (.error fault, d) ∧
        d.tryAddAll a source = (.error fault, d) ∧
        ∀ index ≤ d.length, d.insertAll a index source = (.error fault, d)) ∧
    (∀ (operator : Callback σ α α) s,
      d.replaceAll operator s = replaceEach operator (Traversal.toList d.slotTraversal) d s) ∧
    (∀ (operator : Callback σ α α) k s answers fault s',
      operator.FailsAt k d.toList s answers fault s' →
        ∃ d', d.replaceAll operator s = ((.error fault, d'), s') ∧
          answers.length = k ∧ FirstReplaced answers d d') ∧
    (∀ (c : OneWayCursor) (action : Callback σ α Unit) s,
      (c.call (.forEachRemaining action s) d).2.2 = d) ∧
    (∀ (p : Pass α) (c : OneWayCursor) (action : Callback σ α Unit) k s answers fault s',
      p.On c d → action.FailsAt k p.ahead s answers fault s' →
        ∃ c', c.call (.forEachRemaining action s) d = (.visited (.error fault) s', c', d)) ∧
    ∀ (c : TwoWayCursor) (action : Callback σ α Unit) k s answers fault s',
      TwoWayCursor.Reached.{w, u} c → c.agrees d = true →
        action.FailsAt k (d.toList.drop c.nextIndex) s answers fault s' →
          ∃ c', c.call (.forEachRemaining action s) d = (.visited (.error fault) s', c', d) ∧
            c'.RestsAt σ (c.nextIndex + k) d := by
  have untouched {predicate : Callback σ α Bool} {k s answers fault s'}
      (fails : predicate.FailsAt k d.toList s answers fault s') :
      d.removeWhere predicate s = ((.error fault, d), s') ∧
        d.removeWhere (negated predicate) s = ((.error fault, d), s') := by
    refine ⟨h.holds.removeWhere_of_fault predicate s fails.traverse_eq, ?_⟩
    rw [negated_eq_map]
    exact h.holds.removeWhere_of_fault _ s (fails.map not).traverse_eq
  refine ⟨fun predicate k s answers fault s' fails => untouched fails,
    fun equal values k s answers fault s' fails => untouched fails,
    fun equal values x s fault s' => occursInBy_eq_error_iff, ?_,
    fun operator s => replaceAll_eq_replaceEach h operator s, ?_, fun _ _ _ => rfl, ?_, ?_⟩
  · intro source fault failed
    have incomplete : source.complete = .error fault := by rw [Trace.complete, failed]
    have refused : d.tryAddAll a source = (.error fault, d) := by rw [tryAddAll_eq, incomplete]
    refine ⟨by rw [addAll, refused], refused, fun index inside => ?_⟩
    rw [insertAll_eq, if_neg (Nat.not_lt_of_le inside), incomplete]
  · intro operator k s answers fault s' fails
    have head := head_replaceAll operator d s
    have size := slotCount_replaceAll operator d s
    obtain ⟨d', replaced, holds⟩ := h.holds.replaceAll operator s
    have count := fails.length_answers
    rw [replaced] at head size
    rw [fails.traverse_eq] at replaced holds
    refine ⟨d', replaced, count, h.holds.firstReplaced ?_ holds head size⟩
    rw [count]
    exact Nat.le_of_lt fails.lt_length
  · intro p c action k s answers fault s' on fails
    obtain ⟨c', run, -, -⟩ := on.forEachRemaining action s
    rw [fails.traverse_eq] at run
    exact ⟨c', by rw [OneWayCursor.call, run]; rfl⟩
  · intro c action k s answers fault s' reached agrees fails
    obtain ⟨c', run, rests⟩ := reached.forEachRemaining_of_failsAt h agrees fails
    exact ⟨c', by rw [TwoWayCursor.call, run], rests⟩

/-- Elements on both sides of the end of the buffer. A callback fails when it is called for the
third time. -/
theorem Deque.WellFormed.cut_short_wrapped :
    let d : Deque Nat := ⟨#[some 3, some 4, none, some 1, some 2], 3, 2⟩
    let even : Callback Nat Nat Bool := fun x calls =>
      (if calls = 2 then .error .callback else .ok (x % 2 == 0), calls + 1)
    let equal : Equality Nat Nat := fun v x calls =>
      (if calls = 2 then .error .callback else .ok (v == x), calls + 1)
    let tenfold : Callback Nat Nat Nat := fun x calls =>
      (if calls = 2 then .error .callback else .ok (10 * x), calls + 1)
    let action : Callback Nat Nat Unit := fun _ calls =>
      (if calls = 2 then .error .callback else .ok (), calls + 1)
    let c : TwoWayCursor := ⟨4, 3, 2, 5, some 3⟩
    d.WellFormed ∧
      d.removeWhere even 0 = ((.error .callback, d), 3) ∧
      d.retainAllBy equal [3, 1] 0 = ((.error .callback, d), 3) ∧
      d.addAll (.bounded 8 100) ⟨[5, 6], some .callback⟩ = (.error .callback, d) ∧
      (∃ d', d.replaceAll tenfold 0 = ((.error .callback, d'), 3) ∧
        d'.toList = [10, 20, 3, 4]) ∧
      (∃ c', d.cursor.call (.forEachRemaining action 0) d =
        (.visited (.error .callback) 3, c', d)) ∧
      ∃ c', c.call (.forEachRemaining action 1) d = (.visited (.error .callback) 3, c', d) ∧
        c'.RestsAt Nat 2 d := by
  intro d even equal tenfold action c
  have ordered : d.WellFormed := isWellFormed_iff.1 (by decide)
  have start : TwoWayCursor.Reached.{0, 0} ⟨3, 3, 2, 5, none⟩ :=
    .setUp ordered (show d.cursorAt 0 = .ok _ from rfl)
  have moved : TwoWayCursor.Reached.{0, 0} c :=
    start.called ordered (.next : TwoWayCursor.Call Unit Nat)
  have list : d.toList = [1, 2, 3, 4] := by decide
  obtain ⟨remove, values, compare, source, -, replace, -, oneWay, twoWay⟩ :=
    cut_short (σ := Nat) ordered (.bounded 8 100)
  refine ⟨ordered, ?_, ?_, (source _ _ rfl).1, ?_, ?_, ?_⟩
  · have fails : even.FailsAt 2 d.toList 0 [false, true] .callback 3 := by
      rw [list]
      exact .later rfl (.later rfl (.here rfl))
    exact (remove _ _ _ _ _ _ fails).1
  · have third : occursInBy equal [3, 1] 2 2 = (.error .callback, 3) :=
      (compare _ _ _ _ _ _).2 ⟨0, .here rfl⟩
    have fails : (occursInBy equal [3, 1]).FailsAt 1 d.toList 0 [true] .callback 3 := by
      rw [list]
      exact .later rfl (.here third)
    exact (values _ _ _ _ _ _ _ fails).2
  · have fails : tenfold.FailsAt 2 d.toList 0 [10, 20] .callback 3 := by
      rw [list]
      exact .later rfl (.later rfl (.here rfl))
    obtain ⟨d', replaced, -, first⟩ := replace _ _ _ _ _ _ fails
    exact ⟨d', replaced, by rw [first.toList_eq, list]; rfl⟩
  · have ahead : Direction.forward.arrange d.toList = [1, 2, 3, 4] := list
    have fails : action.FailsAt 2 (Direction.forward.arrange d.toList) 0 [(), ()] .callback 3 := by
      rw [ahead]
      exact .later rfl (.later rfl (.here rfl))
    exact oneWay _ _ _ _ _ _ _ _ (Pass.on_start ordered .forward) fails
  · have fails : action.FailsAt 1 (d.toList.drop c.nextIndex) 1 [()] .callback 3 := by
      rw [list]
      exact .later rfl (.here rfl)
    exact twoWay _ _ _ _ _ _ _ moved (by decide) fails

end RingDeque

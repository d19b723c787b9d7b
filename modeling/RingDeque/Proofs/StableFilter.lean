import RingDeque.Proofs.BufferSize

/-!
# Removal is a stable filter in place

`Filtered` says what is left of a deque after each of its elements has been judged once, front to
back: the elements that may stay, in their old order, from the old front slot on and in the old
buffer. Those in front of the first one that goes have not been moved. `Filters` says it of an
operation that asks a predicate. The predicate may remember what it was asked, so a copy of it that
writes down its calls tells how often and in which order it was called.
-/

namespace RingDeque

variable {α : Type u} {β : Type v} {σ : Type w}

/-- `f`, which also writes down the calls that it answers, the latest last. -/
def Callback.recorded (f : Callback σ α β) : Callback (σ × List (α × β)) α β := fun x (s, calls) =>
  match f x s with
  | (.error fault, s) => (.error fault, (s, calls))
  | (.ok y, s) => (.ok y, (s, calls ++ [(x, y)]))

theorem traverse_recorded (f : Callback σ α β) (xs : List α) (s : σ) (calls : List (α × β)) :
    traverse f.recorded xs (s, calls) =
      ((traverse f xs s).1,
        ((traverse f xs s).2, calls ++ xs.zip (traverse f xs s).1.values)) := by
  induction xs generalizing s calls with
  | nil => simp
  | cons x xs ih =>
      rw [traverse_cons, traverse_cons, Callback.recorded]
      rcases f x s with ⟨fault | y, s'⟩
      · simp
      · dsimp only
        rw [ih, List.zip_cons_cons, List.append_assoc, List.singleton_append]

/-- A fault comes from the call behind those that were answered. -/
theorem exists_call_of_fault (f : Callback σ α β) (xs : List α) (s : σ) {values : List β}
    {fault : Fault} {s' : σ} (h : traverse f xs s = (⟨values, some fault⟩, s')) :
    ∃ x behind before, xs = (xs.zip values).map Prod.fst ++ x :: behind ∧
      f x before = (.error fault, s') := by
  induction xs generalizing s values with
  | nil => cases h
  | cons x xs ih =>
      rw [traverse_cons] at h
      rcases call : f x s with ⟨fault' | y, s₁⟩
      · rw [call] at h
        cases h
        exact ⟨x, xs, s, rfl, call⟩
      · rw [call] at h
        dsimp only at h
        rcases rest : traverse f xs s₁ with ⟨⟨values', fault'⟩, s₂⟩
        rw [rest] at h
        cases h
        obtain ⟨x', behind, before, place, call'⟩ := ih s₁ rest
        refine ⟨x', behind, before, ?_, call'⟩
        rw [List.zip_cons_cons, List.map_cons, List.cons_append, ← place]

theorem survivors_eq_filter (doomed : List Bool) (xs : List α) :
    survivors doomed xs = ((xs.zip doomed).filter fun verdict => !verdict.2).map Prod.fst := by
  fun_induction survivors doomed xs with
  | case1 doomed x xs ih => simpa using ih
  | case2 doomed x xs ih => simpa using ih
  | case3 doomed xs no no' =>
      cases doomed with
      | nil => rw [List.zip_nil_right]; rfl
      | cons gone doomed =>
          cases xs with
          | nil => rfl
          | cons x xs =>
              cases gone with
              | true => exact (no _ _ _ rfl rfl).elim
              | false => exact (no' _ _ _ rfl rfl).elim

namespace Deque

variable {d d' : Deque α} {xs : List α}

/-- `d'` is what is left of `d` when the elements whose verdict is yes have gone. -/
structure Filtered (verdicts : List (α × Bool)) (d : Deque α) (changed : Bool) (d' : Deque α) :
    Prop where
  /-- Each element was judged once, front to back. -/
  judged : verdicts.map Prod.fst = d.toList
  changed_iff : changed = true ↔ ∃ verdict ∈ verdicts, verdict.2 = true
  wellFormed : d'.WellFormed
  toList_eq : d'.toList = (verdicts.filter fun verdict => !verdict.2).map Prod.fst
  slotCount_eq : d'.slotCount = d.slotCount
  head_eq : d'.head = d.head
  /-- The elements in front of the first that goes stay in their slots. -/
  settled : ∀ k < d.length, (∀ verdict ∈ verdicts.take (k + 1), verdict.2 = false) →
    d'.slot (d.position k) = d.slot (d.position k)
  free : ∀ p < d'.slotCount, d'.length ≤ Circle.steps d'.head p d'.slotCount → d'.slot p = none
  unchanged : changed = false → d' = d

/-- An operation on `d` that asks `predicate`, and then removes the elements for which `goes` holds
of the answer. `plain` is what it does, and `recorded` what it does with a copy of the predicate
that writes down its calls. -/
structure Filters (goes : Bool → Bool) (d : Deque α) (predicate : Callback σ α Bool)
    (plain : (Except Fault Bool × Deque α) × σ)
    (recorded : (Except Fault Bool × Deque α) × σ × List (α × Bool)) : Prop where
  same : plain = (recorded.1, recorded.2.1)
  done : ∀ changed d' s' calls, recorded = ((.ok changed, d'), (s', calls)) →
    Filtered (calls.map fun call => (call.1, goes call.2)) d changed d'
  /-- The only fault is one of the predicate, and then nothing is removed. -/
  failed : ∀ fault d' s' calls, recorded = ((.error fault, d'), (s', calls)) →
    d' = d ∧ ∃ x behind before, d.toList = calls.map Prod.fst ++ x :: behind ∧
      predicate x before = (.error fault, s')

/-- Removal in its two phases, the plan and its execution. -/
def removeByPlan (predicate : Callback σ α Bool) (d : Deque α) (s : σ) :
    (Except Fault Bool × Deque α) × σ :=
  match d.planRemoval predicate s with
  | (.error fault, s) => ((.error fault, d), s)
  | (.ok none, s) => ((.ok false, d), s)
  | (.ok (some plan), s) =>
    match d.expunge plan with
    | (.error error, d) => ((.error (.refused error), d), s)
    | (.ok (), d) => ((.ok true, d), s)

/-- On the deque that was asked about, a plan is carried out. -/
theorem removeByPlan_eq (predicate : Callback σ α Bool) (d : Deque α) (s : σ) :
    d.removeByPlan predicate s = d.removeWhere predicate s := by
  rw [removeByPlan, removeWhere, planRemoval_eq]
  rcases (traverse predicate d.toList s).1.complete with fault | answers
  · rfl
  · dsimp only [Except.map]
    cases plan : d.planOf 0 answers with
    | none => rfl
    | some plan =>
        obtain ⟨head, tail⟩ := place_of_planOf plan
        dsimp only
        rw [expunge, if_pos ⟨head, tail⟩]

theorem head_removeWhere (predicate : Callback σ α Bool) (d : Deque α) (s : σ) :
    (d.removeWhere predicate s).1.2.head = d.head := by
  rw [removeWhere]
  split
  · rfl
  · rfl
  · exact head_compact ..

/-- Only the elements, the first slot and the number of slots need to be looked at. -/
theorem Holds.filtered (h : d.Holds xs) {verdicts : List (α × Bool)}
    (judged : verdicts.map Prod.fst = xs)
    (h' : d'.Holds ((verdicts.filter fun verdict => !verdict.2).map Prod.fst))
    (head : d'.head = d.head) (size : d'.slotCount = d.slotCount) :
    Filtered verdicts d (verdicts.any Prod.snd) d' where
  judged := judged.trans h.toList_eq.symm
  changed_iff := List.any_eq_true
  wellFormed := h'.wellFormed
  toList_eq := h'.toList_eq
  slotCount_eq := size
  head_eq := head
  settled := by
    intro k hk kept
    rw [h.length_eq] at hk
    have inside : k < d.slotCount := Nat.lt_trans hk h.length_lt
    have place : d.position k = d'.position k := (congrFun (position_congr head size) k).symm
    have stay :
      (verdicts.take (k + 1)).filter (fun verdict => !verdict.2) = verdicts.take (k + 1) :=
      List.filter_eq_self.2 fun verdict mem => by rw [kept verdict mem]; rfl
    have halves : verdicts.filter (fun verdict => !verdict.2) =
        verdicts.take (k + 1) ++ (verdicts.drop (k + 1)).filter fun verdict => !verdict.2 := by
      rw [← stay, ← List.filter_append, List.take_append_drop]
    rw [h.slot_position inside, place, h'.slot_position (size ▸ inside), halves, ← judged]
    rw [← judged, List.length_map] at hk
    rw [List.map_append,
      List.getElem?_append_left (by rw [List.length_map, List.length_take]; omega), List.map_take,
      List.getElem?_take_of_lt (Nat.lt_succ_self k)]
  free := by
    intro p hp beyond
    rw [h'.length_eq] at beyond
    rw [h'.slot_eq hp, List.getElem?_eq_none beyond]
  unchanged := by
    intro same
    have stay : verdicts.filter (fun verdict => !verdict.2) = verdicts :=
      List.filter_eq_self.2 fun verdict mem => by
        rw [Bool.eq_false_iff.2 (List.any_eq_false.1 same verdict mem)]
        rfl
    rw [stay, judged] at h'
    exact h'.ext h head size

/-- What is left is determined by the verdicts. -/
theorem Filtered.unique {verdicts : List (α × Bool)} {changed changed' : Bool} {d₁ d₂ : Deque α}
    (h : Filtered verdicts d changed d₁) (h' : Filtered verdicts d changed' d₂) : d₁ = d₂ := by
  have holds := h.wellFormed.holds
  have holds' := h'.wellFormed.holds
  rw [h.toList_eq, ← h'.toList_eq] at holds
  exact holds.ext holds' (h.head_eq.trans h'.head_eq.symm)
    (h.slotCount_eq.trans h'.slotCount_eq.symm)

/-- What is removed, and that the others keep the buffer and its front slot. -/
theorem Holds.removeWhere_inPlace (h : d.Holds xs) (predicate : Callback σ α Bool) (s : σ) :
    ∃ d', d.removeWhere predicate s =
        (((traverse predicate xs s).1.complete.map fun doomed => doomed.any id, d'),
          (traverse predicate xs s).2) ∧
      d'.Holds (match (traverse predicate xs s).1.complete with
        | .ok doomed => survivors doomed xs
        | .error _ => xs) ∧
      d'.head = d.head ∧ d'.slotCount = d.slotCount := by
  obtain ⟨d', done, holds⟩ := h.removeWhere predicate s
  have head := head_removeWhere predicate d s
  have size := slotCount_removeWhere predicate d s
  rw [done] at head size
  exact ⟨d', done, holds, head, size⟩

/-- What a predicate that fails nowhere selects is removed. -/
theorem Holds.filtered_removeWhere (h : d.Holds xs) (predicate : Callback σ α Bool) (s : σ)
    {answers : List Bool} {s' : σ} (run : traverse predicate xs s = (⟨answers, none⟩, s')) :
    ∃ d', d.removeWhere predicate s = ((.ok (answers.any id), d'), s') ∧
      Filtered (xs.zip answers) d (answers.any id) d' := by
  obtain ⟨d', done, h', head, size⟩ := h.removeWhere_inPlace predicate s
  have length := (length_traverse predicate xs s).2
  rw [run] at done h' length
  have any : (xs.zip answers).any Prod.snd = answers.any id := by
    have seconds : (xs.zip answers).map Prod.snd = answers :=
      List.map_snd_zip (Nat.le_of_eq (length rfl))
    rw [← seconds, List.any_map, seconds]
    rfl
  refine ⟨d', done, ?_⟩
  rw [← any]
  refine h.filtered (List.map_fst_zip (Nat.le_of_eq (length rfl).symm)) ?_ head size
  rwa [← survivors_eq_filter]

/-- A predicate that fails leaves the deque alone. -/
theorem Holds.removeWhere_of_fault (h : d.Holds xs) (predicate : Callback σ α Bool) (s : σ)
    {answers : List Bool} {fault : Fault} {s' : σ}
    (run : traverse predicate xs s = (⟨answers, some fault⟩, s')) :
    d.removeWhere predicate s = ((.error fault, d), s') := by
  obtain ⟨d', done, h', head, size⟩ := h.removeWhere_inPlace predicate s
  rw [run] at done h'
  rw [done, h'.ext h head size]
  rfl

theorem Holds.filters (h : d.Holds xs) (goes : Bool → Bool) (predicate : Callback σ α Bool)
    (s : σ) :
    Filters goes d predicate (d.removeWhere (predicate.map goes) s)
      (d.removeWhere (predicate.recorded.map goes) (s, [])) := by
  have plain := traverse_map goes predicate xs s
  have recorded := traverse_map goes predicate.recorded xs (s, [])
  rw [traverse_recorded, List.nil_append] at recorded
  rcases run : traverse predicate xs s with ⟨⟨answers, _ | fault⟩, s'⟩
  · rw [run] at plain recorded
    obtain ⟨d₁, plain, filtered⟩ := h.filtered_removeWhere _ _ plain
    obtain ⟨d₂, recorded, filtered'⟩ := h.filtered_removeWhere _ _ recorded
    obtain rfl := filtered.unique filtered'
    rw [plain, recorded]
    refine ⟨rfl, ?_, ?_⟩
    · rintro changed d' s'' calls ⟨⟩
      rwa [List.zip_map_right] at filtered
    · rintro fault d' s'' calls ⟨⟩
  · rw [run] at plain recorded
    obtain ⟨x, behind, before, place, call⟩ := exists_call_of_fault predicate xs s run
    rw [h.removeWhere_of_fault _ _ plain, h.removeWhere_of_fault _ _ recorded]
    refine ⟨rfl, ?_, ?_⟩
    · rintro changed d' s'' calls ⟨⟩
    · rintro fault' d' s'' calls ⟨⟩
      exact ⟨rfl, x, behind, before, h.toList_eq.trans place, call⟩

/-- The predicate is called once for each element, front to back, unless it fails, and then the
deque stays as it was. The elements that it selects go; the others keep their order, the buffer and
its front slot, and up to the first that goes also their slots. So do the elements that `retain`
keeps and those that are in a list or not, and it is the same in two phases. -/
theorem filters_removeWhere [BEq α] (h : d.WellFormed) (predicate : Callback σ α Bool) (s : σ)
    (values : List α) :
    Filters id d predicate (d.removeWhere predicate s) (d.removeWhere predicate.recorded (s, [])) ∧
    d.removeByPlan predicate s = d.removeWhere predicate s ∧
    Filters not d predicate (d.retain predicate s) (d.retain predicate.recorded (s, [])) ∧
    (∃ changed d', d.removeAll values = (.ok changed, d') ∧
      Filtered (d.toList.map fun x => (x, values.any (· == x))) d changed d') ∧
    ∃ changed d', d.retainAll values = (.ok changed, d') ∧
      Filtered (d.toList.map fun x => (x, !values.any (· == x))) d changed d' := by
  have pure (test : α → Bool) : ∃ changed d',
      d.removeWhere (Callback.pure test) () = ((.ok changed, d'), ()) ∧
        Filtered (d.toList.map fun x => (x, test x)) d changed d' := by
    obtain ⟨d', done, filtered⟩ :=
      h.holds.filtered_removeWhere (Callback.pure test) () (traverse_pure test d.toList ())
    rw [← List.map_prod_left_eq_zip] at filtered
    exact ⟨_, d', done, filtered⟩
  refine ⟨?_, removeByPlan_eq predicate d s, ?_, ?_, ?_⟩
  · have filters := h.holds.filters id predicate s
    rwa [Callback.map_id, Callback.map_id] at filters
  · rw [retain, retain, negated_eq_map, negated_eq_map]
    exact h.holds.filters not predicate s
  · obtain ⟨changed, d', done, filtered⟩ := pure (occursIn values)
    exact ⟨changed, d', by rw [removeAll_eq, done], filtered⟩
  · obtain ⟨changed, d', done, filtered⟩ := pure fun x => !occursIn values x
    exact ⟨changed, d', by rw [retainAll_eq, done], filtered⟩

/-- Elements on both sides of the end of the buffer, and a predicate that counts its calls and
selects at every second one. -/
theorem filters_removeWhere_alternating :
    let d : Deque Nat := ⟨#[some 3, some 4, some 5, none, none, some 1, some 2], 5, 3⟩
    let alternating : Callback Nat Nat Bool := fun _ calls => (.ok (calls % 2 == 1), calls + 1)
    d.WellFormed ∧
      Filters id d alternating (d.removeWhere alternating 0)
        (d.removeWhere alternating.recorded (0, [])) ∧
      d.removeByPlan alternating 0 = d.removeWhere alternating 0 ∧
      (d.removeWhere alternating 0).1.2 =
        ⟨#[some 5, none, none, none, none, some 1, some 3], 5, 1⟩ ∧
      (d.removeWhere alternating.recorded (0, [])).2 =
        (5, [(1, false), (2, true), (3, false), (4, true), (5, false)]) := by
  intro d alternating
  have ordered : d.WellFormed := isWellFormed_iff.1 (by decide)
  obtain ⟨filters, two_phases, -⟩ := filters_removeWhere ordered alternating 0 []
  refine ⟨ordered, filters, two_phases, ?_, ?_⟩
  · decide +kernel
  · decide +kernel

/-- The last of these elements is in the second word of the plan, and the one in front of it in the
first. -/
example :
    ((Deque.mk ((Array.range 66).map some |>.push none) 0 66).retain
      (Callback.pure fun x => x % 64 != 1) ()).1.2.toList = (List.range 65).erase 1 := by
  decide +kernel

end Deque

end RingDeque

import RingDeque.Proofs.BufferSize

/-!
# What an extension adds

An extension reserves room for as many elements as its source claims to have, and then adds one by
one those that the source delivers. The claim may be wrong in either direction. A source that has
more than it claimed makes the additions grow the buffer as they go, and one of them may be refused;
a read of the source may fail at any point. `Extension` says what comes of it: either nothing was
read, or the deque has got the elements that were delivered up to there.

`extendStages` are the states that the deque goes through on the way. They show what a claim is good
for: if the source delivers no more than it claimed, then no addition grows the buffer.
-/

namespace RingDeque.Deque

variable {α : Type u} {a : Allocator} {d d' : Deque α} {xs ys : List α} {claimed : Nat}

/-- How many elements an extension makes room for. -/
def reservation (claimed : Nat) (d : Deque α) : Nat :=
  min (d.length + claimed) wordMax

/-- The deque before the additions of `xs`, and after each of them up to the first that is
refused. -/
def pushStages (a : Allocator) : List α → Deque α → List (Deque α)
  | [], d => [d]
  | x :: xs, d =>
    d :: match d.tryPushBack a x with
      | (.ok (), d) => d.pushStages a xs
      | (.error _, d) => [d]

/-- The deque before an extension, after the reservation, and after each addition. -/
def extendStages (a : Allocator) (claimed : Nat) (source : Trace α) (d : Deque α) :
    List (Deque α) :=
  d :: match d.ensureCapacity a (d.reservation claimed) with
    | (.ok (), d) => d.pushStages a source.values
    | (.error _, d) => [d]

/-- The reservation is granted. -/
def Reserves (a : Allocator) (claimed : Nat) (d : Deque α) : Prop :=
  d.reservation claimed < wordMax ∧ d.Room a (d.reservation claimed)

/-- How an extension of `d` ends: with which answer, which rest of the source unread, and which
deque. -/
inductive Extension (a : Allocator) (claimed : Nat) (source : Trace α) (d : Deque α) :
    Except Fault Unit × Trace α × Deque α → Prop where
  /-- There was no room for what the source claimed to have. -/
  | refused (requested : Nat) (short : ¬d.Reserves a claimed) :
      Extension a claimed source d (.error (.refused (.capacityOverflow requested)), source, d)
  /-- The source was read to its end, or up to the read that failed. -/
  | delivered (d' : Deque α) (reserves : d.Reserves a claimed)
      (elements : d'.toList = d.toList ++ source.values) :
      Extension a claimed source d (source.complete.map fun _ => (), ⟨[], none⟩, d')
  /-- The elements in front of `x` were added; for `x` there was no room. -/
  | full (taken : List α) (x : α) (rest : List α) (requested : Nat) (d' : Deque α)
      (reserves : d.Reserves a claimed) (values : source.values = taken ++ x :: rest)
      (elements : d'.toList = d.toList ++ taken)
      (last : d'.tryPushBack a x = (.error (.capacityOverflow requested), d')) :
      Extension a claimed source d
        (.error (.refused (.capacityOverflow requested)), ⟨rest, source.fault⟩, d')

/-- A reservation is granted, and then the buffer is large enough and is still the old one if that
was; or nothing changes. -/
theorem Holds.reserve (h : d.Holds xs) (a : Allocator) (claimed : Nat) :
    (∃ d₁, d.ensureCapacity a (d.reservation claimed) = (.ok (), d₁) ∧ d.Reserves a claimed ∧
      d₁.Holds xs ∧ xs.length + claimed ≤ d₁.capacity ∧
      (d.length + claimed ≤ d.capacity → d₁ = d)) ∨
    ∃ requested, d.ensureCapacity a (d.reservation claimed) =
      (.error (.capacityOverflow requested), d) ∧ ¬d.Reserves a claimed := by
  by_cases reserves : d.Reserves a claimed
  · obtain ⟨d₁, ensured, holds, enough⟩ := h.ensureCapacity reserves.1 reserves.2
    have whole : d.reservation claimed = d.length + claimed :=
      Nat.min_eq_left (Nat.le_of_lt (Nat.lt_of_not_le fun beyond =>
        Nat.ne_of_lt reserves.1 (Nat.min_eq_right beyond)))
    refine .inl ⟨d₁, ensured, reserves, holds, by rwa [← h.length_eq, ← whole], fun fits => ?_⟩
    have occupied := h.slotCount_pos
    rw [← whole, capacity] at fits
    rw [Deque.ensureCapacity_eq, if_neg (Nat.not_le_of_lt reserves.1), if_neg (by omega)] at ensured
    exact (congrArg Prod.snd ensured).symm
  · obtain ⟨e, ⟨requested, rfl⟩, refused⟩ := ensureCapacity_of_not_room reserves
    exact .inr ⟨requested, refused, reserves⟩

theorem Holds.extension (h : d.Holds xs) (a : Allocator) (claimed : Nat) (source : Trace α) :
    Extension a claimed source d (d.extend a claimed source) := by
  rw [Deque.extend_eq, ← reservation]
  obtain ⟨d₁, ensured, reserves, holds, -⟩ | ⟨requested, refused, short⟩ := h.reserve a claimed
  · rw [ensured]
    dsimp only
    obtain ⟨d', pushed, holds'⟩ |
      ⟨e, taken, x, rest, d', ⟨requested, rfl⟩, values, pushed, holds', last⟩ :=
      holds.pushAll (a := a) source.values
    · rw [pushed]
      have delivered : Extension a claimed source d
          (source.complete.map fun _ => (), ⟨[], none⟩, d') :=
        .delivered d' reserves (by rw [holds'.toList_eq, h.toList_eq])
      rw [Trace.complete] at delivered
      cases fault : source.fault with
      | none =>
          rw [fault] at delivered
          exact delivered
      | some fault' =>
          rw [fault] at delivered
          exact delivered
    · rw [pushed]
      exact .full taken x rest requested d' reserves values
        (by rw [holds'.toList_eq, h.toList_eq]) last
  · rw [refused]
    exact .refused requested short

/-- After any number of additions the deque has a beginning of the new elements. -/
theorem Holds.holds_of_mem_pushStages (h : d.Holds xs) (mem : d' ∈ d.pushStages a ys) :
    ∃ taken, taken <+: ys ∧ d'.Holds (xs ++ taken) := by
  induction ys generalizing d xs with
  | nil =>
      rw [pushStages, List.mem_singleton] at mem
      exact ⟨[], List.prefix_refl _, by simpa [mem] using h⟩
  | cons y ys ih =>
      rw [pushStages, List.mem_cons] at mem
      obtain rfl | mem := mem
      · exact ⟨[], List.nil_prefix, by simpa using h⟩
      by_cases room : d.Room a (xs.length + 1)
      · obtain ⟨d₁, pushed, holds⟩ := h.tryPushBack (x := y) room
        rw [pushed] at mem
        obtain ⟨taken, beginning, holds'⟩ := ih holds mem
        exact ⟨y :: taken, List.cons_prefix_cons.2 ⟨rfl, beginning⟩, by simpa using holds'⟩
      · obtain ⟨e, -, refused⟩ := h.tryPushBack_refused (x := y) room
        rw [refused, List.mem_singleton] at mem
        exact ⟨[], List.nil_prefix, by simpa [mem] using h⟩

/-- Additions that there is room for keep the buffer. -/
theorem Holds.slotCount_of_mem_pushStages (h : d.Holds xs)
    (fits : xs.length + ys.length ≤ d.capacity) (mem : d' ∈ d.pushStages a ys) :
    d'.slotCount = d.slotCount := by
  induction ys generalizing d xs with
  | nil =>
      rw [pushStages, List.mem_singleton] at mem
      rw [mem]
  | cons y ys ih =>
      rw [List.length_cons] at fits
      rw [pushStages, List.mem_cons] at mem
      obtain rfl | mem := mem
      · rfl
      have occupied := h.slotCount_pos
      have room : d.Room a (xs.length + 1) := .inl (by rw [capacity] at fits; omega)
      obtain ⟨d₁, pushed, holds⟩ := h.tryPushBack (x := y) room
      have sized := h.sized_tryPushBack (a := a) (x := y)
      rw [pushed] at mem sized
      have same : d₁.slotCount = d.slotCount := by
        cases sized with
        | same size => exact size
        | grown beyond _ => omega
      rw [← same]
      refine ih holds ?_ mem
      rw [capacity, same, ← capacity, List.length_append, List.length_singleton]
      omega

theorem getLast?_pushStages (a : Allocator) (ys : List α) (d : Deque α) :
    (d.pushStages a ys).getLast? = some (d.pushAll a ys).2.2 := by
  induction ys generalizing d with
  | nil => rfl
  | cons y ys ih =>
      rw [pushStages, Deque.pushAll_cons]
      rcases d.tryPushBack a y with ⟨_ | _, d₁⟩
      · rfl
      · rw [List.getLast?_cons, ih]
        rfl

/-- The last stage is what the extension leaves. -/
theorem getLast?_extendStages (a : Allocator) (claimed : Nat) (source : Trace α) (d : Deque α) :
    (d.extendStages a claimed source).getLast? = some (d.extend a claimed source).2.2 := by
  rw [extendStages]
  cases ensured : d.ensureCapacity a (d.reservation claimed) with
  | mk answer d₁ =>
    cases answer with
    | error e =>
        rw [Deque.extend_eq, ← reservation, ensured]
        rfl
    | ok =>
        rw [extend_of_ensured source ensured, List.getLast?_cons, getLast?_pushStages]
        rfl

/-- What was added at once, if it was, are all elements of the source. -/
theorem Holds.of_addAll (h : d.Holds xs) {source : Trace α} {changed : Bool}
    (added : d.addAll a source = (.ok changed, d')) : d'.Holds (xs ++ source.values) := by
  obtain ⟨ys, _ | fault⟩ := source
  · rw [Deque.addAll, tryAddAll_eq, h.length_eq] at added
    by_cases room : d.Room a (xs.length + ys.length)
    · obtain ⟨e, inserted, holds⟩ := h.insertRange ys (Nat.le_refl _) room
      rw [List.take_length, List.drop_length, List.append_nil] at holds
      simp only [Trace.complete, inserted] at added
      cases added
      exact holds
    · obtain ⟨e, -, refused⟩ := h.insertRange_refused xs.length room
      simp only [Trace.complete, refused] at added
      cases added
  · cases added

/-- At every stage the deque has a beginning of what the source delivers. -/
theorem Holds.holds_of_mem_extendStages (h : d.Holds xs) {source : Trace α}
    (mem : d' ∈ d.extendStages a claimed source) :
    ∃ taken, taken <+: source.values ∧ d'.Holds (xs ++ taken) := by
  rw [extendStages, List.mem_cons] at mem
  obtain rfl | mem := mem
  · exact ⟨[], List.nil_prefix, by simpa using h⟩
  obtain ⟨d₁, ensured, -, holds, -⟩ | ⟨requested, refused, -⟩ := h.reserve a claimed
  · rw [ensured] at mem
    exact holds.holds_of_mem_pushStages mem
  · rw [refused, List.mem_singleton] at mem
    exact ⟨[], List.nil_prefix, by simpa [mem] using h⟩

/-- A source that delivers no more than it claimed finds its room reserved. -/
theorem Holds.slotCount_of_mem_extendStages (h : d.Holds xs) {source : Trace α}
    (honest : source.values.length ≤ claimed) :
    ∃ count, (∀ e ∈ (d.extendStages a claimed source).tail, e.slotCount = count) ∧
      (d.length + claimed ≤ d.capacity → count = d.slotCount) := by
  rw [extendStages, List.tail_cons]
  obtain ⟨d₁, ensured, -, holds, enough, kept⟩ | ⟨requested, refused, -⟩ := h.reserve a claimed
  · rw [ensured]
    refine ⟨d₁.slotCount, fun e mem => ?_, fun fits => by rw [kept fits]⟩
    exact holds.slotCount_of_mem_pushStages (by omega) mem
  · rw [refused]
    exact ⟨d.slotCount, fun e mem => by rw [List.mem_singleton.1 mem], fun _ => rfl⟩

theorem Extension.elements_of_ok {source : Trace α} {ending : Except Fault Unit × Trace α × Deque α}
    (h : Extension a claimed source d ending) (done : ending.1 = .ok ()) :
    ending.2.2.toList = d.toList ++ source.values := by
  cases h with
  | refused => cases done
  | delivered d' reserves elements => exact elements
  | full => cases done

/-- An extension is refused before anything was read and leaves the deque as it is, or the deque
gets what the source delivers up to the first read or growth that fails. Each state on the way is in
order and has a beginning of that. If nothing fails, all elements are there, as if they had been
added at once. If the source delivers no more than it claimed, the buffer changes at most once, in
the reservation, and not even then if it had room for what was claimed. -/
theorem extend_appends (h : d.WellFormed) (a : Allocator) (claimed : Nat) (source : Trace α) :
    ∃ answer unread d', d.extend a claimed source = (answer, unread, d') ∧
      Extension a claimed source d (answer, unread, d') ∧
      (d.extendStages a claimed source).head? = some d ∧
      (d.extendStages a claimed source).getLast? = some d' ∧
      (∀ e ∈ d.extendStages a claimed source,
        e.WellFormed ∧ ∃ taken, taken <+: source.values ∧ e.toList = d.toList ++ taken) ∧
      (answer = .ok () → d'.toList = d.toList ++ source.values ∧
        ∀ b changed e, d.addAll b source = (.ok changed, e) → e.toList = d'.toList) ∧
      (source.values.length ≤ claimed →
        (∃ count, ∀ e ∈ (d.extendStages a claimed source).tail, e.slotCount = count) ∧
        (d.length + claimed ≤ d.capacity →
          ∀ e ∈ d.extendStages a claimed source, e.slotCount = d.slotCount)) := by
  have holds := h.holds
  have ending := holds.extension a claimed source
  have last := getLast?_extendStages a claimed source d
  rcases outcome : d.extend a claimed source with ⟨answer, unread, d'⟩
  rw [outcome] at ending last
  refine ⟨answer, unread, d', rfl, ending, rfl, last, ?_, ?_, ?_⟩
  · intro e mem
    obtain ⟨taken, beginning, holds'⟩ := holds.holds_of_mem_extendStages mem
    exact ⟨holds'.wellFormed, taken, beginning, holds'.toList_eq⟩
  · intro done
    have elements := ending.elements_of_ok done
    refine ⟨elements, fun b changed e added => ?_⟩
    rw [(holds.of_addAll added).toList_eq, elements]
  · intro honest
    obtain ⟨count, same, kept⟩ := holds.slotCount_of_mem_extendStages (a := a) honest
    refine ⟨⟨count, same⟩, fun fits e mem => ?_⟩
    obtain rfl | mem := List.mem_cons.1 mem
    · rfl
    · rw [same e mem, kept fits]

/-- A source claims one element and has three. No more than six slots are allowed, so there is room
for the first two, on both sides of the end of the buffer. The third is read and not added, and the
fourth is not read. -/
theorem extend_appends_understated :
    let a : Allocator := ⟨6, fun _ => true, by decide, by decide⟩
    let d : Deque Nat := ⟨#[some 3, none, some 1, some 2], 2, 1⟩
    let d' : Deque Nat := ⟨#[some 3, some 4, some 5, none, some 1, some 2], 4, 3⟩
    let source := Trace.ofList [4, 5, 6, 7]
    d.WellFormed ∧ Extension a 1 source d (d.extend a 1 source) ∧
      (d.extend a 1 source).2.1.values = [7] ∧ (d.extend a 1 source).2.2 = d' ∧
      (d.extendStages a 1 source).map (·.slotCount) = [4, 6, 6, 6, 6] := by
  intro a d d' source
  have ordered : d.WellFormed := isWellFormed_iff.1 (by decide)
  obtain ⟨answer, unread, e, outcome, extension, -⟩ := extend_appends ordered a 1 source
  rw [← outcome] at extension
  exact ⟨ordered, extension, by decide, by decide, by decide⟩

end RingDeque.Deque

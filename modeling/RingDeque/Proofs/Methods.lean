import RingDeque.Proofs.Reentrancy
import RingDeque.Shared.Methods
import RingDeque.Sync.Lock

/-!
# What the methods of a shared deque come to

A method is a program, so what it comes to is read off it. Made explicit for each method, this says
which of them share the deque and which operation each performs. Those without callbacks are of two
kinds. If a method `Reads`, it has its answer also in a callback of an operation that shares the
deque. If it `Updates` the deque, it is refused in every callback. What the others come to depends
on their callbacks, which are read `inside` the operation: `Means` says it in the terms of all
programs.
-/

namespace RingDeque

namespace Program

open Session

variable {L α σ β γ τ : Type} [Mutex L]

/-- What a thread that gets the lock at once comes to: `alone` if nobody uses the deque, and
`inside` an operation that is under way, of which it sees at most the deque that is read. All else
in the session stays. -/
def Means (L : Type) [Mutex L] (p : Program α σ β)
    (alone : Deque α × σ → Except Fault β × (Deque α × σ))
    (inside : Option (Deque α) → σ → Except Fault β × σ) : Prop :=
  (∀ s : Session L α σ, s.Idle →
    let (outcome, d, m) := alone (s.deque, s.memory)
    p.run s = (outcome, { s with deque := d, memory := m })) ∧
  ∀ (s : Session L α σ) view, s.Shows view →
    let (outcome, m) := inside view s.memory
    p.run s = (outcome, { s with memory := m })

theorem Plain.means [LawfulMutex L] {p : Program α σ β} (plain : p.Plain .operations false) :
    Means L p (p.alone .operations) fun view => p.inside view := by
  have agrees := Plain.agrees (L := L) plain
  constructor
  · intro s idle
    exact agrees.alone nofun s idle (s.deque, s.memory)
  · intro s view shows
    exact agrees.called shows s.memory

theorem after_ok (first : τ → Except Fault β × τ) :
    after first (fun answer s => (.ok answer, s)) = first := by
  funext s
  rw [after]
  rcases first s with ⟨fault | answer, s'⟩
  · rfl
  · rfl

/-- A program of one operation. -/
theorem means_of_operation {p : Program α σ β}
    {alone : Deque α × σ → Except Fault β × (Deque α × σ)}
    {inside : Option (Deque α) → σ → Except Fault β × σ}
    (h : Means L p (after alone fun answer s => (.ok answer, s)) fun view =>
      after (inside view) fun answer s => (.ok answer, s)) : Means L p alone inside := by
  simpa only [after_ok] using h

end Program

namespace SharedDeque

open Program

variable {L α σ γ : Type} [Mutex L]

/-! ### Methods without callbacks -/

/-- The method answers what `f` says of the deque, unless an operation is under way that has the
deque alone. -/
def Reads (L : Type) [Mutex L] (m : Method α σ γ) (f : Deque α → Except Error γ) : Prop :=
  (∀ s : Session L α σ, s.Idle → m.run s = (.ok (f s.deque), s)) ∧
  ∀ (s : Session L α σ) view, s.Shows view →
    m.run s = (.ok (view.elim (.error .concurrentModification) f), s)

/-- The method changes the deque as `f` does, unless an operation is under way. -/
def Updates (L : Type) [Mutex L] (m : Method α σ γ) (f : Deque α → Except Error γ × Deque α) :
    Prop :=
  (∀ s : Session L α σ, s.Idle → m.run s = (.ok (f s.deque).1, { s with deque := (f s.deque).2 })) ∧
  ∀ (s : Session L α σ) view, s.Shows view → m.run s = (.ok (.error .concurrentModification), s)

section Kinds

variable [LawfulMutex L]

/-- A method without callbacks reads if its answer is what `f` says of the deque that it is
shown. -/
theorem Reads.of_plain {m : Method α σ γ} {f : Deque α → Except Error γ}
    (plain : m.Plain .operations false)
    (alone : ∀ d memory, m.alone .operations (d, memory) = (.ok (f d), (d, memory)))
    (inside : ∀ view memory,
      m.inside view memory = (.ok (view.elim (.error .concurrentModification) f), memory)) :
    Reads L m f := by
  have means := Plain.means (L := L) plain
  constructor
  · intro s idle
    simpa only [alone] using means.1 s idle
  · intro s view shows
    simpa only [inside] using means.2 s view shows

theorem reads_tryReader (f : Deque α → Except Error γ) :
    Reads L (tryReader f : Method α σ γ) f := by
  refine .of_plain ⟨.inl rfl, fun answer => .inl (.inl rfl)⟩ (fun d memory => rfl) ?_
  rintro (_ | d) memory
  · rfl
  · rfl

theorem reads_reader (f : Deque α → γ) :
    Reads L (reader f : Method α σ γ) fun d => .ok (f d) := by
  refine .of_plain ⟨.inl rfl, fun answer => .inl (.inl rfl)⟩ (fun d memory => rfl) ?_
  rintro (_ | d) memory
  · rfl
  · rfl

theorem updates_tryWriter (f : Deque α → Except Error γ × Deque α) :
    Updates L (tryWriter f : Method α σ γ) f := by
  have plain : (tryWriter f : Method α σ γ).Plain .operations false :=
    ⟨.inl rfl, fun answer => .inl (.inl rfl)⟩
  exact Plain.means plain

theorem updates_writer (f : Deque α → γ × Deque α) :
    Updates L (writer f : Method α σ γ) fun d => (.ok (f d).1, (f d).2) := by
  have plain : (writer f : Method α σ γ).Plain .operations false :=
    ⟨.inl rfl, fun answer => .inl (.inl rfl)⟩
  exact Plain.means plain

end Kinds

/-! ### All methods -/

/-- What every method comes to. The comparisons of elements call nothing back, so the plans of
`removeAll` and `retainAll` are those of a predicate without a memory. -/
structure Refines (L : Type) [Mutex L] (α σ : Type) (a : Allocator) : Prop where
  length : Reads L (length : Method α σ Nat) fun d => .ok d.length
  isEmpty : Reads L (isEmpty : Method α σ Bool) fun d => .ok d.isEmpty
  capacity : Reads L (capacity : Method α σ Nat) fun d => .ok d.capacity
  ensureCapacity : ∀ n, Updates L (ensureCapacity a n : Method α σ Unit) (Deque.ensureCapacity a n)
  trimToSize : Updates L (trimToSize a : Method α σ Unit) (Deque.tryTrimToSize a)
  pushFront : ∀ x, Updates L (pushFront a x : Method α σ Unit) (Deque.tryPushFront a x)
  pushBack : ∀ x, Updates L (pushBack a x : Method α σ Unit) (Deque.tryPushBack a x)
  popFront : Updates L (popFront : Method α σ (Option α)) fun d => (.ok d.popFront.1, d.popFront.2)
  popBack : Updates L (popBack : Method α σ (Option α)) fun d => (.ok d.popBack.1, d.popBack.2)
  removeFirst : Updates L (removeFirst : Method α σ α) Deque.removeFirst
  removeLast : Updates L (removeLast : Method α σ α) Deque.removeLast
  front? : Reads L (front? : Method α σ (Option α)) fun d => .ok d.front?
  back? : Reads L (back? : Method α σ (Option α)) fun d => .ok d.back?
  first : Reads L (first : Method α σ α) Deque.first
  last : Reads L (last : Method α σ α) Deque.last
  get : ∀ i, Reads L (get i : Method α σ α) (Deque.get i)
  set : ∀ i x, Updates L (set i x : Method α σ α) (Deque.set i x)
  insert : ∀ i x, Updates L (insert a i x : Method α σ Unit) (Deque.insert a i x)
  removeAt : ∀ i, Updates L (removeAt i : Method α σ α) (Deque.removeAt i)
  removeChosen : ∀ choose, Updates L (removeChosen choose : Method α σ (Option α)) fun d =>
    (.ok (d.removeChosen choose).1, (d.removeChosen choose).2)
  contains : ∀ [BEq α] x, Reads L (contains x : Method α σ Bool) fun d => .ok (d.contains x)
  indexOf? : ∀ [BEq α] x, Reads L (indexOf? x : Method α σ (Option Nat)) fun d =>
    .ok (d.indexOf? x)
  lastIndexOf? : ∀ [BEq α] x, Reads L (lastIndexOf? x : Method α σ (Option Nat)) fun d =>
    .ok (d.lastIndexOf? x)
  removeFirstOccurrence : ∀ [BEq α] x,
    Updates L (removeFirstOccurrence x : Method α σ Bool) fun d =>
      (.ok (d.removeFirstOccurrence x).1, (d.removeFirstOccurrence x).2)
  removeLastOccurrence : ∀ [BEq α] x,
    Updates L (removeLastOccurrence x : Method α σ Bool) fun d =>
      (.ok (d.removeLastOccurrence x).1, (d.removeLastOccurrence x).2)
  addAll : ∀ count (item : Nat → Program α σ α) finish,
    (∀ i, (item i).Plain .operations false) → finish.Plain .operations false →
    Means L (addAll a count item finish)
      (inserting a none (delivered count (fun i => (item i).inside none) (finish.inside none)))
      fun _ => refused
  insertAll : ∀ index count (item : Nat → Program α σ α) finish,
    (∀ i, (item i).Plain .operations false) → finish.Plain .operations false →
    Means L (insertAll a index count item finish)
      (inserting a (some index)
        (delivered count (fun i => (item i).inside none) (finish.inside none)))
      fun _ => refused
  removeWhere : ∀ predicate : α → Program α σ Bool,
    (∀ x, (predicate x).Plain .operations false) →
    Means L (removeWhere predicate)
      (updating fun d => d.removeWhere fun x => (predicate x).inside (some d))
      fun view => planned (viewing view fun d => d.planRemoval fun x => (predicate x).inside view)
  retain : ∀ predicate : α → Program α σ Bool, (∀ x, (predicate x).Plain .operations false) →
    Means L (retain predicate)
      (updating fun d => d.retain fun x => (predicate x).inside (some d))
      fun view => planned (viewing view fun d =>
        d.planRemoval (Deque.negated fun x => (predicate x).inside view))
  removeAll : ∀ [BEq α] values,
    Means L (removeAll values : Method α σ Bool) (updating fun d m => (d.removeAll values, m))
      fun view => planned (viewing view (Deque.planRemoval (.pure (Deque.occursIn values))))
  retainAll : ∀ [BEq α] values,
    Means L (retainAll values : Method α σ Bool) (updating fun d m => (d.retainAll values, m))
      fun view => planned (viewing view
        (Deque.planRemoval (.pure fun x => !Deque.occursIn values x)))
  clear : Updates L (clear : Method α σ Unit) fun d => (.ok (), d.clear)
  forEach : ∀ action : α → Program α σ Unit, (∀ x, (action x).Plain .operations false) →
    Means L (forEach action)
      (updating fun d => besides (d.forEach fun x => (action x).inside (some d)) d)
      fun view => viewing view fun d => d.forEach fun x => (action x).inside view
  replaceAll : ∀ operator : α → Program α σ α, (∀ x, (operator x).Plain .operations false) →
    Means L (replaceAll operator)
      (updating fun d => d.replaceAll fun x => (operator x).inside none) fun _ => refused
  sortBy : ∀ compare : α → α → Program α σ Ordering,
    (∀ x y, (compare x y).Plain .operations false) →
    Means L (sortBy compare)
      (updating fun d => d.sortBy fun x y => (compare x y).inside none) fun _ => refused
  sort : ∀ [Ord α], Means L (sort : Method α σ Unit) (updating fun d m => (d.sort, m))
    fun _ => refused
  toList : Reads L (toList : Method α σ (List α)) fun d => .ok d.toList
  snapshot : Reads L (snapshot : Method α σ (Deque α)) .ok
  sequenceHash : ∀ [Feed α] hasher,
    Reads L (sequenceHash hasher : Method α σ UInt64) fun d => .ok (d.sequenceHash hasher)
  withLocked : ∀ {γ : Type} (body : Program α σ γ), body.Plain .lent false →
    Means L (withLocked body) (granted body.lent) fun _ => refused
  lockInterruptibly : ∀ {γ : Type} (body : Program α σ γ), body.Plain .operations true →
    Means L (lockInterruptibly body) (granted (body.alone .operations))
      fun view => granted (body.inside view)

section Pure

variable [LawfulMutex L] (test : α → Bool)

/-- A predicate that neither gives up nor remembers selects the same elements whatever the memory
is. -/
theorem removeWhere_pure (d : Deque α) (m : σ) :
    d.removeWhere (Callback.pure test) m = ((d.removeWhere (Callback.pure test) ()).1, m) := by
  have asked (x : α) :
      Carries (fun _ : Unit => m) (Callback.pure test x) (Callback.pure test x) := by
    intro _
    rfl
  exact Carries.removeWhere asked d ()

theorem means_removeWhere_pure :
    Means L (removeWhere fun x => .done (test x) : Method α σ Bool)
      (updating fun d m => ((d.removeWhere (Callback.pure test) ()).1, m))
      fun view => planned (viewing view (Deque.planRemoval (Callback.pure test))) := by
  have same : (fun (d : Deque α) (m : σ) => ((d.removeWhere (Callback.pure test) ()).1, m)) =
      Deque.removeWhere (Callback.pure test) := by
    funext d m
    exact (removeWhere_pure test d m).symm
  rw [same]
  exact means_of_operation
    (Plain.means ⟨.inl rfl, fun x => .inl (.inl rfl), fun answer => .inl (.inl rfl)⟩)

end Pure

theorem refines [LawfulMutex L] (a : Allocator) : Refines L α σ a where
  length := reads_reader _
  isEmpty := reads_reader _
  capacity := reads_reader _
  ensureCapacity n := updates_tryWriter _
  trimToSize := updates_tryWriter _
  pushFront x := updates_tryWriter _
  pushBack x := updates_tryWriter _
  popFront := updates_writer _
  popBack := updates_writer _
  removeFirst := updates_tryWriter _
  removeLast := updates_tryWriter _
  front? := reads_reader _
  back? := reads_reader _
  first := reads_tryReader _
  last := reads_tryReader _
  get i := reads_tryReader _
  set i x := updates_tryWriter _
  insert i x := updates_tryWriter _
  removeAt i := updates_tryWriter _
  removeChosen choose := updates_writer _
  contains x := reads_reader _
  indexOf? x := reads_reader _
  lastIndexOf? x := reads_reader _
  removeFirstOccurrence x := updates_writer _
  removeLastOccurrence x := updates_writer _
  addAll count item finish called ended :=
    means_of_operation (Plain.means ⟨.inl rfl, ⟨called, ended⟩, fun answer => .inl (.inl rfl)⟩)
  insertAll index count item finish called ended :=
    means_of_operation (Plain.means ⟨.inl rfl, ⟨called, ended⟩, fun answer => .inl (.inl rfl)⟩)
  removeWhere predicate called :=
    means_of_operation (Plain.means ⟨.inl rfl, called, fun answer => .inl (.inl rfl)⟩)
  retain predicate called :=
    means_of_operation (Plain.means ⟨.inl rfl, called, fun answer => .inl (.inl rfl)⟩)
  removeAll values := by
    simp only [Deque.removeAll_eq]
    exact means_removeWhere_pure (Deque.occursIn values)
  retainAll values := by
    simp only [Deque.retainAll_eq]
    exact means_removeWhere_pure fun x => !Deque.occursIn values x
  clear := updates_writer _
  forEach action called :=
    means_of_operation (Plain.means ⟨.inl rfl, called, fun answer => .inl (.inl rfl)⟩)
  replaceAll operator called :=
    means_of_operation (Plain.means ⟨.inl rfl, called, fun answer => .inl (.inl rfl)⟩)
  sortBy compare called :=
    means_of_operation (Plain.means ⟨.inl rfl, called, fun answer => .inl (.inl rfl)⟩)
  sort := means_of_operation (Plain.means ⟨.inl rfl, fun answer => .inl (.inl rfl)⟩)
  toList := reads_reader _
  snapshot := reads_reader _
  sequenceHash hasher := reads_reader _
  withLocked body lent :=
    means_of_operation (Plain.means ⟨.inl rfl, lent, fun answer => .inl (.inl rfl)⟩)
  lockInterruptibly body within :=
    means_of_operation (Plain.means ⟨.inl rfl, within, fun answer => .inl (.inl rfl)⟩)

end SharedDeque

namespace Program

open Session

variable {L α σ β : Type} [Mutex L]

/-- A plain program of a thread that gets the lock at once and whose flag is clear. If nobody uses
the deque, the program has the answer, and leaves the deque and the memory, that it has when its
operations are those on a deque and its callbacks cannot change it. If an operation is under way,
the deque stays, and the program sees at most the deque on which that operation works. All else in
the session stays. -/
theorem Plain.run_reentrant [LawfulMutex L] {p : Program α σ β}
    (plain : p.Plain .operations false) :
    (∀ s : Session L α σ, s.Idle →
      let (outcome, d, m) := p.alone .operations (s.deque, s.memory)
      p.run s = (outcome, { s with deque := d, memory := m })) ∧
    (∀ (s : Session L α σ) view, s.Shows view →
      let (outcome, m) := p.inside view s.memory
      p.run s = (outcome, { s with memory := m })) ∧
    ∀ a, SharedDeque.Refines L α σ a := by
  have means := Plain.means (L := L) plain
  exact ⟨means.1, means.2, SharedDeque.refines⟩

/-- A removal whose predicate reads the deque, adds to it and removes from it. -/
def meddling (a : Allocator) :
    Program Nat (List (Except Error Nat × Except Error Unit × Except Error Bool))
      (Except Error Bool) :=
  .removeWhere (fun x =>
    .read Deque.length fun seen =>
    .tryWrite (Deque.tryPushBack a 0) fun added =>
    .removeWhere (fun y => .done (y == x + 2)) fun removed =>
    .recall (fun notes => ((), notes ++ [(seen, added, removed)])) fun _ =>
    .done (x % 2 == 0))
  .done

/-- Each time there are three elements to be read, the addition is refused, and so is the inner
removal if it selects something. The outer removal then removes one element from a buffer that
wraps, if nobody uses the deque. In a callback of an operation that reads it is refused as well,
after its predicate was asked as before. -/
theorem Plain.run_reentrant_meddling :
    let s : Session Lock Nat _ := .start ⟨#[some 2, some 3, none, some 1], 3, 2⟩ []
    let called := s.busy (.readers 1)
    let p := meddling (.bounded 8 5)
    let notes := [
      (.ok 3, .error .concurrentModification, .error .concurrentModification),
      (.ok 3, .error .concurrentModification, .ok false),
      (.ok 3, .error .concurrentModification, .ok false)]
    p.Plain .operations false ∧ s.Idle ∧ called.Shows (some s.deque) ∧
      p.run s = (.ok (.ok true), { s with
        deque := ⟨#[some 3, none, none, some 1], 3, 1⟩
        memory := notes }) ∧
      p.run called = (.ok (.error .concurrentModification), { called with memory := notes }) := by
  have plain : (meddling (.bounded 8 5)).Plain .operations false := by
    refine ⟨.inl rfl, fun x => ?_, fun answer => .inl (.inl rfl)⟩
    refine ⟨.inl rfl, fun seen => ⟨.inl rfl, fun added => ⟨.inl rfl, ?_, ?_⟩⟩⟩
    · exact fun y => .inl (.inl rfl)
    · exact fun removed answer => .inl (.inl rfl)
  -- The session is written out, since numbers are computed only in closed terms.
  have idle : (Session.start ⟨#[some 2, some 3, none, some 1], 3, 2⟩ [] :
      Session Lock Nat (List (Except Error Nat × Except Error Unit × Except Error Bool))).Idle :=
    idle_start _ _
  have shows := shows_busy_readers idle.toOpen 0
  exact ⟨plain, idle, shows, (Plain.run_reentrant plain).1 _ idle,
    (Plain.run_reentrant plain).2.1 _ _ shows⟩

end Program

end RingDeque

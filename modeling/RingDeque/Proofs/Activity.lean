import RingDeque.Proofs.Nesting

/-!
# Operations on a shared deque

`Performs` says of an operation on a shared deque what it comes to in the three situations in which
a thread can call it: nobody uses the deque, an operation is under way that calls back, or a locked
section has the deque. All operations are one of two kinds, and so are their proofs. A reader counts
as a use while it calls back, which is a situation of the second kind with a deque to see; a writer
calls back in one without (`performs_reading`, `performs_writing`). A removal is a reader and, if
its plan selects something, a writer. Nothing can move the elements in between, since the predicate
had its last say before.
-/

namespace RingDeque

variable {L α σ β γ : Type}

/-! ### Using the deque -/

theorem Kept.endAll_nothing (usage : Usage) : Kept.nothing.endAll usage = usage := by
  cases usage with
  | readers count => rfl
  | writer => rfl

namespace Session

/-- The session with another deque and another memory. -/
def holding (s : Session L α σ) (x : Deque α × σ) : Session L α σ :=
  { s with deque := x.1, memory := x.2 }

/-- The session with another memory. -/
def remembering (s : Session L α σ) (m : σ) : Session L α σ :=
  { s with memory := m }

variable {s t : Session L α σ} {d : Deque α} {n : Nat}

theorem with_usage {usage : Usage} (h : t.usage = usage) : { t with usage := usage } = t := by
  cases h
  rfl

theorem reading_eq {body : Deque α → Activity L α σ β} {outcome : Except Fault β}
    (usage : s.usage = .readers n) (same : t.usage = .readers n)
    (done : body s.deque { s with usage := .readers (n + 1) } =
      (outcome, { t with usage := .readers (n + 1) })) :
    reading body s = (outcome.map .ok, t) := by
  have begun : s.usage.beginReading = some (.readers (n + 1)) := by
    rw [usage]
    rfl
  rw [reading, begun]
  dsimp only
  rw [done]
  exact congrArg (outcome.map Except.ok, ·) (with_usage same)

theorem writing_eq (body : Deque α → Session L α σ → (Except Fault β × Deque α) × Session L α σ)
    {outcome : Except Fault β} (usage : s.usage = .readers 0) (same : t.usage = .readers 0)
    (done : body s.deque { s with usage := .writer } =
    ((outcome, d), { t with usage := .writer })) :
    writing body s = (outcome.map .ok, { t with deque := d }) := by
  have begun : s.usage.beginWriting = some .writer := by
    rw [usage]
    rfl
  rw [writing, begun]
  dsimp only
  rw [done]
  exact congrArg (fun t : Session L α σ => (outcome.map Except.ok, { t with deque := d }))
    (with_usage same)

theorem reading_of_writer (body : Deque α → Activity L α σ β) (usage : s.usage = .writer) :
    reading body s = (.ok (.error .concurrentModification), s) := by
  rw [reading, usage]
  rfl

theorem writing_of_used
    {body : Deque α → Session L α σ → (Except Fault β × Deque α) × Session L α σ}
    (used : s.usage.beginWriting = none) :
    writing body s = (.ok (.error .concurrentModification), s) := by
  rw [writing, used]

/-- Between its two phases nothing moves, so a removal is carried out if nobody else uses the
deque. -/
theorem expunge_of_idle {s : Session L α σ} {plan : RemovalPlan} (usage : s.usage = .readers 0)
    (place : plan.head = s.deque.head ∧ plan.tail = s.deque.tail) :
    Session.expunge plan s =
      (.ok (.ok ()), { s with deque := s.deque.compact plan }) := by
  have removed : s.deque.expunge plan = (.ok (), s.deque.compact plan) := by
    rw [Deque.expunge, if_pos place]
  have called : (((.ok (s.deque.expunge plan).1 : Except Fault (Except Error Unit)),
        (s.deque.expunge plan).2), { s with usage := .writer }) =
      ((.ok (.ok ()), s.deque.compact plan), { s with usage := .writer }) := by
    rw [removed]
  have done := writing_eq (fun d s => ((.ok (d.expunge plan).1, (d.expunge plan).2), s)) (t := s)
    usage usage called
  rw [Session.expunge, Session.joined, done]
  rfl

theorem expunge_of_used {s : Session L α σ} {plan : RemovalPlan}
    (used : s.usage.beginWriting = none) :
    Session.expunge plan s = (.ok (.error .concurrentModification), s) := by
  rw [Session.expunge, Session.joined, writing_of_used used]

end Session

open Session Program

/-- An error that is met in an operation is the error of the operation. -/
def joining {τ : Type} (first : τ → Except Fault (Except Error (Except Error γ)) × τ) :
    τ → Except Fault (Except Error γ) × τ := fun s =>
  match first s with
  | (.ok (.ok answer), s) => (.ok answer, s)
  | (.ok (.error e), s) => (.ok (.error e), s)
  | (.error fault, s) => (.error fault, s)

theorem Carries.joined {μ : Type} {ι : μ → Session L α σ}
    {activity : Activity L α σ (Except Error (Except Error γ))}
    {first : μ → Except Fault (Except Error (Except Error γ)) × μ}
    (h : Carries ι activity first) : Carries ι (Session.joined activity) (joining first) := by
  intro m
  rw [Session.joined, joining, h m]
  rcases first m with ⟨fault | e | answer, m'⟩
  · rfl
  · rfl
  · rfl

/-- An insertion from a source, whatever the state is that the source is read in. -/
def insertingIn {τ : Type} (a : Allocator) (index : Option Nat) (source : τ → Trace α × τ)
    (d : Deque α) (s : τ) : (Except Fault (Except Error Bool) × Deque α) × τ :=
  let index := index.getD d.length
  if d.length < index then
    ((.ok (.error (d.outOfBounds index)), d), s)
  else
    let (source, s) := source s
    (d.insertAll a index source, s)

theorem Carries.insertingIn {μ τ : Type} {ι : μ → τ} {source : τ → Trace α × τ}
    {source' : μ → Trace α × μ} (h : Carries ι source source') (a : Allocator)
    (index : Option Nat) (d : Deque α) :
    Carries ι (RingDeque.insertingIn a index source d)
      (RingDeque.insertingIn a index source' d) := by
  intro m
  rw [RingDeque.insertingIn, RingDeque.insertingIn, h m]
  by_cases beyond : d.length < index.getD d.length
  · rw [if_pos beyond, if_pos beyond]
  · rw [if_neg beyond, if_neg beyond]

/-- To insert at the back is to add. -/
theorem insertAll_length (a : Allocator) (source : Trace α) (d : Deque α) :
    d.insertAll a d.length source = d.tryAddAll a source := by
  rw [Deque.insertAll_eq, Deque.tryAddAll_eq, if_neg (Nat.lt_irrefl _)]

theorem joining_insertingIn (a : Allocator) (index : Option Nat) (source : σ → Trace α × σ) :
    joining (updating (insertingIn a index source)) = inserting a index source := by
  funext ⟨d, m⟩
  cases index with
  | none =>
      simp only [joining, updating, insertingIn, inserting, Option.getD_none, Nat.lt_irrefl,
        if_false, insertAll_length]
      rcases d.tryAddAll a (source m).1 with ⟨fault | e | answer, d'⟩
      · rfl
      · rfl
      · rfl
  | some index =>
      simp only [joining, updating, insertingIn, inserting, Option.getD_some]
      by_cases beyond : d.length < index
      · rw [if_pos beyond, if_pos beyond]
        rfl
      · rw [if_neg beyond, if_neg beyond]
        rcases d.insertAll a index (source m).1 with ⟨fault | e | answer, d'⟩
        · rfl
        · rfl
        · rfl

theorem deliver_eq (count : Nat) (item : Callback (Session L α σ) Nat α)
    (finish : Activity L α σ Unit) :
    Session.deliver count item finish = delivered count item finish := by
  funext s
  rw [Session.deliver, delivered]
  rcases traverse item (List.range count) s with ⟨⟨values, _ | fault⟩, s'⟩
  · dsimp only
    rcases finish s' with ⟨_ | _, s''⟩
    · rfl
    · rfl
  · rfl

theorem planRemoval_place {predicate : Callback σ α Bool} {d : Deque α} {plan : RemovalPlan}
    {m m' : σ} (h : d.planRemoval predicate m = (.ok (some plan), m')) :
    plan.head = d.head ∧ plan.tail = d.tail := by
  rw [Deque.planRemoval_eq] at h
  generalize traverse predicate d.toList m = outcome at h
  obtain ⟨⟨answers, _ | fault⟩, m''⟩ := outcome
  · exact Deque.place_of_planOf (Except.ok.inj (congrArg Prod.fst h))
  · cases h

/-! ### Taking the mutex -/

variable [Mutex L]

namespace Mutex

/-- The mutex after this thread took it once more. -/
def taken (mutex : L) : L :=
  (tryAcquire mutex).getD mutex

variable [LawfulMutex L] {mutex : L}

theorem tryAcquire_of_available (mine : Available mutex) :
    tryAcquire mutex = some (taken mutex) := by
  obtain ⟨taken, acquired⟩ := Option.isSome_iff_exists.mp (LawfulMutex.isSome_tryAcquire mutex mine)
  rw [Mutex.taken, acquired, Option.getD_some]

theorem available_taken (mine : Available mutex) : Available (taken mutex) :=
  .inr (LawfulMutex.isOwned_of_tryAcquire mutex _ (tryAcquire_of_available mine))

theorem release_taken (mine : Available mutex) : release (taken mutex) = mutex :=
  LawfulMutex.release_of_tryAcquire mutex _ (tryAcquire_of_available mine)

theorem acquireInterruptibly_eq {thread : Thread} (calm : thread.interrupted = false)
    (mine : Available mutex) :
    acquireInterruptibly thread mutex = (.ok (.ok ()), taken mutex, thread) := by
  rw [acquireInterruptibly, if_neg (Bool.eq_false_iff.mp calm), tryAcquire_of_available mine]

end Mutex

/-! ### Situations -/

namespace Session

/-- The session when the lock was taken once more. -/
def entered (s : Session L α σ) : Session L α σ :=
  { s with lock := Mutex.taken s.lock }

/-- The session in which an operation calls back. -/
def busy (s : Session L α σ) (usage : Usage) : Session L α σ :=
  { s with lock := Mutex.taken s.lock, usage := usage }

/-- The thread gets the lock at once. -/
structure Open (s : Session L α σ) : Prop where
  calm : s.thread.interrupted = false
  mine : Mutex.Available s.lock

/-- Nobody uses the deque. -/
structure Idle (s : Session L α σ) : Prop extends s.Open where
  usage_eq : s.usage = .readers 0
  kept_eq : s.kept = .nothing

/-- An operation uses the deque: one that reads the deque in `view`, or one that writes if there is
none. -/
structure Shows (s : Session L α σ) (view : Option (Deque α)) : Prop extends s.Open where
  of_reader : ∀ d, view = some d → s.deque = d ∧ ∃ n, s.usage = .readers (n + 1)
  of_writer : view = none → s.usage = .writer

/-- The section that the thread is in has the deque. -/
structure Lent (s : Session L α σ) : Prop extends s.Open where
  usage_eq : s.usage = .writer
  kept_eq : s.kept = ⟨0, true⟩

variable {s t : Session L α σ} {view : Option (Deque α)}

theorem Idle.holding (h : s.Idle) (x : Deque α × σ) : (s.holding x).Idle :=
  ⟨⟨h.calm, h.mine⟩, h.usage_eq, h.kept_eq⟩

theorem Lent.holding (h : s.Lent) (x : Deque α × σ) : (s.holding x).Lent :=
  ⟨⟨h.calm, h.mine⟩, h.usage_eq, h.kept_eq⟩

theorem Shows.remembering (h : s.Shows view) (m : σ) : (s.remembering m).Shows view :=
  ⟨⟨h.calm, h.mine⟩, h.of_reader, h.of_writer⟩

theorem Shows.used (h : s.Shows view) : s.usage.beginWriting = none := by
  cases view with
  | none =>
      rw [h.of_writer rfl]
      rfl
  | some d =>
      obtain ⟨-, n, usage⟩ := h.of_reader d rfl
      rw [usage]
      rfl

theorem Lent.used (h : s.Lent) : s.usage.beginWriting = none := by
  rw [h.usage_eq]
  rfl

variable [LawfulMutex L]

/-- Nobody uses a new deque. -/
theorem idle_start (d : Deque α) (memory : σ) :
    (start d memory : Session L α σ).Idle :=
  ⟨⟨rfl, .inl LawfulMutex.isLocked_unlocked⟩, rfl, rfl⟩

theorem shows_busy_readers (h : s.Open) (n : Nat) :
    (s.busy (.readers (n + 1))).Shows (some s.deque) where
  calm := h.calm
  mine := Mutex.available_taken h.mine
  of_reader := by
    rintro d ⟨⟩
    exact ⟨rfl, n, rfl⟩
  of_writer := nofun

theorem shows_busy_writer (h : s.Open) : (s.busy .writer).Shows none where
  calm := h.calm
  mine := Mutex.available_taken h.mine
  of_reader := nofun
  of_writer _ := rfl

/-- What is done in a section is done, and the lock is as before. -/
theorem locked_eq {body : Activity L α σ (Except Error β)} {outcome : Except Fault (Except Error β)}
    (h : s.Open) (same : t.lock = s.lock) (done : body s.entered = (outcome, t.entered)) :
    locked body s = (outcome, t) := by
  have unlocked : t.entered.unlock = t := by
    have released : Mutex.release (Mutex.taken t.lock) = t.lock :=
      Mutex.release_taken (same ▸ h.mine)
    rw [unlock, entered]
    dsimp only
    rw [released]
  rw [locked, Mutex.acquireInterruptibly_eq h.calm h.mine]
  change ((body s.entered).1, (body s.entered).2.unlock) = _
  rw [done, unlocked]

end Session

/-! ### Activities -/

/-- What an activity comes to in each situation. That the rest of the session stays is part of it,
since `holding` and `remembering` change nothing else. -/
structure Performs (activity : Activity L α σ γ)
    (alone : Deque α × σ → Except Fault γ × (Deque α × σ))
    (inside : Option (Deque α) → σ → Except Fault γ × σ)
    (lent : Deque α × σ → Except Fault γ × (Deque α × σ)) : Prop where
  alone : ∀ s : Session L α σ, s.Idle → Carries s.holding activity alone
  inside : ∀ (s : Session L α σ) view, s.Shows view → Carries s.remembering activity (inside view)
  lent : ∀ s : Session L α σ, s.Lent → Carries s.holding activity lent

theorem Performs.joined {activity : Activity L α σ (Except Error (Except Error γ))}
    {alone lent : Deque α × σ → Except Fault (Except Error (Except Error γ)) × (Deque α × σ)}
    {inside : Option (Deque α) → σ → Except Fault (Except Error (Except Error γ)) × σ}
    (h : Performs activity alone inside lent) :
    Performs (Session.joined activity) (joining alone) (fun view => joining (inside view))
      (joining lent) where
  alone s idle := (h.alone s idle).joined
  inside s view shows := (h.inside s view shows).joined
  lent s lent := (h.lent s lent).joined

variable [LawfulMutex L]

theorem performs_reading {body : Deque α → Activity L α σ γ}
    (reference : Option (Deque α) → Deque α → σ → Except Fault γ × σ)
    (h : ∀ (s : Session L α σ) d, s.Shows (some d) →
      Carries s.remembering (body d) (reference (some d) d)) :
    Performs (locked (reading body))
      (updating fun d => besides (reference (some d) d) d)
      (fun view => viewing view (reference view)) refused where
  alone s idle := by
    rintro ⟨d, m⟩
    have here := idle.holding (d, m)
    have called := h _ d (shows_busy_readers here.toOpen 0) m
    exact locked_eq here.toOpen rfl (reading_eq idle.usage_eq idle.usage_eq called)
  inside s view shows := by
    intro m
    have here := shows.remembering m
    cases view with
    | none => exact locked_eq here.toOpen rfl (reading_of_writer body (shows.of_writer rfl))
    | some d =>
        obtain ⟨rfl, n, usage⟩ := here.of_reader d rfl
        have called := h _ _ (shows_busy_readers here.toOpen (n + 1)) m
        exact locked_eq here.toOpen rfl (reading_eq usage usage called)
  lent s lent := by
    intro x
    have here := lent.holding x
    exact locked_eq here.toOpen rfl (reading_of_writer body lent.usage_eq)

theorem performs_writing
    {body : Deque α → Session L α σ → (Except Fault γ × Deque α) × Session L α σ}
    {reference : Deque α → σ → (Except Fault γ × Deque α) × σ}
    (h : ∀ (s : Session L α σ) d, s.Shows none → Carries s.remembering (body d) (reference d)) :
    Performs (locked (writing body)) (updating reference) (fun _ => refused) refused where
  alone s idle := by
    rintro ⟨d, m⟩
    have here := idle.holding (d, m)
    have called := h _ d (shows_busy_writer here.toOpen) m
    have done := writing_eq body (s := (s.holding (d, m)).entered)
      (t := (s.holding (d, (reference d m).2)).entered) idle.usage_eq idle.usage_eq called
    exact locked_eq here.toOpen rfl done
  inside s view shows := by
    intro m
    have here := shows.remembering m
    exact locked_eq here.toOpen rfl (writing_of_used here.used)
  lent s lent := by
    intro x
    have here := lent.holding x
    exact locked_eq here.toOpen rfl (writing_of_used here.used)

theorem performs_read (f : Deque α → γ) :
    Performs (Session.read f : Activity L α σ (Except Error γ))
      (updating fun d m => ((.ok (f d), d), m))
      (fun view => viewing view fun d m => (.ok (f d), m)) refused := by
  refine performs_reading (fun _ d m => (.ok (f d), m)) ?_
  intro s d shows m
  rfl

theorem performs_write (f : Deque α → Except Fault γ × Deque α) :
    Performs (Session.write f : Activity L α σ (Except Error γ)) (updating fun d m => (f d, m))
      (fun _ => refused) refused := by
  apply performs_writing
  intro s d shows m
  rfl

theorem performs_tryWrite (f : Deque α → Except Error γ × Deque α) :
    Performs (Session.tryWrite f : Activity L α σ (Except Error γ)) (trying f) (fun _ => refused)
      refused :=
  (performs_write _).joined

theorem performs_forEach {action : Callback (Session L α σ) α Unit}
    {reference : Option (Deque α) → Callback σ α Unit}
    (h : ∀ (s : Session L α σ) view, s.Shows view →
      ∀ x, Carries s.remembering (action x) (reference view x)) :
    Performs (Session.forEach action)
      (updating fun d => besides (d.forEach (reference (some d))) d)
      (fun view => viewing view fun d => d.forEach (reference view)) refused := by
  refine performs_reading (fun view d => d.forEach (reference view)) ?_
  intro s d shows
  exact Carries.forEach (h s (some d) shows) d

theorem performs_replaceAll {operator : Callback (Session L α σ) α α}
    {reference : Callback σ α α}
    (h : ∀ s : Session L α σ, s.Shows none →
    ∀ x, Carries s.remembering (operator x) (reference x)) :
    Performs (Session.replaceAll operator) (updating fun d => d.replaceAll reference)
      (fun _ => refused) refused := by
  apply performs_writing
  intro s d shows
  exact Carries.replaceAll (h s shows) d

theorem performs_sortBy {compare : Comparison (Session L α σ) α} {reference : Comparison σ α}
    (h : ∀ s : Session L α σ, s.Shows none →
      ∀ x y, Carries s.remembering (compare x y) (reference x y)) :
    Performs (Session.sortBy compare) (updating fun d => d.sortBy reference)
      (fun _ => refused) refused := by
  apply performs_writing
  intro s d shows
  exact Carries.sortBy (h s shows) d

theorem performs_insertAll (a : Allocator) (index : Option Nat) (count : Nat)
    {item : Callback (Session L α σ) Nat α} {finish : Activity L α σ Unit}
    {reference : Callback σ Nat α} {reference' : σ → Except Fault Unit × σ}
    (hi : ∀ s : Session L α σ, s.Shows none → ∀ i, Carries s.remembering (item i) (reference i))
    (hf : ∀ s : Session L α σ, s.Shows none → Carries s.remembering finish reference') :
    Performs (Session.insertAll a index count item finish)
      (inserting a index (delivered count reference reference')) (fun _ => refused) refused := by
  rw [← joining_insertingIn, Session.insertAll, deliver_eq]
  refine (performs_writing ?_).joined
  intro s d shows
  exact (Carries.delivered (hi s shows) (hf s shows) count).insertingIn a index d

theorem performs_removeWhere {predicate : Callback (Session L α σ) α Bool}
    {reference : Option (Deque α) → Callback σ α Bool}
    (h : ∀ (s : Session L α σ) view, s.Shows view →
      ∀ x, Carries s.remembering (predicate x) (reference view x)) :
    Performs (Session.removeWhere predicate)
      (updating fun d => d.removeWhere (reference (some d)))
      (fun view => planned (viewing view fun d => d.planRemoval (reference view))) refused where
  alone s idle := by
    rintro ⟨d, m⟩
    have here := idle.holding (d, m)
    have called := Carries.planRemoval (h _ _ (shows_busy_readers here.toOpen 0)) d m
    have plan : reading (fun d => d.planRemoval predicate) (s.holding (d, m)).entered =
        ((d.planRemoval (reference (some d)) m).1.map .ok,
          (s.holding (d, (d.planRemoval (reference (some d)) m).2)).entered) :=
      reading_eq idle.usage_eq idle.usage_eq called
    refine locked_eq here.toOpen rfl ?_
    rw [plan, updating, Deque.removeWhere]
    rcases outcome : d.planRemoval (reference (some d)) m with ⟨fault | _ | plan, m'⟩
    · rfl
    · rfl
    · have removed := expunge_of_idle (s := (s.holding (d, m')).entered) idle.usage_eq
        (planRemoval_place outcome)
      dsimp only [Except.map]
      rw [removed]
      rfl
  inside s view shows := by
    intro m
    have here := shows.remembering m
    refine locked_eq here.toOpen rfl ?_
    cases view with
    | none =>
        have blind := reading_of_writer (s := (s.remembering m).entered)
          (fun d => d.planRemoval predicate) (shows.of_writer rfl)
        rw [blind]
        rfl
    | some d =>
        obtain ⟨same, n, usage⟩ := shows.of_reader d rfl
        subst same
        have called :=
          Carries.planRemoval (h _ _ (shows_busy_readers here.toOpen (n + 1))) s.deque m
        have plan : reading (fun d => d.planRemoval predicate) (s.remembering m).entered =
            ((s.deque.planRemoval (reference (some s.deque)) m).1.map .ok,
              (s.remembering (s.deque.planRemoval (reference (some s.deque)) m).2).entered) :=
          reading_eq usage usage called
        rw [plan, planned, after, viewing, granted]
        rcases s.deque.planRemoval (reference (some s.deque)) m with ⟨fault | _ | plan, m'⟩
        · rfl
        · rfl
        · have kept : Session.expunge plan (s.remembering m').entered = _ :=
            expunge_of_used here.used
          dsimp only [Except.map]
          rw [kept]
          rfl
  lent s lent := by
    intro x
    have here := lent.holding x
    have blind := reading_of_writer (s := (s.holding x).entered)
      (fun d => d.planRemoval predicate) lent.usage_eq
    refine locked_eq here.toOpen rfl ?_
    rw [blind]
    rfl

theorem performs_retain {predicate : Callback (Session L α σ) α Bool}
    {reference : Option (Deque α) → Callback σ α Bool}
    (h : ∀ (s : Session L α σ) view, s.Shows view →
      ∀ x, Carries s.remembering (predicate x) (reference view x)) :
    Performs (Session.retain predicate)
      (updating fun d => d.retain (reference (some d)))
      (fun view => planned (viewing view fun d => d.planRemoval (Deque.negated (reference view))))
      refused := by
  have negated (s : Session L α σ) view (shows : s.Shows view) x :
      Carries s.remembering (Deque.negated predicate x) (Deque.negated (reference view) x) :=
    Carries.negated (h s view shows) x
  exact performs_removeWhere negated

end RingDeque

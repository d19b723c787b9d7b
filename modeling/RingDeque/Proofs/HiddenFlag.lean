import RingDeque.Proofs.Borrowing

/-!
# Sessions with a hidden flag

An operation looks at the thread's flag when it is about to take the lock, and not again. So nothing
changes if the flag is kept where only callbacks reach it: in the memory, as in `Session.concealed`.
Before each attempt to take the lock one then has to look there, as `heeding` does. `Conceals` says
that two activities correspond in this way.

That the thread itself is calm throughout in the second of them is the point: whatever an operation
does there, it does without an interruption.
-/

namespace RingDeque

variable {L α β γ σ : Type}

namespace Session

/-- The session with the thread's flag in the memory. The thread seems calm. -/
def concealed (s : Session L α σ) : Session L α (σ × Bool) where
  deque := s.deque
  usage := s.usage
  lock := s.lock
  thread := { s.thread with interrupted := false }
  kept := s.kept
  memory := (s.memory, s.thread.interrupted)

/-- The session with the flag back in its place. -/
def revealed (s : Session L α (σ × Bool)) : Session L α σ where
  deque := s.deque
  usage := s.usage
  lock := s.lock
  thread := { s.thread with interrupted := s.memory.2 }
  kept := s.kept
  memory := s.memory.1

theorem revealed_concealed (s : Session L α σ) : s.concealed.revealed = s :=
  rfl

theorem usage_concealed (s : Session L α σ) : s.concealed.usage = s.usage :=
  rfl

theorem kept_concealed (s : Session L α σ) : s.concealed.kept = s.kept :=
  rfl

/-- Look at the flag in the memory before an operation. -/
def heeding (operation : Activity L α (σ × Bool) (Except Error β)) :
    Activity L α (σ × Bool) (Except Error β) := fun s =>
  if s.memory.2 then (.ok (.error .cancelled), s) else operation s

theorem joined_heeding (activity : Activity L α (σ × Bool) (Except Error (Except Error β))) :
    Session.joined (heeding activity) = heeding (Session.joined activity) := by
  funext s
  rw [Session.joined, heeding, heeding]
  by_cases set : s.memory.2 = true
  · rw [if_pos set, if_pos set]
  · rw [if_neg set, if_neg set]
    rfl

variable [Mutex L]

/-- While no other thread has the lock, `F` comes to what `G` comes to with the flag in the memory,
and the lock is afterwards as it was. -/
def Conceals (F : Session L α σ → β × Session L α σ)
    (G : Session L α (σ × Bool) → β × Session L α (σ × Bool)) : Prop :=
  ∀ s, Mutex.Available s.lock → ∃ outcome t,
    F s = (outcome, t) ∧ G s.concealed = (outcome, t.concealed) ∧ t.lock = s.lock

theorem locked_of_interrupted {s : Session L α σ} (set : s.thread.interrupted = true)
    (body : Activity L α σ (Except Error β)) : locked body s = (.ok (.error .cancelled), s) := by
  rw [locked, Mutex.acquireInterruptibly, if_pos set]

/-- The thread that gets the lock does `body` and releases it. -/
theorem locked_of_clear [LawfulMutex L] {s : Session L α σ} (clear : s.thread.interrupted = false)
    (mine : Mutex.Available s.lock) (body : Activity L α σ (Except Error β)) :
    locked body s = ((body s.entered).1, (body s.entered).2.unlock) := by
  rw [locked, Mutex.acquireInterruptibly_eq clear mine]
  rfl

namespace Conceals

/-! ### Callbacks -/

/-- A session with this lock. -/
abbrev Near (α σ : Type) (lock : L) := { s : Session L α σ // s.lock = lock }

variable {F : Session L α σ → β × Session L α σ}
  {G : Session L α (σ × Bool) → β × Session L α (σ × Bool)} {lock : L}

theorem eq (h : Conceals F G) {s : Session L α σ} (mine : Mutex.Available s.lock) :
    G s.concealed = ((F s).1, (F s).2.concealed) := by
  obtain ⟨outcome, t, left, right, -⟩ := h s mine
  rw [left, right]

/-- What `F` comes to can be told from what `G` comes to. -/
theorem revealed_eq (h : Conceals F G) {s : Session L α σ} (mine : Mutex.Available s.lock)
    {outcome : β} {t : Session L α (σ × Bool)} (done : G s.concealed = (outcome, t)) :
    F s = (outcome, t.revealed) := by
  have same : ((F s).1, (F s).2.concealed) = (outcome, t) := (h.eq mine).symm.trans done
  obtain ⟨rfl, rfl⟩ := Prod.mk.inj same
  rw [revealed_concealed]

theorem lock_eq (h : Conceals F G) {s : Session L α σ} (mine : Mutex.Available s.lock) :
    (F s).2.lock = s.lock := by
  obtain ⟨outcome, t, left, -, same⟩ := h s mine
  rw [left]
  exact same

/-- Both activities work on a session whose lock stays as it is, each on its view of it. -/
def both (h : Conceals F G) (mine : Mutex.Available lock) (s : Near α σ lock) :
    β × Near α σ lock :=
  ((F s.1).1, ⟨(F s.1).2, (h.lock_eq (s.2.symm ▸ mine)).trans s.2⟩)

theorem left (h : Conceals F G) (mine : Mutex.Available lock) :
    Carries Subtype.val F (h.both mine) := by
  intro s
  rfl

theorem right (h : Conceals F G) (mine : Mutex.Available lock) :
    Carries (fun s => s.1.concealed) G (h.both mine) := by
  intro s
  exact h.eq (s.2.symm ▸ mine)

theorem of_both {H : (lock : L) → Mutex.Available lock → Near α σ lock → β × Near α σ lock}
    (left : ∀ lock mine, Carries Subtype.val F (H lock mine))
    (right : ∀ lock mine, Carries (fun s => s.1.concealed) G (H lock mine)) : Conceals F G := by
  intro s mine
  exact ⟨_, _, left s.lock mine ⟨s, rfl⟩, right s.lock mine ⟨s, rfl⟩,
    (H s.lock mine ⟨s, rfl⟩).2.2⟩

theorem negated {F : Callback (Session L α σ) γ Bool} {G : Callback (Session L α (σ × Bool)) γ Bool}
    (h : ∀ x, Conceals (F x) (G x)) (x : γ) :
    Conceals (Deque.negated F x) (Deque.negated G x) :=
  of_both (fun _ mine => Carries.negated (fun x => (h x).left mine) x)
    fun _ mine => Carries.negated (fun x => (h x).right mine) x

theorem planRemoval {F : Callback (Session L α σ) α Bool}
    {G : Callback (Session L α (σ × Bool)) α Bool} (h : ∀ x, Conceals (F x) (G x)) (d : Deque α) :
    Conceals (d.planRemoval F) (d.planRemoval G) :=
  of_both (fun _ mine => Carries.planRemoval (fun x => (h x).left mine) d)
    fun _ mine => Carries.planRemoval (fun x => (h x).right mine) d

theorem visit {F : Callback (Session L α σ) α Unit} {G : Callback (Session L α (σ × Bool)) α Unit}
    (h : ∀ x, Conceals (F x) (G x)) (d : Deque α) : Conceals (d.forEach F) (d.forEach G) :=
  of_both (fun _ mine => Carries.forEach (fun x => (h x).left mine) d)
    fun _ mine => Carries.forEach (fun x => (h x).right mine) d

theorem replacement {F : Callback (Session L α σ) α α} {G : Callback (Session L α (σ × Bool)) α α}
    (h : ∀ x, Conceals (F x) (G x)) (d : Deque α) : Conceals (d.replaceAll F) (d.replaceAll G) :=
  of_both (fun _ mine => Carries.replaceAll (fun x => (h x).left mine) d)
    fun _ mine => Carries.replaceAll (fun x => (h x).right mine) d

theorem sort {F : Comparison (Session L α σ) α} {G : Comparison (Session L α (σ × Bool)) α}
    (h : ∀ x y, Conceals (F x y) (G x y)) (d : Deque α) : Conceals (d.sortBy F) (d.sortBy G) :=
  of_both (fun _ mine => Carries.sortBy (fun x y => (h x y).left mine) d)
    fun _ mine => Carries.sortBy (fun x y => (h x y).right mine) d

theorem insertion {item : Callback (Session L α σ) Nat α} {finish : Activity L α σ Unit}
    {item' : Callback (Session L α (σ × Bool)) Nat α} {finish' : Activity L α (σ × Bool) Unit}
    (hi : ∀ i, Conceals (item i) (item' i)) (hf : Conceals finish finish') (a : Allocator)
    (index : Option Nat) (count : Nat) (d : Deque α) :
    Conceals (insertingIn a index (delivered count item finish) d)
      (insertingIn a index (delivered count item' finish') d) :=
  of_both
    (fun _ mine => (Carries.delivered (fun i => (hi i).left mine) (hf.left mine) count).insertingIn
      a index d)
    fun _ mine => (Carries.delivered (fun i => (hi i).right mine) (hf.right mine) count).insertingIn
      a index d

/-! ### Using and keeping -/

variable {body : Activity L α σ (Except Error β)} {body' : Activity L α (σ × Bool) (Except Error β)}

theorem reading {body : Deque α → Activity L α σ β} {body' : Deque α → Activity L α (σ × Bool) β}
    (h : ∀ d, Conceals (body d) (body' d)) :
    Conceals (Session.reading body) (Session.reading body') := by
  intro s mine
  rw [Session.reading, Session.reading, usage_concealed]
  cases s.usage.beginReading with
  | none => exact ⟨_, s, rfl, rfl, rfl⟩
  | some usage =>
      obtain ⟨outcome, t, left, right, same⟩ := h s.deque { s with usage := usage } mine
      have right : body' s.concealed.deque { s.concealed with usage := usage } = _ := right
      dsimp only
      rw [left, right]
      exact ⟨_, { t with usage := t.usage.endReading 1 }, rfl, rfl, same⟩

theorem writing {body : Deque α → Session L α σ → (Except Fault β × Deque α) × Session L α σ}
    {body' : Deque α → Session L α (σ × Bool) →
      (Except Fault β × Deque α) × Session L α (σ × Bool)}
    (h : ∀ d, Conceals (body d) (body' d)) :
    Conceals (Session.writing body) (Session.writing body') := by
  intro s mine
  rw [Session.writing, Session.writing, usage_concealed]
  cases s.usage.beginWriting with
  | none => exact ⟨_, s, rfl, rfl, rfl⟩
  | some usage =>
      obtain ⟨⟨outcome, d⟩, t, left, right, same⟩ := h s.deque { s with usage := usage } mine
      have right : body' s.concealed.deque { s.concealed with usage := usage } = _ := right
      dsimp only
      rw [left, right]
      exact ⟨_, { t with usage := t.usage.endWriting, deque := d }, rfl, rfl, same⟩

theorem joined {activity : Activity L α σ (Except Error (Except Error β))}
    {activity' : Activity L α (σ × Bool) (Except Error (Except Error β))}
    (h : Conceals activity activity') :
    Conceals (Session.joined activity) (Session.joined activity') := by
  intro s mine
  obtain ⟨outcome, t, left, right, same⟩ := h s mine
  rw [Session.joined, Session.joined, left, right]
  rcases outcome with fault | e | answer
  · exact ⟨_, t, rfl, rfl, same⟩
  · exact ⟨_, t, rfl, rfl, same⟩
  · exact ⟨_, t, rfl, rfl, same⟩

theorem expunge (plan : RemovalPlan) :
    Conceals (Session.expunge plan : Activity L α σ (Except Error Unit))
      (Session.expunge plan) := by
  rw [Session.expunge, Session.expunge]
  apply joined
  apply writing
  intro d s mine
  exact ⟨_, s, rfl, rfl, rfl⟩

theorem inSection {body : Activity L α σ β} {body' : Activity L α (σ × Bool) β}
    (h : Conceals body body') (kept : Kept) :
    Conceals (Session.inSection kept body) (Session.inSection kept body') := by
  intro s mine
  obtain ⟨outcome, t, left, right, same⟩ := h { s with kept := kept } mine
  have right : body' { s.concealed with kept := kept } = _ := right
  rw [Session.inSection, Session.inSection, left, right]
  exact ⟨_, { t with kept := s.kept, usage := t.kept.endAll t.usage }, rfl, rfl, same⟩

theorem edit (f : Deque α → Except Fault β × Deque α) :
    Conceals (Session.edit f : Activity L α σ (Option β)) (Session.edit f) := by
  intro s mine
  rw [Session.edit, Session.edit, kept_concealed]
  by_cases writes : s.kept.writer = true
  · rw [if_pos writes, if_pos writes]
    exact ⟨_, { s with deque := (f s.deque).2 }, rfl, rfl, rfl⟩
  · rw [if_neg writes, if_neg writes]
    exact ⟨_, s, rfl, rfl, rfl⟩

theorem keepReading :
    Conceals (Session.keepReading : Session L α σ → _) Session.keepReading := by
  intro s mine
  rw [Session.keepReading, Session.keepReading, usage_concealed]
  cases s.usage.beginReading with
  | none => exact ⟨_, s, rfl, rfl, rfl⟩
  | some usage =>
      exact ⟨_, { s with usage := usage, kept := { s.kept with readers := s.kept.readers + 1 } },
        rfl, rfl, rfl⟩

theorem keepWriting :
    Conceals (Session.keepWriting : Session L α σ → _) Session.keepWriting := by
  intro s mine
  rw [Session.keepWriting, Session.keepWriting, usage_concealed]
  cases s.usage.beginWriting with
  | none => exact ⟨_, s, rfl, rfl, rfl⟩
  | some usage =>
      exact ⟨_, { s with usage := usage, kept := { s.kept with writer := true } }, rfl, rfl, rfl⟩

theorem dropReading :
    Conceals (Session.dropReading : Session L α σ → _) Session.dropReading := by
  intro s mine
  rw [Session.dropReading, Session.dropReading, kept_concealed]
  by_cases none : s.kept.readers = 0
  · rw [if_pos none, if_pos none]
    exact ⟨_, s, rfl, rfl, rfl⟩
  · rw [if_neg none, if_neg none]
    exact ⟨_, { s with
      usage := s.usage.endReading 1
      kept := { s.kept with readers := s.kept.readers - 1 } }, rfl, rfl, rfl⟩

theorem dropWriting :
    Conceals (Session.dropWriting : Session L α σ → _) Session.dropWriting := by
  intro s mine
  rw [Session.dropWriting, Session.dropWriting, kept_concealed]
  by_cases writes : s.kept.writer = true
  · rw [if_pos writes, if_pos writes]
    exact ⟨_, { s with
      usage := s.usage.endWriting
      kept := { s.kept with writer := false } }, rfl, rfl, rfl⟩
  · rw [if_neg writes, if_neg writes]
    exact ⟨_, s, rfl, rfl, rfl⟩

theorem attempt {body : Activity L α σ β} {body' : Activity L α (σ × Bool) β}
    (h : Conceals body body') : Conceals (Session.attempt body) (Session.attempt body') := by
  intro s mine
  obtain ⟨outcome, t, left, right, same⟩ := h s mine
  rw [Session.attempt, Session.attempt, left, right]
  exact ⟨_, t, rfl, rfl, same⟩

/-! ### Operations -/

variable [LawfulMutex L]

theorem glance : Conceals (Session.glance : Session L α σ → _) Session.glance := by
  intro s mine
  exact ⟨s.seen, s, glance_eq mine, glance_eq (s := s.concealed) mine, rfl⟩

theorem locked (h : Conceals body body') :
    Conceals (Session.locked body) (heeding (Session.locked body')) := by
  intro s mine
  by_cases set : s.thread.interrupted = true
  · have refused : heeding (Session.locked body') s.concealed = (_, s.concealed) := if_pos set
    exact ⟨_, s, locked_of_interrupted set body, refused, rfl⟩
  · obtain ⟨outcome, t, left, right, same⟩ := h s.entered (Mutex.available_taken mine)
    have clear : s.thread.interrupted = false := Bool.eq_false_iff.mpr set
    have begins : heeding (Session.locked body') s.concealed =
        Session.locked body' s.concealed := if_neg set
    have within : s.concealed.entered = s.entered.concealed := rfl
    have released : t.unlock.lock = s.lock := by
      change Mutex.release t.lock = s.lock
      rw [same]
      exact Mutex.release_taken mine
    refine ⟨outcome, t.unlock, ?_, ?_, released⟩
    · rw [locked_of_clear clear mine, left]
    · rw [begins, locked_of_clear (s := s.concealed) rfl mine, within, right]
      rfl

theorem read (f : Deque α → β) :
    Conceals (Session.read f : Activity L α σ (Except Error β)) (heeding (Session.read f)) := by
  apply locked
  apply reading
  intro d s mine
  exact ⟨_, s, rfl, rfl, rfl⟩

theorem write (f : Deque α → Except Fault β × Deque α) :
    Conceals (Session.write f : Activity L α σ (Except Error β)) (heeding (Session.write f)) := by
  apply locked
  apply writing
  intro d s mine
  exact ⟨_, s, rfl, rfl, rfl⟩

theorem tryWrite (f : Deque α → Except Error β × Deque α) :
    Conceals (Session.tryWrite f : Activity L α σ (Except Error β))
      (heeding (Session.tryWrite f)) := by
  rw [Session.tryWrite, Session.tryWrite, ← joined_heeding]
  exact (write _).joined

theorem forEach {F : Callback (Session L α σ) α Unit} {G : Callback (Session L α (σ × Bool)) α Unit}
    (h : ∀ x, Conceals (F x) (G x)) :
    Conceals (Session.forEach F) (heeding (Session.forEach G)) :=
  locked (reading (visit h))

theorem replaceAll {F : Callback (Session L α σ) α α} {G : Callback (Session L α (σ × Bool)) α α}
    (h : ∀ x, Conceals (F x) (G x)) :
    Conceals (Session.replaceAll F) (heeding (Session.replaceAll G)) :=
  locked (writing (replacement h))

theorem sortBy {F : Comparison (Session L α σ) α} {G : Comparison (Session L α (σ × Bool)) α}
    (h : ∀ x y, Conceals (F x y) (G x y)) :
    Conceals (Session.sortBy F) (heeding (Session.sortBy G)) :=
  locked (writing (sort h))

theorem insertAll {item : Callback (Session L α σ) Nat α} {finish : Activity L α σ Unit}
    {item' : Callback (Session L α (σ × Bool)) Nat α} {finish' : Activity L α (σ × Bool) Unit}
    (hi : ∀ i, Conceals (item i) (item' i)) (hf : Conceals finish finish') (a : Allocator)
    (index : Option Nat) (count : Nat) :
    Conceals (Session.insertAll a index count item finish)
      (heeding (Session.insertAll a index count item' finish')) := by
  rw [Session.insertAll, Session.insertAll, deliver_eq, deliver_eq, ← joined_heeding]
  exact (locked (writing (insertion hi hf a index count))).joined

/-- The removal is planned and carried out while the lock is had, and the flag is not looked at in
between. -/
theorem removeWhere {F : Callback (Session L α σ) α Bool}
    {G : Callback (Session L α (σ × Bool)) α Bool} (h : ∀ x, Conceals (F x) (G x)) :
    Conceals (Session.removeWhere F) (heeding (Session.removeWhere G)) := by
  apply locked
  intro s mine
  obtain ⟨planned, t, left, right, same⟩ := reading (fun d => planRemoval h d) s mine
  dsimp only
  rw [left, right]
  rcases planned with fault | e | _ | plan
  · exact ⟨_, t, rfl, rfl, same⟩
  · exact ⟨_, t, rfl, rfl, same⟩
  · exact ⟨_, t, rfl, rfl, same⟩
  · obtain ⟨removed, t', left, right, same'⟩ := expunge plan t (same ▸ mine)
    have same := same'.trans same
    dsimp only
    rw [left, right]
    rcases removed with fault | e | _
    · exact ⟨_, t', rfl, rfl, same⟩
    · exact ⟨_, t', rfl, rfl, same⟩
    · exact ⟨_, t', rfl, rfl, same⟩

theorem retain {F : Callback (Session L α σ) α Bool} {G : Callback (Session L α (σ × Bool)) α Bool}
    (h : ∀ x, Conceals (F x) (G x)) :
    Conceals (Session.retain F) (heeding (Session.retain G)) :=
  removeWhere (negated h)

/-! ### Sections -/

theorem hold {body : Activity L α σ β} {body' : Activity L α (σ × Bool) β}
    (h : Conceals body body') :
    Conceals (Session.hold body) (heeding (Session.hold body')) := by
  apply locked
  intro s mine
  obtain ⟨outcome, t, left, right, same⟩ := h.inSection .nothing s mine
  dsimp only
  rw [left, right]
  exact ⟨_, t, rfl, rfl, same⟩

theorem withLocked {body : Activity L α σ β} {body' : Activity L α (σ × Bool) β}
    (h : Conceals body body') :
    Conceals (Session.withLocked body) (heeding (Session.withLocked body')) := by
  apply locked
  intro s mine
  dsimp only
  rw [usage_concealed]
  cases s.usage.beginWriting with
  | none => exact ⟨_, s, rfl, rfl, rfl⟩
  | some usage =>
      obtain ⟨outcome, t, left, right, same⟩ :=
        h.inSection ⟨0, true⟩ { s with usage := usage } mine
      have right : Session.inSection ⟨0, true⟩ body' { s.concealed with usage := usage } = _ :=
        right
      dsimp only
      rw [left, right]
      exact ⟨_, t, rfl, rfl, same⟩

end Conceals

end Session

end RingDeque

import RingDeque.Proofs.Activity

/-!
# References that are borrowed from a section

In a locked section a thread may borrow references to the deque, and have them while it takes steps
that are no operations. `Follows` says what an activity comes to for a thread that has an access to
begin with: `around` runs it from the session in which the access is had to the session at the end,
where the section has ended or all is given back.

With no reference borrowed this is what `Performs` says. Activities that are done one after the
other, attempts, and sections whose body is known come to what their parts come to.
-/

namespace RingDeque

variable {L α σ β γ : Type}

/-- How many operations read. -/
def Usage.count : Usage → Nat
  | .readers count => count
  | .writer => 0

namespace Session

/-- The session in which so many more references to read through are borrowed. -/
def borrowing (count : Nat) (s : Session L α σ) : Session L α σ :=
  { s with
    usage := .readers (s.usage.count + count)
    kept := { s.kept with readers := s.kept.readers + count } }

/-- The session in which a reference to change the deque through is borrowed. -/
def borrowingAlone (s : Session L α σ) : Session L α σ :=
  { s with usage := .writer, kept := { s.kept with writer := true } }

/-- The session when the section that the thread is in ends. -/
def settle (s : Session L α σ) : Session L α σ :=
  { s with usage := s.kept.endAll s.usage, kept := .nothing }

variable {s : Session L α σ} {n : Nat}

theorem borrowing_zero (usage : s.usage = .readers n) : s.borrowing 0 = s := by
  obtain ⟨d, u, lock, thread, kept, m⟩ := s
  cases usage
  rfl

theorem keepReading_of_readers (usage : s.usage = .readers n) :
    s.keepReading = (.ok s.deque, s.borrowing 1) := by
  obtain ⟨d, u, lock, thread, kept, m⟩ := s
  cases usage
  rfl

theorem keepReading_of_writer (usage : s.usage = .writer) :
    s.keepReading = (.error .concurrentModification, s) := by
  rw [keepReading, usage]
  rfl

theorem keepWriting_of_used (used : s.usage.beginWriting = none) :
    s.keepWriting = (.error .concurrentModification, s) := by
  rw [keepWriting, used]

theorem keepWriting_of_idle (usage : s.usage = .readers 0) :
    s.keepWriting = (.ok (), s.borrowingAlone) := by
  rw [keepWriting, usage]
  rfl

theorem dropReading_borrowing (count : Nat) (s : Session L α σ) :
    (s.borrowing (count + 1)).dropReading = (true, s.borrowing count) := by
  have kept : (s.borrowing (count + 1)).kept.readers ≠ 0 := Nat.succ_ne_zero _
  rw [dropReading, if_neg kept]
  rfl

theorem dropWriting_borrowingAlone (usage : s.usage = .readers 0) (kept : s.kept.writer = false) :
    s.borrowingAlone.dropWriting = (true, s) := by
  obtain ⟨d, u, lock, thread, ⟨readers, writer⟩, m⟩ := s
  cases usage
  cases kept
  rfl

theorem settle_of_nothing (kept : s.kept = .nothing) : s.settle = s := by
  obtain ⟨d, u, lock, thread, k, m⟩ := s
  cases kept
  exact congrArg (fun u => (⟨d, u, lock, thread, .nothing, m⟩ : Session L α σ))
    (Kept.endAll_nothing u)

theorem settle_borrowing (kept : s.kept = .nothing) (usage : s.usage = .readers n) (count : Nat) :
    (s.borrowing count).settle = s := by
  obtain ⟨d, u, lock, thread, k, m⟩ := s
  cases kept
  cases usage
  have ended : (Kept.mk (0 + count) false).endAll (.readers (n + count)) = .readers n := by
    rw [Nat.zero_add]
    exact congrArg Usage.readers (Nat.add_sub_cancel n count)
  exact congrArg (fun u => (⟨d, u, lock, thread, .nothing, m⟩ : Session L α σ)) ended

theorem settle_borrowingAlone (kept : s.kept = .nothing) (usage : s.usage = .readers 0) :
    s.borrowingAlone.settle = s := by
  obtain ⟨d, u, lock, thread, k, m⟩ := s
  cases kept
  cases usage
  rfl

/-! ### A glance -/

section Glance

variable [Mutex L] [LawfulMutex L]

/-- A thread that gets the lock sees the deque unless an operation writes, and gives the lock
back. -/
theorem glance_eq (mine : Mutex.Available s.lock) :
    s.glance = (s.seen, s) := by
  have released : ({ s with lock := Mutex.taken s.lock } : Session L α σ).unlock = s := by
    rw [unlock, Mutex.release_taken mine]
  rw [glance, Mutex.tryAcquire_of_available mine]
  dsimp only
  rw [released]

theorem glance_of_readers (mine : Mutex.Available s.lock) (usage : s.usage = .readers n) :
    s.glance = (.deque s.deque, s) := by
  rw [glance_eq mine, seen, usage]

theorem glance_of_writer (mine : Mutex.Available s.lock) (usage : s.usage = .writer) :
    s.glance = (.borrowed, s) := by
  rw [glance_eq mine, seen, usage]

theorem Shows.glance_eq {view : Option (Deque α)} (h : s.Shows view) :
    s.glance = (view.elim .borrowed .deque, s) := by
  cases view with
  | none => exact glance_of_writer h.mine (h.of_writer rfl)
  | some d =>
      obtain ⟨same, n, usage⟩ := h.of_reader d rfl
      rw [glance_of_readers h.mine usage, same]
      rfl

end Glance

end Session

namespace Program

open Session

/-! ### Access -/

namespace Access

/-- The session in which a program has this access. -/
def enter (s : Session L α σ) : Access → Session L α σ
  | .operations => s
  | .lent => s
  | .reading others => s.borrowing (others + 1)
  | .writing => s.borrowingAlone

/-- Whether a program that is called back can have this access. -/
def Called (view : Option (Deque α)) : Access → Prop
  | .operations => True
  | .reading _ => view ≠ none
  | _ => False

end Access

/-- The session that a program leaves at its end. -/
def leave (guarded : Bool) (s : Session L α σ) : Session L α σ :=
  if guarded then s.settle else s

/-- An activity between the point where a program has an access and its end. -/
def around (access : Access) (guarded : Bool) (activity : Activity L α σ β) : Activity L α σ β :=
  fun s =>
    let (outcome, s) := activity (access.enter s)
    (outcome, leave guarded s)

variable {access : Access} {guarded : Bool} {s : Session L α σ} {view : Option (Deque α)}

theorem enter_remembering (access : Access) (s : Session L α σ) (m : σ) :
    access.enter (s.remembering m) = (access.enter s).remembering m := by
  cases access with
  | operations => rfl
  | lent => rfl
  | reading others => rfl
  | writing => rfl

theorem memory_enter (access : Access) (s : Session L α σ) :
    (access.enter s).memory = s.memory := by
  cases access with
  | operations => rfl
  | lent => rfl
  | reading others => rfl
  | writing => rfl

theorem thread_enter (access : Access) (s : Session L α σ) :
    (access.enter s).thread = s.thread := by
  cases access with
  | operations => rfl
  | lent => rfl
  | reading others => rfl
  | writing => rfl

theorem enter_giveBack {n : Nat} (usage : s.usage = .readers n) (others : Nat) :
    (Access.reading others).giveBack.enter s = s.borrowing others := by
  cases others with
  | zero => exact (borrowing_zero usage).symm
  | succ others => rfl

/-- A program that has given back what it borrowed leaves the session as it is, and a section
settles the rest. -/
theorem leave_enter (ends : access.Settled ∨ guarded = true)
    (settles : guarded = true → (access.enter s).settle = s) :
    leave guarded (access.enter s) = s := by
  cases guarded with
  | false =>
      obtain (rfl | rfl) | ends := ends
      · rfl
      · rfl
      · cases ends
  | true => exact settles rfl

theorem Carries.andThen {μ : Type} {ι : μ → Session L α σ} {first : Activity L α σ γ}
    {next : γ → Activity L α σ β} {reference : μ → Except Fault γ × μ}
    {reference' : γ → μ → Except Fault β × μ} (stays : ∀ m, leave guarded (ι m) = ι m)
    (h : Carries ι first reference)
    (hn : ∀ answer, Carries ι (around .operations guarded (next answer)) (reference' answer)) :
    Carries ι (around .operations guarded (Program.andThen first next))
      (after reference reference') := by
  intro m
  rw [around, Access.enter, Program.andThen, after, h m]
  rcases reference m with ⟨fault | answer, m'⟩
  · exact congrArg (Except.error fault, ·) (stays m')
  · exact hn answer m'

/-- A section puts back what its caller keeps up. -/
theorem inSection_eq {body : Activity L α σ γ} {t : Session L α σ} {outcome : Except Fault γ}
    (kept : t.kept = s.kept)
    (done : around .operations true body { s with kept := .nothing } =
      (outcome, { t with kept := .nothing })) :
    inSection .nothing body s = (outcome, t) := by
  have ended : inSection .nothing body s =
      ((around .operations true body { s with kept := .nothing }).1,
        { (around .operations true body { s with kept := .nothing }).2 with kept := s.kept }) := rfl
  rw [ended, done, ← kept]

theorem inSection_lent {body : Activity L α σ γ} {t : Session L α σ} {outcome : Except Fault γ}
    (usage : t.usage = .readers 0) (kept : t.kept = s.kept)
    (done : body { s with kept := ⟨0, true⟩ } =
      (outcome, { t with usage := .writer, kept := ⟨0, true⟩ })) :
    inSection ⟨0, true⟩ body s = (outcome, t) := by
  rw [inSection, done, ← kept]
  exact congrArg (outcome, ·) (with_usage usage)

/-! ### Situations -/

variable [Mutex L]

theorem settle_enter_idle (access : Access) (idle : s.Idle) : (access.enter s).settle = s := by
  cases access with
  | operations => exact settle_of_nothing idle.kept_eq
  | lent => exact settle_of_nothing idle.kept_eq
  | reading others => exact settle_borrowing idle.kept_eq idle.usage_eq (others + 1)
  | writing => exact settle_borrowingAlone idle.kept_eq idle.usage_eq

theorem settle_enter_shows (shows : s.Shows view) (called : access.Called view)
    (kept : s.kept = .nothing) : (access.enter s).settle = s := by
  cases access with
  | operations => exact settle_of_nothing kept
  | lent => exact called.elim
  | reading others =>
      obtain ⟨d, rfl⟩ := Option.ne_none_iff_exists'.mp called
      obtain ⟨-, n, usage⟩ := shows.of_reader d rfl
      exact settle_borrowing kept usage (others + 1)
  | writing => exact called.elim

theorem shows_enter (shows : s.Shows view) (called : access.Called view) :
    (access.enter s).Shows view := by
  cases access with
  | operations => exact shows
  | lent => exact called.elim
  | reading others =>
      refine ⟨⟨shows.calm, shows.mine⟩, ?_, fun unseen => absurd unseen called⟩
      intro d seen
      exact ⟨(shows.of_reader d seen).1, _, rfl⟩
  | writing => exact called.elim

/-! ### One step -/

/-- What an activity comes to for a program that has an access and, if it is `guarded`, ends with a
section. A callback may run in a section that keeps uses up for its caller, and those stay; only a
section of the program's own begins with nothing kept up. -/
structure Follows (access : Access) (guarded : Bool) (activity : Activity L α σ β)
    (alone : Deque α × σ → Except Fault β × (Deque α × σ))
    (inside : Option (Deque α) → σ → Except Fault β × σ)
    (lent : Deque α × σ → Except Fault β × (Deque α × σ)) : Prop where
  alone : access ≠ .lent → ∀ s : Session L α σ, s.Idle →
    Carries s.holding (around access guarded activity) alone
  inside : ∀ view, access.Called view → ∀ s : Session L α σ, s.Shows view →
    (guarded = true → s.kept = .nothing) →
      Carries s.remembering (around access guarded activity) (inside view)
  lent : access = .lent → ∀ s : Session L α σ, s.Lent → Carries s.holding activity lent

theorem Performs.follows {activity : Activity L α σ β}
    {alone lent : Deque α × σ → Except Fault β × (Deque α × σ)}
    {inside : Option (Deque α) → σ → Except Fault β × σ} (h : Performs activity alone inside lent)
    (settled : access.Settled) : Follows access false activity alone inside lent where
  alone apart s idle := by
    obtain rfl | rfl := settled
    · exact h.alone s idle
    · contradiction
  inside view called s shows kept := by
    obtain rfl | rfl := settled
    · exact h.inside s view shows
    · exact called.elim
  lent same s lent := h.lent s lent

theorem follows_end (outcome : Except Fault β) (ends : access.Settled ∨ guarded = true) :
    Follows access guarded (fun s : Session L α σ => (outcome, s)) (fun s => (outcome, s))
      (fun _ m => (outcome, m)) (fun s => (outcome, s)) where
  alone apart s idle := by
    intro x
    exact congrArg (outcome, ·)
      (leave_enter ends fun _ => settle_enter_idle access (idle.holding x))
  inside view called s shows kept := by
    intro m
    exact congrArg (outcome, ·)
      (leave_enter ends fun ending => settle_enter_shows (shows.remembering m) called (kept ending))
  lent same s lent := by
    intro x
    rfl

theorem Follows.andThen {first : Activity L α σ γ} {next : γ → Activity L α σ β}
    {alone lent : Deque α × σ → Except Fault γ × (Deque α × σ)}
    {inside : Option (Deque α) → σ → Except Fault γ × σ}
    {alone' lent' : γ → Deque α × σ → Except Fault β × (Deque α × σ)}
    {inside' : γ → Option (Deque α) → σ → Except Fault β × σ} (settled : access.Settled)
    (h : Follows access false first alone inside lent)
    (hn : ∀ answer, Follows access guarded (next answer) (alone' answer) (inside' answer)
      (lent' answer)) :
    Follows access guarded (Program.andThen first next) (after alone alone')
      (fun view => after (inside view) fun answer => inside' answer view) (after lent lent') where
  alone apart s idle := by
    obtain rfl | rfl := settled
    · have stays (x : Deque α × σ) :
          leave guarded (Access.operations.enter (s.holding x)) = s.holding x :=
        leave_enter (.inl (.inl rfl)) fun _ => settle_enter_idle .operations (idle.holding x)
      exact Carries.andThen stays (h.alone apart s idle) fun answer =>
        (hn answer).alone apart s idle
    · contradiction
  inside view called s shows kept := by
    obtain rfl | rfl := settled
    · have stays (m : σ) :
          leave guarded (Access.operations.enter (s.remembering m)) = s.remembering m :=
        leave_enter (.inl (.inl rfl)) fun ending =>
          settle_enter_shows (shows.remembering m) called (kept ending)
      have first := h.inside view called s shows nofun
      exact Carries.andThen stays first fun answer => (hn answer).inside view called s shows kept
    · exact called.elim
  lent same s lent := by
    have stays (x : Deque α × σ) : leave false (s.holding x) = s.holding x := rfl
    exact Carries.andThen stays (h.lent same s lent) fun answer => (hn answer).lent same s lent

theorem Follows.attempt {body : Activity L α σ γ}
    {alone lent : Deque α × σ → Except Fault γ × (Deque α × σ)}
    {inside : Option (Deque α) → σ → Except Fault γ × σ}
    (h : Follows access false body alone inside lent) :
    Follows access false (Session.attempt body) (attempted alone)
      (fun view => attempted (inside view)) (attempted lent) where
  alone apart s idle := by
    intro x
    have called : body (access.enter (s.holding x)) = _ := h.alone apart s idle x
    rw [around, Session.attempt, called]
    rfl
  inside view called s shows kept := by
    intro m
    have called : body (access.enter (s.remembering m)) = _ := h.inside view called s shows kept m
    rw [around, Session.attempt, called]
    rfl
  lent same s lent := by
    intro x
    rw [Session.attempt, h.lent same s lent x]
    rfl

/-! ### Sections -/

variable [LawfulMutex L]

theorem hold_eq {body : Activity L α σ γ} {t : Session L α σ} {outcome : Except Fault γ}
    (h : s.Open) (lock : t.lock = s.lock) (kept : t.kept = s.kept)
    (done : around .operations true body { s.entered with kept := .nothing } =
      (outcome, { t.entered with kept := .nothing })) :
    Session.hold body s = (outcome.map .ok, t) := by
  refine locked_eq h lock ?_
  rw [inSection_eq (s := s.entered) (t := t.entered) kept done]

/-- The body of a section is a program of its own in a session where nothing is kept up yet. If the
deque was lent to the thread, the body sees nothing of it. -/
theorem performs_hold {body : Activity L α σ γ}
    {alone lent : Deque α × σ → Except Fault γ × (Deque α × σ)}
    {inside : Option (Deque α) → σ → Except Fault γ × σ}
    (h : Follows .operations true body alone inside lent) :
    Performs (Session.hold body) (granted alone) (fun view => granted (inside view))
      (updating (besides (inside none))) where
  alone s idle := by
    intro x
    have within : Session.Idle { s.entered with kept := .nothing } :=
      ⟨⟨idle.calm, Mutex.available_taken idle.mine⟩, idle.usage_eq, rfl⟩
    have called := h.alone nofun _ within x
    exact hold_eq (idle.holding x).toOpen rfl rfl called
  inside s view shows := by
    intro m
    have within : Session.Shows { s.entered with kept := .nothing } view :=
      ⟨⟨shows.calm, Mutex.available_taken shows.mine⟩, shows.of_reader, shows.of_writer⟩
    have called := h.inside view trivial _ within (fun _ => rfl) m
    exact hold_eq (shows.remembering m).toOpen rfl rfl called
  lent s lent := by
    rintro ⟨d, m⟩
    have within : Session.Shows { (s.holding (d, m)).entered with kept := .nothing } none :=
      ⟨⟨lent.calm, Mutex.available_taken lent.mine⟩, nofun, fun _ => lent.usage_eq⟩
    have called := h.inside none trivial _ within (fun _ => rfl) m
    exact hold_eq (lent.holding (d, m)).toOpen rfl rfl called

theorem performs_withLocked {body : Activity L α σ γ}
    {alone lent : Deque α × σ → Except Fault γ × (Deque α × σ)}
    {inside : Option (Deque α) → σ → Except Fault γ × σ}
    (h : Follows .lent false body alone inside lent) :
    Performs (Session.withLocked body) (granted lent) (fun _ => refused) refused where
  alone s idle := by
    intro x
    have begun : (s.holding x).entered.usage.beginWriting = some .writer := by
      rw [show (s.holding x).entered.usage = .readers 0 from idle.usage_eq]
      rfl
    have here : Session.Lent { s.entered with usage := .writer, kept := ⟨0, true⟩ } :=
      ⟨⟨idle.calm, Mutex.available_taken idle.mine⟩, rfl, rfl⟩
    have called := h.lent rfl _ here x
    have done : inSection ⟨0, true⟩ body { (s.holding x).entered with usage := .writer } =
        ((lent x).1, (s.holding (lent x).2).entered) :=
      inSection_lent idle.usage_eq rfl called
    refine locked_eq (idle.holding x).toOpen rfl ?_
    rw [begun]
    dsimp only
    rw [done]
    rfl
  inside s view shows := by
    intro m
    refine locked_eq (shows.remembering m).toOpen rfl ?_
    rw [show (s.remembering m).entered.usage.beginWriting = none from shows.used]
    rfl
  lent s lent := by
    intro x
    refine locked_eq (lent.holding x).toOpen rfl ?_
    rw [show (s.holding x).entered.usage.beginWriting = none from lent.used]
    rfl

end Program

end RingDeque

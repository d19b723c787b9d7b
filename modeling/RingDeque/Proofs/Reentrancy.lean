import RingDeque.Proofs.Borrowing

/-!
# Operations that call back into operations

On one thread whose flag is clear, a plain program comes to what is read off it: `alone` if nobody
uses the deque, and `inside` an operation that is under way. So an operation on a shared deque is
the operation of the same name on a deque, whatever its callbacks do, and no callback changes the
deque. The lock and the uses are afterwards as they were, also when the program ended in a fault.

The induction is on the program, and the callbacks of an operation are parts of it. It runs over
programs that begin with any access, since what follows after a reference was borrowed is a program
too.
-/

namespace RingDeque

namespace Program

open Session

variable {L α σ β γ : Type} [Mutex L] {access : Access} {guarded : Bool}
  {s : Session L α σ}

/-! ### Programs -/

/-- What is read off a program is what it does. -/
def Agrees (L : Type) [Mutex L] (p : Program α σ β) (access : Access) (guarded : Bool) : Prop :=
  Follows (L := L) access guarded p.run (p.alone access) (fun view => p.inside view) p.lent

/-- A program whose next step is no operation goes on as another program, with another access if the
step borrows a reference or gives one back. Which program that is depends on what the step finds. -/
theorem agrees_of_step {p : Program α σ β}
    (alone : access ≠ .lent → ∀ s : Session L α σ, s.Idle → ∀ x, ∃ q access' x',
      access' ≠ .lent ∧ Agrees L q access' guarded ∧
        p.run (access.enter (s.holding x)) = q.run (access'.enter (s.holding x')) ∧
        p.alone access x = q.alone access' x')
    (inside : ∀ view, access.Called view → ∀ s : Session L α σ, s.Shows view → ∀ m, ∃ q access' m',
      access'.Called view ∧ Agrees L q access' guarded ∧
        p.run (access.enter (s.remembering m)) = q.run (access'.enter (s.remembering m')) ∧
        p.inside view m = q.inside view m')
    (lent : access = .lent → ∀ s : Session L α σ, s.Lent → ∀ x, ∃ q x', Agrees L q .lent guarded ∧
      p.run (s.holding x) = q.run (s.holding x') ∧ p.lent x = q.lent x') :
    p.Agrees L access guarded := by
  constructor
  case alone =>
    intro apart s idle x
    obtain ⟨q, access', x', apart', h, run, same⟩ := alone apart s idle x
    rw [around, run, same]
    exact h.alone apart' s idle x'
  case inside =>
    intro view called s shows kept m
    obtain ⟨q, access', m', called', h, run, same⟩ := inside view called s shows m
    rw [around, run, same]
    exact h.inside view called' s shows kept m'
  case lent =>
    intro taken s given x
    obtain ⟨q, x', h, run, same⟩ := lent taken s given x
    rw [run, same]
    exact h.lent rfl s given x'

/-! ### Steps that every program may take -/

theorem agrees_recall {f : σ → γ × σ} {next : γ → Program α σ β}
    (h : ∀ answer, (next answer).Agrees L access guarded) :
    (Program.recall f next).Agrees L access guarded := by
  have begins (s : Session L α σ) : (Program.recall f next).run (access.enter s) =
      (next (f s.memory).1).run (access.enter (s.remembering (f s.memory).2)) := by
    rw [enter_remembering, ← memory_enter access s]
    rfl
  apply agrees_of_step
  case alone =>
    rintro apart s idle ⟨d, m⟩
    exact ⟨next (f m).1, access, (d, (f m).2), apart, h _, begins _, rfl⟩
  case inside =>
    intro view called s shows m
    exact ⟨next (f m).1, access, (f m).2, called, h _, begins _, rfl⟩
  case lent =>
    rintro rfl s lent ⟨d, m⟩
    exact ⟨next (f m).1, (d, (f m).2), h _, begins _, rfl⟩

theorem agrees_glance [LawfulMutex L] {next : Glance α → Program α σ β}
    (h : ∀ answer, (next answer).Agrees L access guarded) :
    (Program.glance next).Agrees L access guarded := by
  have begins {s : Session L α σ} {answer : Glance α} (seen : s.glance = (answer, s)) :
      (Program.glance next).run s = (next answer).run s := by
    have begun : (Program.glance next).run s = (next s.glance.1).run s.glance.2 := rfl
    rw [begun, seen]
  apply agrees_of_step
  case alone =>
    intro apart s idle x
    cases access with
    | operations =>
        have seen : (s.holding x).glance = (.deque x.1, s.holding x) :=
          glance_of_readers idle.mine idle.usage_eq
        exact ⟨next (.deque x.1), .operations, x, apart, h _, begins seen, rfl⟩
    | lent => contradiction
    | reading others =>
        have seen : ((s.holding x).borrowing (others + 1)).glance = (.deque x.1, _) :=
          glance_of_readers idle.mine rfl
        exact ⟨next (.deque x.1), .reading others, x, apart, h _, begins seen, rfl⟩
    | writing =>
        have seen : (s.holding x).borrowingAlone.glance = (.borrowed, _) :=
          glance_of_writer idle.mine rfl
        exact ⟨next .borrowed, .writing, x, apart, h _, begins seen, rfl⟩
  case inside =>
    intro view called s shows m
    have seen := (shows_enter (shows.remembering m) called).glance_eq
    exact ⟨next (view.elim .borrowed .deque), access, m, called, h _, begins seen, rfl⟩
  case lent =>
    rintro rfl s lent x
    have seen : (s.holding x).glance = (.borrowed, s.holding x) :=
      glance_of_writer lent.mine lent.usage_eq
    exact ⟨next .borrowed, x, h _, begins seen, rfl⟩

/-- A look at the flag finds it clear, and taking note of it changes nothing. -/
theorem agrees_of_flag {p q : Program α σ β}
    (run : ∀ s : Session L α σ, s.thread.interrupted = false → p.run s = q.run s)
    (alone : p.alone access = q.alone access)
    (inside : ∀ view, p.inside view = q.inside view) (lent : p.lent = q.lent)
    (h : q.Agrees L access guarded) : p.Agrees L access guarded := by
  have begins {s : Session L α σ} (calm : s.thread.interrupted = false) :
      p.run (access.enter s) = q.run (access.enter s) := by
    apply run
    rw [thread_enter, calm]
  apply agrees_of_step
  case alone =>
    intro apart s idle x
    exact ⟨q, access, x, apart, h, begins idle.calm, congrFun alone x⟩
  case inside =>
    intro view called s shows m
    exact ⟨q, access, m, called, h, begins shows.calm, congrFun (inside view) m⟩
  case lent =>
    rintro rfl s given x
    exact ⟨q, x, h, begins given.calm, congrFun lent x⟩

theorem agrees_isInterrupted {next : Bool → Program α σ β}
    (h : (next false).Agrees L access guarded) :
    (Program.isInterrupted next).Agrees L access guarded := by
  refine agrees_of_flag (q := next false) ?_ rfl (fun view => rfl) rfl h
  intro s calm
  exact congrArg (fun flag => (next flag).run s) calm

theorem agrees_takeInterruption {next : Bool → Program α σ β}
    (h : (next false).Agrees L access guarded) :
    (Program.takeInterruption next).Agrees L access guarded := by
  refine agrees_of_flag (q := next false) ?_ rfl (fun view => rfl) rfl h
  rintro ⟨d, u, lock, ⟨flag, waits⟩, kept, m⟩ calm
  cases calm
  rfl

/-! ### References -/

theorem after_editing {f : Deque α → Except Fault γ × Deque α} {d d' : Deque α} {m : σ}
    {outcome : Except Fault γ} {next : γ → Deque α × σ → Except Fault β × (Deque α × σ)}
    (edited : f d = (outcome, d')) :
    after (editing f) next (d, m) = after (fun x => (outcome, x)) next (d', m) := by
  rw [after, after, editing, edited]

theorem agrees_edit {f : Deque α → Except Fault γ × Deque α} {next : Option γ → Program α σ β}
    (taken : access = .lent ∨
      access = .writing ∧ (guarded = true ∨ ∀ d, ∃ answer, (f d).1 = .ok answer))
    (h : ∀ answer, (next (some answer)).Agrees L access guarded) :
    (Program.edit f next).Agrees L access guarded := by
  have begins {s : Session L α σ} (kept : s.kept.writer = true) {outcome : Except Fault γ}
      {d : Deque α} (edited : f s.deque = (outcome, d)) :
      (Program.edit f next).run s = Program.andThen (fun s => (outcome.map some, s))
        (fun answer => (next answer).run) { s with deque := d } := by
    have begun : (Program.edit f next).run s =
        Program.andThen (Session.edit f) (fun answer => (next answer).run) s := rfl
    rw [begun, Program.andThen, Session.edit, if_pos kept, edited]
    rfl
  apply agrees_of_step
  case alone =>
    rintro apart s idle ⟨d, m⟩
    obtain rfl | ⟨rfl, ends⟩ := taken
    · contradiction
    have kept : (Access.enter (s.holding (d, m)) .writing).kept.writer = true := rfl
    rcases edited : f d with ⟨fault | answer, d'⟩
    · -- A fault ends the program while it has a reference, so a section must end with it.
      have ending : guarded = true := by
        refine ends.resolve_right fun safe => ?_
        obtain ⟨answer, same⟩ := safe d
        rw [edited] at same
        cases same
      exact ⟨.fail fault, .writing, (d', m), apart, follows_end _ (.inr ending),
        begins kept edited, after_editing edited⟩
    · exact ⟨next (some answer), .writing, (d', m), apart, h answer, begins kept edited,
        after_editing edited⟩
  case inside =>
    intro view called s shows m
    obtain rfl | ⟨rfl, ends⟩ := taken
    · exact called.elim
    · exact called.elim
  case lent =>
    rintro rfl s given ⟨d, m⟩
    have kept : (s.holding (d, m)).kept.writer = true := by
      rw [show (s.holding (d, m)).kept = ⟨0, true⟩ from given.kept_eq]
    rcases edited : f d with ⟨fault | answer, d'⟩
    · exact ⟨.fail fault, (d', m), follows_end _ (.inl (.inr rfl)), begins kept edited,
        after_editing edited⟩
    · exact ⟨next (some answer), (d', m), h answer, begins kept edited, after_editing edited⟩

section KeepReading

variable {next : Except Error (Deque α) → Program α σ β} {others : Nat}

theorem run_keepReading {t : Session L α σ} {answer : Except Error (Deque α)}
    (kept : s.keepReading = (answer, t)) :
    (Program.keepReading next).run s = (next answer).run t := by
  have begun : (Program.keepReading next).run s = (next s.keepReading.1).run s.keepReading.2 := rfl
  rw [begun, kept]

theorem agrees_keepReading (taken : ∀ d, (next (.ok d)).Agrees L (.reading 0) guarded)
    (refused : (next (.error .concurrentModification)).Agrees L .operations guarded) :
    (Program.keepReading next).Agrees L .operations guarded := by
  apply agrees_of_step
  case alone =>
    intro apart s idle x
    have kept := keepReading_of_readers (s := s.holding x) idle.usage_eq
    exact ⟨next (.ok x.1), .reading 0, x, nofun, taken _, run_keepReading kept, rfl⟩
  case inside =>
    intro view called s shows m
    cases view with
    | none =>
        have kept := keepReading_of_writer (s := s.remembering m) (shows.of_writer rfl)
        exact ⟨_, .operations, m, trivial, refused, run_keepReading kept, rfl⟩
    | some d =>
        obtain ⟨rfl, n, usage⟩ := shows.of_reader d rfl
        have kept := keepReading_of_readers (s := s.remembering m) usage
        exact ⟨next (.ok s.deque), .reading 0, m, nofun, taken _, run_keepReading kept, rfl⟩
  case lent => exact nofun

theorem agrees_keepReading_again
    (taken : ∀ d, (next (.ok d)).Agrees L (.reading (others + 1)) guarded) :
    (Program.keepReading next).Agrees L (.reading others) guarded := by
  apply agrees_of_step
  case alone =>
    intro apart s idle x
    exact ⟨next (.ok x.1), .reading (others + 1), x, nofun, taken _, rfl, rfl⟩
  case inside =>
    intro view called s shows m
    obtain ⟨d, rfl⟩ := Option.ne_none_iff_exists'.mp called
    obtain ⟨rfl, -⟩ := shows.of_reader d rfl
    exact ⟨next (.ok s.deque), .reading (others + 1), m, nofun, taken _, rfl, rfl⟩
  case lent => exact nofun

theorem agrees_keepReading_refused (taken : access = .lent ∨ access = .writing)
    (refused : (next (.error .concurrentModification)).Agrees L access guarded) :
    (Program.keepReading next).Agrees L access guarded := by
  apply agrees_of_step
  case alone =>
    intro apart s idle x
    obtain rfl | rfl := taken
    · contradiction
    · exact ⟨_, .writing, x, apart, refused, rfl, rfl⟩
  case inside =>
    intro view called s shows m
    obtain rfl | rfl := taken
    · exact called.elim
    · exact called.elim
  case lent =>
    rintro rfl s lent x
    have kept := keepReading_of_writer (s := s.holding x) lent.usage_eq
    exact ⟨_, x, refused, run_keepReading kept, rfl⟩

end KeepReading

theorem run_keepWriting {next : Except Error Unit → Program α σ β} {t : Session L α σ}
    {answer : Except Error Unit} (kept : s.keepWriting = (answer, t)) :
    (Program.keepWriting next).run s = (next answer).run t := by
  have begun : (Program.keepWriting next).run s = (next s.keepWriting.1).run s.keepWriting.2 := rfl
  rw [begun, kept]

theorem agrees_keepWriting {next : Except Error Unit → Program α σ β}
    (taken : access = .operations → (next (.ok ())).Agrees L .writing guarded)
    (refused : (next (.error .concurrentModification)).Agrees L access guarded) :
    (Program.keepWriting next).Agrees L access guarded := by
  apply agrees_of_step
  case alone =>
    intro apart s idle x
    cases access with
    | operations =>
        have kept := keepWriting_of_idle (s := s.holding x) idle.usage_eq
        exact ⟨next (.ok ()), .writing, x, nofun, taken rfl, run_keepWriting kept, rfl⟩
    | lent => contradiction
    | reading others => exact ⟨_, .reading others, x, apart, refused, rfl, rfl⟩
    | writing => exact ⟨_, .writing, x, apart, refused, rfl, rfl⟩
  case inside =>
    intro view called s shows m
    have kept := keepWriting_of_used (shows_enter (shows.remembering m) called).used
    exact ⟨_, access, m, called, refused, run_keepWriting kept, rfl⟩
  case lent =>
    rintro rfl s lent x
    have kept := keepWriting_of_used (lent.holding x).used
    exact ⟨_, x, refused, run_keepWriting kept, rfl⟩

theorem agrees_dropReading {next : Bool → Program α σ β} {others : Nat}
    (h : (next true).Agrees L (Access.reading others).giveBack guarded) :
    (Program.dropReading next).Agrees L (.reading others) guarded := by
  have begins {s : Session L α σ} {n : Nat} (usage : s.usage = .readers n) :
      (Program.dropReading next).run (s.borrowing (others + 1)) =
        (next true).run ((Access.reading others).giveBack.enter s) := by
    have begun (s : Session L α σ) :
        (Program.dropReading next).run s = (next s.dropReading.1).run s.dropReading.2 := rfl
    rw [begun, dropReading_borrowing, enter_giveBack usage]
  have settles : (Access.reading others).giveBack ≠ .lent := by
    cases others with
    | zero => exact nofun
    | succ others => exact nofun
  have calls {view : Option (Deque α)} (seen : view ≠ none) :
      (Access.reading others).giveBack.Called view := by
    cases others with
    | zero => trivial
    | succ others => exact seen
  apply agrees_of_step
  case alone =>
    intro apart s idle x
    exact ⟨next true, _, x, settles, h, begins (s := s.holding x) idle.usage_eq, rfl⟩
  case inside =>
    intro view called s shows m
    obtain ⟨d, seen⟩ := Option.ne_none_iff_exists'.mp called
    obtain ⟨-, n, usage⟩ := shows.of_reader d seen
    exact ⟨next true, _, m, calls called, h, begins (s := s.remembering m) usage, rfl⟩
  case lent => exact nofun

theorem agrees_dropWriting {next : Bool → Program α σ β}
    (h : (next true).Agrees L .operations guarded) :
    (Program.dropWriting next).Agrees L .writing guarded := by
  apply agrees_of_step
  case alone =>
    intro apart s idle x
    have kept := dropWriting_borrowingAlone (s := s.holding x) idle.usage_eq
      (by rw [show (s.holding x).kept = .nothing from idle.kept_eq]; rfl)
    have begun (s : Session L α σ) :
        (Program.dropWriting next).run s = (next s.dropWriting.1).run s.dropWriting.2 := rfl
    refine ⟨next true, .operations, x, nofun, h, ?_, rfl⟩
    change (Program.dropWriting next).run (s.holding x).borrowingAlone =
      (next true).run (s.holding x)
    rw [begun, kept]
  case inside =>
    intro view called
    exact called.elim
  case lent => exact nofun

/-! ### All programs -/

theorem Agrees.called {p : Program α σ β} (h : p.Agrees L .operations false) {s : Session L α σ}
    {view : Option (Deque α)} (shows : s.Shows view) :
    Carries s.remembering p.run (p.inside view) :=
  h.inside view trivial s shows nofun

/-- An operation, and then the rest of the program. -/
theorem Performs.andThen {activity : Activity L α σ γ} {next : γ → Program α σ β}
    {alone lent : Deque α × σ → Except Fault γ × (Deque α × σ)}
    {inside : Option (Deque α) → σ → Except Fault γ × σ} (h : Performs activity alone inside lent)
    (settled : access.Settled) (hn : ∀ answer, (next answer).Agrees L access guarded) :
    Follows access guarded (Program.andThen activity fun answer => (next answer).run)
      (after alone fun answer => (next answer).alone access)
      (fun view => after (inside view) fun answer => (next answer).inside view)
      (after lent fun answer => (next answer).lent) :=
  Follows.andThen settled (Performs.follows h settled) hn

/-- Plain programs do what is read off them. -/
theorem Plain.agrees [LawfulMutex L] {p : Program α σ β} (plain : p.Plain access guarded) :
    p.Agrees L access guarded := by
  induction p generalizing access guarded with
  | done answer => exact follows_end (.ok answer) plain
  | fail fault => exact follows_end (.error fault) plain
  | «recall» f next ih => exact agrees_recall fun answer => ih answer (plain answer)
  | read f next ih =>
      exact Performs.andThen (performs_read f) plain.1 fun answer => ih answer (plain.2 answer)
  | write f next ih =>
      exact Performs.andThen (performs_write f) plain.1 fun answer => ih answer (plain.2 answer)
  | tryWrite f next ih =>
      exact Performs.andThen (performs_tryWrite f) plain.1 fun answer => ih answer (plain.2 answer)
  | removeWhere predicate next called ih =>
      obtain ⟨settled, callbacks, rest⟩ := plain
      have performs := performs_removeWhere fun s view shows x =>
        (called x (callbacks x)).called shows
      exact Performs.andThen performs settled fun answer => ih answer (rest answer)
  | retain predicate next called ih =>
      obtain ⟨settled, callbacks, rest⟩ := plain
      have performs := performs_retain fun s view shows x => (called x (callbacks x)).called shows
      exact Performs.andThen performs settled fun answer => ih answer (rest answer)
  | forEach action next called ih =>
      obtain ⟨settled, callbacks, rest⟩ := plain
      have performs := performs_forEach fun s view shows x => (called x (callbacks x)).called shows
      exact Performs.andThen performs settled fun answer => ih answer (rest answer)
  | replaceAll operator next called ih =>
      obtain ⟨settled, callbacks, rest⟩ := plain
      have performs := performs_replaceAll fun s shows x => (called x (callbacks x)).called shows
      exact Performs.andThen performs settled fun answer => ih answer (rest answer)
  | sortBy compare next called ih =>
      obtain ⟨settled, callbacks, rest⟩ := plain
      have performs := performs_sortBy fun s shows x y =>
        (called x y (callbacks x y)).called shows
      exact Performs.andThen performs settled fun answer => ih answer (rest answer)
  | insertAll a index count item finish next called ended ih =>
      obtain ⟨settled, ⟨callbacks, atEnd⟩, rest⟩ := plain
      have performs := performs_insertAll a index count
        (fun s shows i => (called i (callbacks i)).called shows)
        (fun s shows => (ended atEnd).called shows)
      exact Performs.andThen performs settled fun answer => ih answer (rest answer)
  | glance next ih => exact agrees_glance fun answer => ih answer (plain answer)
  | hold body next called ih =>
      obtain ⟨settled, within, rest⟩ := plain
      exact Performs.andThen (performs_hold (called within)) settled fun answer =>
        ih answer (rest answer)
  | withLocked body next called ih =>
      obtain ⟨settled, within, rest⟩ := plain
      exact Performs.andThen (performs_withLocked (called within)) settled fun answer =>
        ih answer (rest answer)
  | edit f next ih => exact agrees_edit plain.1 fun answer => ih (some answer) (plain.2 answer)
  | keepReading next ih =>
      cases access with
      | operations => exact agrees_keepReading (fun d => ih _ (plain.1 d)) (ih _ plain.2)
      | lent => exact agrees_keepReading_refused (.inl rfl) (ih _ plain)
      | reading others => exact agrees_keepReading_again fun d => ih _ (plain d)
      | writing => exact agrees_keepReading_refused (.inr rfl) (ih _ plain)
  | keepWriting next ih =>
      exact agrees_keepWriting (fun same => ih _ (plain.1 same)) (ih _ plain.2)
  | dropReading next ih =>
      obtain ⟨⟨others, rfl⟩, rest⟩ := plain
      exact agrees_dropReading (ih true rest)
  | dropWriting next ih =>
      obtain ⟨rfl, rest⟩ := plain
      exact agrees_dropWriting (ih true rest)
  | interrupt next ih => exact plain.elim
  | isInterrupted next ih => exact agrees_isInterrupted (ih false plain)
  | takeInterruption next ih => exact agrees_takeInterruption (ih false plain)
  | attempt body next called ih =>
      obtain ⟨settled, attempted, rest⟩ := plain
      exact Follows.andThen settled (Follows.attempt (called attempted)) fun answer =>
        ih answer (rest answer)
  | onThread thread body next called ih => exact plain.elim

end Program

end RingDeque

import RingDeque.Proofs.HiddenFlag
import RingDeque.Proofs.Reentrancy
import RingDeque.Sync.Lock

/-!
# Interrupted operations

What comes of a program on one thread whose flag may be set at any time, by the program itself or by
its callbacks. The flag is looked at when an operation is about to take the lock. If it is set, the
operation is given up before anything has happened (`run_of_cancelled`); otherwise the operation is
done, and the flag does not matter to it any more.

`shielded` says what that means for a whole run. It is the program with the flag in the memory,
where it looks before each operation; its thread is never interrupted. It comes to what the program
comes to, and so does every callback of its operations (`conceals_shielded`). An operation whose
callback sets the flag is therefore done as far as it would be on a thread that nobody interrupts,
with callbacks of the same answers.
-/

namespace RingDeque

namespace Program

open Session

variable {L α σ β γ : Type}

/-- What a program does with threads. -/
inductive ThreadStep where
  | interrupt
  | isInterrupted
  | takeInterruption
  | onThread

/-- The program takes no such step, and its callbacks neither. -/
def Avoids (steps : ThreadStep → Prop) {β : Type} : Program α σ β → Prop
  | .done _ => True
  | .fail _ => True
  | .recall _ next => ∀ answer, (next answer).Avoids steps
  | .read _ next => ∀ answer, (next answer).Avoids steps
  | .write _ next => ∀ answer, (next answer).Avoids steps
  | .tryWrite _ next => ∀ answer, (next answer).Avoids steps
  | .removeWhere predicate next =>
    (∀ x, (predicate x).Avoids steps) ∧ ∀ answer, (next answer).Avoids steps
  | .retain predicate next =>
    (∀ x, (predicate x).Avoids steps) ∧ ∀ answer, (next answer).Avoids steps
  | .forEach action next =>
    (∀ x, (action x).Avoids steps) ∧ ∀ answer, (next answer).Avoids steps
  | .replaceAll operator next =>
    (∀ x, (operator x).Avoids steps) ∧ ∀ answer, (next answer).Avoids steps
  | .sortBy compare next =>
    (∀ x y, (compare x y).Avoids steps) ∧ ∀ answer, (next answer).Avoids steps
  | .insertAll _ _ _ item finish next =>
    ((∀ i, (item i).Avoids steps) ∧ finish.Avoids steps) ∧ ∀ answer, (next answer).Avoids steps
  | .glance next => ∀ answer, (next answer).Avoids steps
  | .hold body next => body.Avoids steps ∧ ∀ answer, (next answer).Avoids steps
  | .withLocked body next => body.Avoids steps ∧ ∀ answer, (next answer).Avoids steps
  | .edit _ next => ∀ answer, (next answer).Avoids steps
  | .keepReading next => ∀ answer, (next answer).Avoids steps
  | .keepWriting next => ∀ answer, (next answer).Avoids steps
  | .dropReading next => ∀ answer, (next answer).Avoids steps
  | .dropWriting next => ∀ answer, (next answer).Avoids steps
  | .interrupt next => ¬ steps .interrupt ∧ next.Avoids steps
  | .isInterrupted next => ¬ steps .isInterrupted ∧ ∀ answer, (next answer).Avoids steps
  | .takeInterruption next => ¬ steps .takeInterruption ∧ ∀ answer, (next answer).Avoids steps
  | .attempt body next => body.Avoids steps ∧ ∀ answer, (next answer).Avoids steps
  | .onThread _ body next =>
    ¬ steps .onThread ∧ body.Avoids steps ∧ ∀ answer, (next answer).Avoids steps

/-! ### The flag is set -/

/-- How the program goes on if its next step is to take the lock and the thread gives that up. -/
def cancelled {β : Type} : Program α σ β → Option (Program α σ β)
  | .read _ next => some (next (.error .cancelled))
  | .write _ next => some (next (.error .cancelled))
  | .tryWrite _ next => some (next (.error .cancelled))
  | .removeWhere _ next => some (next (.error .cancelled))
  | .retain _ next => some (next (.error .cancelled))
  | .forEach _ next => some (next (.error .cancelled))
  | .replaceAll _ next => some (next (.error .cancelled))
  | .sortBy _ next => some (next (.error .cancelled))
  | .insertAll _ _ _ _ _ next => some (next (.error .cancelled))
  | .hold _ next => some (next (.error .cancelled))
  | .withLocked _ next => some (next (.error .cancelled))
  | _ => none

section Set

variable {s : Session L α σ}

theorem andThen_of_eq {first : Activity L α σ γ} {answer : γ} (h : first s = (.ok answer, s))
    (next : γ → Activity L α σ β) : andThen first next s = next answer s := by
  rw [andThen, h]

theorem joined_of_refused {activity : Activity L α σ (Except Error (Except Error γ))} {e : Error}
    (h : activity s = (.ok (.error e), s)) : joined activity s = (.ok (.error e), s) := by
  rw [joined, h]

theorem thread_edit (f : Deque α → Except Fault γ × Deque α) :
    (Session.edit f s).2.thread = s.thread := by
  rw [Session.edit]
  split
  · rfl
  · rfl

theorem thread_keepReading : s.keepReading.2.thread = s.thread := by
  rw [Session.keepReading]
  split
  · rfl
  · rfl

theorem thread_keepWriting : s.keepWriting.2.thread = s.thread := by
  rw [Session.keepWriting]
  split
  · rfl
  · rfl

theorem thread_dropReading : s.dropReading.2.thread = s.thread := by
  rw [Session.dropReading]
  split
  · rfl
  · rfl

theorem thread_dropWriting : s.dropWriting.2.thread = s.thread := by
  rw [Session.dropWriting]
  split
  · rfl
  · rfl

theorem interrupted_andThen {first : Activity L α σ γ} {next : γ → Activity L α σ β}
    (h : (first s).2.thread.interrupted = true)
    (hn : ∀ answer t, t.thread.interrupted = true → (next answer t).2.thread.interrupted = true) :
    (andThen first next s).2.thread.interrupted = true := by
  rw [andThen]
  rcases outcome : first s with ⟨fault | answer, t⟩
  · rw [outcome] at h
    exact h
  · rw [outcome] at h
    exact hn answer t h

variable [Mutex L]

theorem thread_glance : s.glance.2.thread = s.thread := by
  rw [Session.glance]
  split
  · rfl
  · rfl

/-- Nothing is done if the flag is set, whatever the callbacks are and whoever uses the deque. -/
theorem run_of_cancelled {p q : Program α σ β} (set : s.thread.interrupted = true)
    (h : p.cancelled = some q) : p.run s = q.run s := by
  have refused {γ : Type} (body : Activity L α σ (Except Error γ)) := locked_of_interrupted set body
  cases p with
  | read f next | write f next | removeWhere f next | forEach f next | replaceAll f next
  | sortBy f next | hold body next | withLocked body next =>
      cases h
      exact andThen_of_eq (refused _) _
  | retain predicate next =>
      cases h
      have given :
        Session.retain (fun x => (predicate x).run) s = (.ok (.error .cancelled), s) := by
        rw [Session.retain]
        exact refused _
      exact andThen_of_eq given _
  | tryWrite f next | insertAll a index count item finish next =>
      cases h
      exact andThen_of_eq (joined_of_refused (refused _)) _
  | _ => cases h

/-- Whoever does not take note of the flag finds it set ever after. -/
theorem interrupted_run {p : Program α σ β} (untaken : p.Avoids (· = .takeInterruption))
    {s : Session L α σ} (set : s.thread.interrupted = true) :
    (p.run s).2.thread.interrupted = true := by
  induction p generalizing s with
  | done answer | fail fault => exact set
  | «recall» f next ih => exact ih _ (untaken _) set
  | read f next ih | write f next ih | tryWrite f next ih =>
      rw [run_of_cancelled set rfl]
      exact ih _ (untaken _) set
  | removeWhere f next called ih | retain f next called ih | forEach f next called ih
  | replaceAll f next called ih | sortBy f next called ih | hold body next called ih
  | withLocked body next called ih =>
      rw [run_of_cancelled set rfl]
      exact ih _ (untaken.2 _) set
  | insertAll a index count item finish next called ended ih =>
      rw [run_of_cancelled set rfl]
      exact ih _ (untaken.2 _) set
  | glance next ih =>
      have stays : s.glance.2.thread.interrupted = true := by rw [thread_glance, set]
      exact ih _ (untaken _) stays
  | edit f next ih =>
      have stays : (Session.edit f s).2.thread.interrupted = true := by rw [thread_edit, set]
      exact interrupted_andThen stays fun answer t set => ih answer (untaken answer) set
  | keepReading next ih =>
      have stays : s.keepReading.2.thread.interrupted = true := by rw [thread_keepReading, set]
      exact ih _ (untaken _) stays
  | keepWriting next ih =>
      have stays : s.keepWriting.2.thread.interrupted = true := by rw [thread_keepWriting, set]
      exact ih _ (untaken _) stays
  | dropReading next ih =>
      have stays : s.dropReading.2.thread.interrupted = true := by rw [thread_dropReading, set]
      exact ih _ (untaken _) stays
  | dropWriting next ih =>
      have stays : s.dropWriting.2.thread.interrupted = true := by rw [thread_dropWriting, set]
      exact ih _ (untaken _) stays
  | interrupt next ih => exact ih untaken.2 rfl
  | isInterrupted next ih => exact ih _ (untaken.2 _) set
  | takeInterruption next ih => exact absurd rfl untaken.1
  | attempt body next called ih => exact ih _ (untaken.2 _) (called untaken.1 set)
  | onThread thread body next called ih =>
      exact interrupted_andThen set fun answer t set => ih answer (untaken.2.2 answer) set

end Set

/-! ### The flag in the memory -/

/-- Look at the flag in the memory before an operation. -/
def heedful (operation : (Except Error γ → Program α (σ × Bool) β) → Program α (σ × Bool) β)
    (next : Except Error γ → Program α (σ × Bool) β) : Program α (σ × Bool) β :=
  .recall (fun m => (m.2, m)) fun set => if set then next (.error .cancelled) else operation next

/-- The program with the thread's flag in the memory. Its thread is never interrupted. -/
def shielded {β : Type} : Program α σ β → Program α (σ × Bool) β
  | .done answer => .done answer
  | .fail fault => .fail fault
  | .recall f next =>
    .recall (fun m => ((f m.1).1, ((f m.1).2, m.2))) fun answer => (next answer).shielded
  | .read f next => heedful (.read f) fun answer => (next answer).shielded
  | .write f next => heedful (.write f) fun answer => (next answer).shielded
  | .tryWrite f next => heedful (.tryWrite f) fun answer => (next answer).shielded
  | .removeWhere predicate next =>
    heedful (.removeWhere fun x => (predicate x).shielded) fun answer => (next answer).shielded
  | .retain predicate next =>
    heedful (.retain fun x => (predicate x).shielded) fun answer => (next answer).shielded
  | .forEach action next =>
    heedful (.forEach fun x => (action x).shielded) fun answer => (next answer).shielded
  | .replaceAll operator next =>
    heedful (.replaceAll fun x => (operator x).shielded) fun answer => (next answer).shielded
  | .sortBy compare next =>
    heedful (.sortBy fun x y => (compare x y).shielded) fun answer => (next answer).shielded
  | .insertAll a index count item finish next =>
    heedful (.insertAll a index count (fun i => (item i).shielded) finish.shielded) fun answer =>
      (next answer).shielded
  | .glance next => .glance fun answer => (next answer).shielded
  | .hold body next => heedful (.hold body.shielded) fun answer => (next answer).shielded
  | .withLocked body next =>
    heedful (.withLocked body.shielded) fun answer => (next answer).shielded
  | .edit f next => .edit f fun answer => (next answer).shielded
  | .keepReading next => .keepReading fun answer => (next answer).shielded
  | .keepWriting next => .keepWriting fun answer => (next answer).shielded
  | .dropReading next => .dropReading fun answer => (next answer).shielded
  | .dropWriting next => .dropWriting fun answer => (next answer).shielded
  | .interrupt next => .recall (fun m => ((), (m.1, true))) fun _ => next.shielded
  | .isInterrupted next => .recall (fun m => (m.2, m)) fun answer => (next answer).shielded
  | .takeInterruption next =>
    .recall (fun m => (m.2, (m.1, false))) fun answer => (next answer).shielded
  | .attempt body next => .attempt body.shielded fun answer => (next answer).shielded
  | .onThread _ _ _ => .fail .deadlock

variable [Mutex L]

theorem Conceals.andThen {first : Activity L α σ γ} {first' : Activity L α (σ × Bool) γ}
    {next : γ → Activity L α σ β} {next' : γ → Activity L α (σ × Bool) β}
    (h : Conceals first first') (hn : ∀ answer, Conceals (next answer) (next' answer)) :
    Conceals (andThen first next) (andThen first' next') := by
  intro s mine
  obtain ⟨outcome, t, left, right, same⟩ := h s mine
  rw [Program.andThen, Program.andThen, left, right]
  cases outcome with
  | error fault => exact ⟨_, t, rfl, rfl, same⟩
  | ok answer =>
      obtain ⟨outcome, t', left, right, same'⟩ := hn answer t (same ▸ mine)
      exact ⟨outcome, t', left, right, same'.trans same⟩

theorem run_heedful
    {operation : (Except Error γ → Program α (σ × Bool) β) → Program α (σ × Bool) β}
    {activity : Activity L α (σ × Bool) (Except Error γ)}
    {next : Except Error γ → Program α (σ × Bool) β}
    (performs : (operation next).run = andThen activity fun answer => (next answer).run) :
    (heedful operation next).run = andThen (heeding activity) fun answer => (next answer).run := by
  funext s
  have looked : (heedful operation next).run s =
      (if s.memory.2 then next (.error .cancelled) else operation next).run s := rfl
  rw [looked, andThen, heeding]
  by_cases set : s.memory.2 = true
  · rw [if_pos set, if_pos set]
  · rw [if_neg set, if_neg set, performs]
    rfl

/-- An operation, and then the rest of the program. -/
theorem conceals_operation
    {operation : (Except Error γ → Program α (σ × Bool) β) → Program α (σ × Bool) β}
    {activity : Activity L α σ (Except Error γ)}
    {activity' : Activity L α (σ × Bool) (Except Error γ)} {next : Except Error γ → Program α σ β}
    (performs : (operation fun answer => (next answer).shielded).run =
      andThen activity' fun answer => (next answer).shielded.run)
    (h : Conceals activity (heeding activity'))
    (hn : ∀ answer, Conceals (L := L) (next answer).run (next answer).shielded.run) :
    Conceals (andThen activity fun answer => (next answer).run)
      (heedful operation fun answer => (next answer).shielded).run := by
  rw [run_heedful performs]
  exact Conceals.andThen h hn

/-- A step that is the same for both. -/
theorem conceals_step {step : Session L α σ → γ × Session L α σ}
    {step' : Session L α (σ × Bool) → γ × Session L α (σ × Bool)} {next : γ → Program α σ β}
    (h : Conceals step step')
    (hn : ∀ answer, Conceals (L := L) (next answer).run (next answer).shielded.run) :
    Conceals (fun s => (next (step s).1).run (step s).2)
      (fun s => (next (step' s).1).shielded.run (step' s).2) := by
  intro s mine
  obtain ⟨answer, t, left, right, same⟩ := h s mine
  obtain ⟨outcome, t', left', right', same'⟩ := hn answer t (same ▸ mine)
  dsimp only
  rw [left, right]
  exact ⟨outcome, t', left', right', same'.trans same⟩

/-- With the flag in the memory a program comes to what it came to before. The callbacks of an
operation are parts of the program, so the same is known of them. -/
theorem conceals_shielded [LawfulMutex L] {p : Program α σ β} (single : p.Avoids (· = .onThread)) :
    Conceals (L := L) p.run p.shielded.run := by
  induction p with
  | done answer | fail fault => exact fun s mine => ⟨_, s, rfl, rfl, rfl⟩
  | «recall» f next ih =>
      exact fun s mine => ih _ (single _) { s with memory := (f s.memory).2 } mine
  | read f next ih => exact conceals_operation rfl (.read f) fun answer => ih answer (single answer)
  | write f next ih =>
      exact conceals_operation rfl (.write f) fun answer => ih answer (single answer)
  | tryWrite f next ih =>
      exact conceals_operation rfl (.tryWrite f) fun answer => ih answer (single answer)
  | removeWhere predicate next called ih =>
      have asked x := called x (single.1 x)
      exact conceals_operation rfl (.removeWhere asked) fun answer => ih answer (single.2 answer)
  | retain predicate next called ih =>
      have asked x := called x (single.1 x)
      exact conceals_operation rfl (.retain asked) fun answer => ih answer (single.2 answer)
  | forEach action next called ih =>
      have done x := called x (single.1 x)
      exact conceals_operation rfl (.forEach done) fun answer => ih answer (single.2 answer)
  | replaceAll operator next called ih =>
      have asked x := called x (single.1 x)
      exact conceals_operation rfl (.replaceAll asked) fun answer => ih answer (single.2 answer)
  | sortBy compare next called ih =>
      have asked x y := called x y (single.1 x y)
      exact conceals_operation rfl (.sortBy asked) fun answer => ih answer (single.2 answer)
  | insertAll a index count item finish next called ended ih =>
      have asked i := called i (single.1.1 i)
      have performs := Conceals.insertAll asked (ended single.1.2) a index count
      exact conceals_operation rfl performs fun answer => ih answer (single.2 answer)
  | glance next ih => exact conceals_step .glance fun answer => ih answer (single answer)
  | hold body next called ih =>
      exact conceals_operation rfl (called single.1).hold fun answer => ih answer (single.2 answer)
  | withLocked body next called ih =>
      exact conceals_operation rfl (called single.1).withLocked fun answer =>
        ih answer (single.2 answer)
  | edit f next ih => exact Conceals.andThen (.edit f) fun answer => ih answer (single answer)
  | keepReading next ih => exact conceals_step .keepReading fun answer => ih answer (single answer)
  | keepWriting next ih => exact conceals_step .keepWriting fun answer => ih answer (single answer)
  | dropReading next ih => exact conceals_step .dropReading fun answer => ih answer (single answer)
  | dropWriting next ih => exact conceals_step .dropWriting fun answer => ih answer (single answer)
  | interrupt next ih =>
      exact fun s mine => ih single.2 { s with thread := s.thread.interrupt } mine
  | isInterrupted next ih => exact fun s mine => ih _ (single.2 _) s mine
  | takeInterruption next ih =>
      exact fun s mine => ih _ (single.2 _) { s with thread := s.thread.takeInterruption.2 } mine
  | attempt body next called ih =>
      exact Conceals.andThen (called single.1).attempt fun answer => ih answer (single.2 answer)
  | onThread thread body next called ih => exact absurd rfl single.1

theorem avoids_heedful {steps : ThreadStep → Prop}
    {operation : (Except Error γ → Program α (σ × Bool) β) → Program α (σ × Bool) β}
    {next : Except Error γ → Program α (σ × Bool) β} (performed : (operation next).Avoids steps)
    (refused : (next (.error .cancelled)).Avoids steps) :
    (heedful operation next).Avoids steps := by
  rintro (_ | _)
  · exact performed
  · exact refused

/-- With the flag in the memory a program has nothing to do with threads. -/
theorem avoids_shielded (steps : ThreadStep → Prop) (p : Program α σ β) :
    p.shielded.Avoids steps := by
  induction p with
  | done answer | fail fault => trivial
  | «recall» f next ih | isInterrupted next ih | takeInterruption next ih =>
    exact fun answer => ih _
  | glance next ih | edit f next ih | keepReading next ih | keepWriting next ih
  | dropReading next ih | dropWriting next ih => exact ih
  | interrupt next ih => exact fun _ => ih
  | read f next ih | write f next ih | tryWrite f next ih => exact avoids_heedful ih (ih _)
  | removeWhere f next called ih | retain f next called ih | forEach f next called ih
  | replaceAll f next called ih | sortBy f next called ih | hold body next called ih
  | withLocked body next called ih => exact avoids_heedful ⟨called, ih⟩ (ih _)
  | insertAll a index count item finish next called ended ih =>
      exact avoids_heedful ⟨⟨called, ended⟩, ih⟩ (ih _)
  | attempt body next called ih => exact ⟨called, ih⟩
  | onThread thread body next called ih => trivial

theorem plain_heedful {access : Access} {guarded : Bool}
    {operation : (Except Error γ → Program α (σ × Bool) β) → Program α (σ × Bool) β}
    {next : Except Error γ → Program α (σ × Bool) β}
    (performed : (operation next).Plain access guarded)
    (refused : (next (.error .cancelled)).Plain access guarded) :
    (heedful operation next).Plain access guarded := by
  rintro (_ | _)
  · exact performed
  · exact refused

/-! ### Runs -/

/-- A program that stays on its thread. If the flag is set, an operation that would take the lock is
given up, and the program goes on in the same session: no callback is asked, and it does not matter
who uses the deque. Nothing clears the flag but to take note of it, which answers what it was.

The answer and the session are those of the program with the flag in its memory, whose thread nobody
interrupts; and so it is for callbacks, which are programs too. Once an operation has the lock, it
is therefore done as if nobody had set the flag, and never by halves. A plain program comes to what
is read off the one with the flag in its memory: if nobody uses the deque, its operations are those
on a deque, which know of no interruption. -/
theorem run_cancellation [LawfulMutex L] (p : Program α σ β) (single : p.Avoids (· = .onThread)) :
    (∀ (s : Session L α σ) q, s.thread.interrupted = true → p.cancelled = some q →
      p.run s = q.run s) ∧
    (∀ s : Session L α σ, s.thread.interrupted = true → p.Avoids (· = .takeInterruption) →
      (p.run s).2.thread.interrupted = true) ∧
    (∀ (s : Session L α σ) next, p = .takeInterruption next →
      p.run s = (next s.thread.interrupted).run
        { s with thread := { s.thread with interrupted := false } }) ∧
    (p.shielded.Avoids fun _ => True) ∧
    (∀ s : Session L α σ, Mutex.Available s.lock →
      p.shielded.run s.concealed = ((p.run s).1, (p.run s).2.concealed)) ∧
    (p.shielded.Plain .operations false →
      (∀ s : Session L α σ, s.concealed.Idle →
        let (outcome, d, m, set) :=
          p.shielded.alone .operations (s.deque, s.memory, s.thread.interrupted)
        p.run s = (outcome, { s with
          deque := d
          memory := m
          thread := { s.thread with interrupted := set } })) ∧
      ∀ (s : Session L α σ) view, s.concealed.Shows view →
        let (outcome, m, set) := p.shielded.inside view (s.memory, s.thread.interrupted)
        p.run s = (outcome, { s with
          memory := m
          thread := { s.thread with interrupted := set } })) := by
  have hidden : Conceals (L := L) p.run p.shielded.run := conceals_shielded single
  refine ⟨fun s q => run_of_cancelled, fun s set untaken => interrupted_run untaken set, ?_,
    avoids_shielded _ p, fun s mine => hidden.eq mine, fun plain => ⟨?_, ?_⟩⟩
  · rintro s next rfl
    rfl
  · intro s idle
    have agrees := Plain.agrees (L := L) plain
    exact hidden.revealed_eq idle.mine
      (agrees.alone nofun s.concealed idle (s.deque, s.memory, s.thread.interrupted))
  · intro s view shows
    have agrees := Plain.agrees (L := L) plain
    exact hidden.revealed_eq shows.mine (agrees.called shows (s.memory, s.thread.interrupted))

/-- A removal whose predicate interrupts the thread at the element 2 and reads the deque each time;
and then the deque is read before and after the thread takes note. -/
def alarming : Program Nat (List (Except Error Nat))
    (Except Error Bool × Except Error Nat × Bool × Except Error Nat) :=
  .removeWhere (fun x =>
    let look :=
      .read Deque.length fun seen =>
      .recall (fun notes => ((), notes ++ [seen])) fun _ =>
      .done (x % 2 == 0)
    if x == 2 then .interrupt look else look) fun removed =>
  .read Deque.length fun before =>
  .takeInterruption fun interrupted =>
  .read Deque.length fun after =>
  .done (removed, before, interrupted, after)

/-- The thread is interrupted while the removal is planned. From then on the deque cannot be read,
but the removal is carried out. If the flag is set to begin with, and an operation writes, the
removal is given up because of the flag and its predicate is not asked. -/
theorem run_cancellation_compacting :
    let s : Session Lock Nat _ := .start ⟨#[some 2, some 3, none, some 1], 3, 2⟩ []
    let alarmed := { s.busy .writer with thread := .alarmed }
    alarming.Avoids (· = .onThread) ∧ alarming.shielded.Plain .operations false ∧
      s.concealed.Idle ∧ alarmed.concealed.Shows none ∧
      alarming.run s = (.ok (.ok true, .error .cancelled, true, .ok 2), { s with
        deque := ⟨#[some 3, none, none, some 1], 3, 1⟩
        memory := [.ok 3, .error .cancelled, .error .cancelled] }) ∧
      alarming.run alarmed =
        (.ok (.error .cancelled, .error .cancelled, true, .error .concurrentModification),
          { alarmed with thread := .calm }) := by
  have single : alarming.Avoids (· = .onThread) := by
    refine ⟨fun x => ?_, fun removed before => ⟨nofun, fun interrupted after => trivial⟩⟩
    by_cases two : (x == 2) = true
    · simp only [two, if_true]
      exact ⟨nofun, fun seen notes => trivial⟩
    · simp only [two]
      exact fun seen notes => trivial
  have plain : alarming.shielded.Plain .operations false := by
    have reads {β : Type} {next : Except Error Nat → Program Nat (List (Except Error Nat)) β}
        (h : ∀ answer, (next answer).shielded.Plain .operations false) :
        (Program.read Deque.length next).shielded.Plain .operations false :=
      plain_heedful ⟨.inl rfl, h⟩ (h _)
    refine plain_heedful ⟨.inl rfl, fun x => ?_, fun removed => ?_⟩ ?_
    · by_cases two : (x == 2) = true
      · simp only [two, if_true]
        exact fun _ => reads fun seen notes => .inl (.inl rfl)
      · simp only [two]
        exact reads fun seen notes => .inl (.inl rfl)
    · exact reads fun before interrupted => reads fun after => .inl (.inl rfl)
    · exact reads fun before interrupted => reads fun after => .inl (.inl rfl)
  -- The sessions are written out, since numbers are computed only in closed terms.
  have idle : (Session.start ⟨#[some 2, some 3, none, some 1], 3, 2⟩ [] :
      Session Lock Nat (List (Except Error Nat))).concealed.Idle := idle_start _ _
  have shows : ({ (Session.start ⟨#[some 2, some 3, none, some 1], 3, 2⟩ [] :
      Session Lock Nat (List (Except Error Nat))).busy .writer with
      thread := .alarmed }).concealed.Shows none :=
    ⟨⟨rfl, Mutex.available_taken idle.mine⟩, nofun, fun _ => rfl⟩
  obtain ⟨-, -, -, -, -, reads⟩ := run_cancellation (L := Lock) alarming single
  exact ⟨single, plain, idle, shows, (reads plain).1 _ idle, (reads plain).2 _ none shows⟩

end Program

end RingDeque

import RingDeque.Shared.Session

/-!
# Programs of a thread

A `Program` is what a thread does with a shared deque, as a value: one operation, and how to go on
with its answer. The callbacks of an operation are programs too, so operations nest as deep as one
likes. Programs answer values of a type of their own, read and change the memory of the session, and
may give up with a fault. An attempt goes on after the fault of what was attempted.

`run` performs a program in a session. Every operation means the activity of the same name.
-/

namespace RingDeque

/-- What a thread does in sessions with elements `α` and a memory `σ`, and which answer it comes
to. -/
inductive Program (α σ : Type) : Type → Type 1 where
  /-- Answer. -/
  | done {β : Type} (answer : β) : Program α σ β
  /-- Give up. -/
  | fail {β : Type} (fault : Fault) : Program α σ β
  /-- Read and change the memory. -/
  | recall {β γ : Type} (f : σ → γ × σ) (next : γ → Program α σ β) : Program α σ β
  /-- Read something off the deque. -/
  | read {β γ : Type} (f : Deque α → γ) (next : Except Error γ → Program α σ β) : Program α σ β
  /-- Change the deque by an update that may end in a fault. -/
  | write {β γ : Type} (f : Deque α → Except Fault γ × Deque α)
      (next : Except Error γ → Program α σ β) : Program α σ β
  /-- Change the deque by an update that may be refused. -/
  | tryWrite {β γ : Type} (f : Deque α → Except Error γ × Deque α)
      (next : Except Error γ → Program α σ β) : Program α σ β
  /-- Remove the elements for which the predicate holds. -/
  | removeWhere {β : Type} (predicate : α → Program α σ Bool)
      (next : Except Error Bool → Program α σ β) : Program α σ β
  /-- Keep the elements for which the predicate holds. -/
  | retain {β : Type} (predicate : α → Program α σ Bool)
      (next : Except Error Bool → Program α σ β) : Program α σ β
  /-- Visit the elements. -/
  | forEach {β : Type} (action : α → Program α σ Unit)
      (next : Except Error Unit → Program α σ β) : Program α σ β
  /-- Replace the elements. -/
  | replaceAll {β : Type} (operator : α → Program α σ α)
      (next : Except Error Unit → Program α σ β) : Program α σ β
  /-- Sort the elements. -/
  | sortBy {β : Type} (compare : α → α → Program α σ Ordering)
      (next : Except Error Unit → Program α σ β) : Program α σ β
  /-- Insert the elements that a source delivers. -/
  | insertAll {β : Type} (a : Allocator) (index : Option Nat) (count : Nat)
      (item : Nat → Program α σ α) (finish : Program α σ Unit)
      (next : Except Error Bool → Program α σ β) : Program α σ β
  /-- Glance at the deque. -/
  | glance {β : Type} (next : Session.Glance α → Program α σ β) : Program α σ β
  /-- Have the lock for a while. -/
  | hold {β γ : Type} (body : Program α σ γ) (next : Except Error γ → Program α σ β) :
      Program α σ β
  /-- Have the lock and write for a while. -/
  | withLocked {β γ : Type} (body : Program α σ γ) (next : Except Error γ → Program α σ β) :
      Program α σ β
  /-- Change the deque while writing is kept up. -/
  | edit {β γ : Type} (f : Deque α → Except Fault γ × Deque α)
      (next : Option γ → Program α σ β) : Program α σ β
  /-- Begin to read and keep it up. -/
  | keepReading {β : Type} (next : Except Error (Deque α) → Program α σ β) : Program α σ β
  /-- Begin to write and keep it up. -/
  | keepWriting {β : Type} (next : Except Error Unit → Program α σ β) : Program α σ β
  /-- End a use by a reader that was kept up. -/
  | dropReading {β : Type} (next : Bool → Program α σ β) : Program α σ β
  /-- End the use by a writer that was kept up. -/
  | dropWriting {β : Type} (next : Bool → Program α σ β) : Program α σ β
  /-- Set the thread's flag. -/
  | interrupt {β : Type} (next : Program α σ β) : Program α σ β
  /-- Look at the thread's flag. -/
  | isInterrupted {β : Type} (next : Bool → Program α σ β) : Program α σ β
  /-- Take note of the thread's flag and clear it. -/
  | takeInterruption {β : Type} (next : Bool → Program α σ β) : Program α σ β
  /-- Do something and go on also when it ends in a fault. -/
  | attempt {β γ : Type} (body : Program α σ γ) (next : Except Fault γ → Program α σ β) :
      Program α σ β
  /-- Let another thread do something and wait for it. -/
  | onThread {β γ : Type} (thread : Thread) (body : Program α σ γ)
      (next : γ × Thread → Program α σ β) : Program α σ β

namespace Program

variable {α σ β γ : Type}

variable {L : Type}

/-- Go on with the answer of an activity. -/
def andThen (first : Activity L α σ γ) (next : γ → Activity L α σ β) : Activity L α σ β := fun s =>
  match first s with
  | (.ok answer, s) => next answer s
  | (.error fault, s) => (.error fault, s)

/-- Perform a program in a session. -/
def run [Mutex L] {β : Type} : Program α σ β → Activity L α σ β
  | .done answer => fun s => (.ok answer, s)
  | .fail fault => fun s => (.error fault, s)
  | .recall f next => fun s =>
    let (answer, memory) := f s.memory
    (next answer).run { s with memory := memory }
  | .read f next => andThen (Session.read f) fun answer => (next answer).run
  | .write f next => andThen (Session.write f) fun answer => (next answer).run
  | .tryWrite f next => andThen (Session.tryWrite f) fun answer => (next answer).run
  | .removeWhere predicate next =>
    andThen (Session.removeWhere fun x => (predicate x).run) fun answer => (next answer).run
  | .retain predicate next =>
    andThen (Session.retain fun x => (predicate x).run) fun answer => (next answer).run
  | .forEach action next =>
    andThen (Session.forEach fun x => (action x).run) fun answer => (next answer).run
  | .replaceAll operator next =>
    andThen (Session.replaceAll fun x => (operator x).run) fun answer => (next answer).run
  | .sortBy compare next =>
    andThen (Session.sortBy fun x y => (compare x y).run) fun answer => (next answer).run
  | .insertAll a index count item finish next =>
    andThen (Session.insertAll a index count (fun i => (item i).run) finish.run) fun answer =>
      (next answer).run
  | .glance next => fun s =>
    let (answer, s) := s.glance
    (next answer).run s
  | .hold body next => andThen (Session.hold body.run) fun answer => (next answer).run
  | .withLocked body next => andThen (Session.withLocked body.run) fun answer => (next answer).run
  | .edit f next => andThen (Session.edit f) fun answer => (next answer).run
  | .keepReading next => fun s =>
    let (answer, s) := s.keepReading
    (next answer).run s
  | .keepWriting next => fun s =>
    let (answer, s) := s.keepWriting
    (next answer).run s
  | .dropReading next => fun s =>
    let (answer, s) := s.dropReading
    (next answer).run s
  | .dropWriting next => fun s =>
    let (answer, s) := s.dropWriting
    (next answer).run s
  | .interrupt next => fun s => next.run { s with thread := s.thread.interrupt }
  | .isInterrupted next => fun s => (next s.thread.interrupted).run s
  | .takeInterruption next => fun s =>
    let (answer, thread) := s.thread.takeInterruption
    (next answer).run { s with thread := thread }
  | .attempt body next => andThen (Session.attempt body.run) fun answer => (next answer).run
  | .onThread thread body next =>
    andThen (Session.onThread thread body.run) fun answer => (next answer).run

/-- Do one program and go on with its answer. -/
def bind {β : Type} : Program α σ β → (β → Program α σ γ) → Program α σ γ
  | .done answer, k => k answer
  | .fail fault, _ => .fail fault
  | .recall f next, k => .recall f fun answer => (next answer).bind k
  | .read f next, k => .read f fun answer => (next answer).bind k
  | .write f next, k => .write f fun answer => (next answer).bind k
  | .tryWrite f next, k => .tryWrite f fun answer => (next answer).bind k
  | .removeWhere predicate next, k => .removeWhere predicate fun answer => (next answer).bind k
  | .retain predicate next, k => .retain predicate fun answer => (next answer).bind k
  | .forEach action next, k => .forEach action fun answer => (next answer).bind k
  | .replaceAll operator next, k => .replaceAll operator fun answer => (next answer).bind k
  | .sortBy compare next, k => .sortBy compare fun answer => (next answer).bind k
  | .insertAll a index count item finish next, k =>
    .insertAll a index count item finish fun answer => (next answer).bind k
  | .glance next, k => .glance fun answer => (next answer).bind k
  | .hold body next, k => .hold body fun answer => (next answer).bind k
  | .withLocked body next, k => .withLocked body fun answer => (next answer).bind k
  | .edit f next, k => .edit f fun answer => (next answer).bind k
  | .keepReading next, k => .keepReading fun answer => (next answer).bind k
  | .keepWriting next, k => .keepWriting fun answer => (next answer).bind k
  | .dropReading next, k => .dropReading fun answer => (next answer).bind k
  | .dropWriting next, k => .dropWriting fun answer => (next answer).bind k
  | .interrupt next, k => .interrupt (next.bind k)
  | .isInterrupted next, k => .isInterrupted fun answer => (next answer).bind k
  | .takeInterruption next, k => .takeInterruption fun answer => (next answer).bind k
  | .attempt body next, k => .attempt body fun answer => (next answer).bind k
  | .onThread thread body next, k => .onThread thread body fun answer => (next answer).bind k

instance : Monad (Program α σ) where
  pure := .done
  bind := bind

/-- Take the lock of what belongs to this thread anyway. -/
def takeNoLock : Program α σ (Except Error Unit) :=
  .isInterrupted fun flag => .done (NoLock.noLock.acquireInterruptibly flag)

/-- Let another thread set this thread's flag; the flag before and after. -/
def interruptFromOther : Program α σ (Bool × Bool) :=
  .isInterrupted fun before => .interrupt (.isInterrupted fun after => .done (before, after))

end Program

end RingDeque

import RingDeque.Deque.Build
import RingDeque.Sync.Mutex

/-!
# A shared deque

A shared deque is guarded by a reentrant lock. Since the thread that has the lock may take it again,
from a callback for instance, the lock alone does not keep an operation from changing the deque
under another one. Uses of the deque are therefore counted: any number of operations may read at a
time, but one that writes must be alone. An operation that finds the deque in use in a way that
excludes it reports a conflict.

A `Session` is all that one thread sees of this: the deque, its uses, the lock, its own flag, and a
memory `σ` in which its callbacks keep what they like. An `Activity` is what a thread does in a
session.
-/

namespace RingDeque

/-- The uses of a deque that are under way. -/
inductive Usage where
  /-- So many operations read it. -/
  | readers (count : Nat)
  /-- One operation writes to it. -/
  | writer
  deriving DecidableEq, Repr

namespace Usage

/-- Begin to read, unless someone writes. -/
def beginReading : Usage → Option Usage
  | readers count => some (readers (count + 1))
  | writer => none

/-- Begin to write, unless someone reads or writes. -/
def beginWriting : Usage → Option Usage
  | readers 0 => some writer
  | _ => none

/-- Cease to read so many times. -/
def endReading (times : Nat) : Usage → Usage
  | readers count => readers (count - times)
  | writer => writer

/-- Cease to write. -/
def endWriting : Usage → Usage
  | writer => readers 0
  | usage => usage

end Usage

/-- The uses that a thread began in a locked section and keeps up until it ends them or leaves the
section. -/
structure Kept where
  readers : Nat
  writer : Bool
  deriving DecidableEq, Repr

namespace Kept

/-- Nothing is kept up. -/
def nothing : Kept := ⟨0, false⟩

/-- End all uses that are kept up. -/
def endAll (kept : Kept) (usage : Usage) : Usage :=
  let usage := usage.endReading kept.readers
  if kept.writer then usage.endWriting else usage

end Kept

/-- A shared deque as one thread sees it. -/
structure Session (L α σ : Type) where
  deque : Deque α
  usage : Usage
  lock : L
  thread : Thread
  /-- The uses that the innermost locked section keeps up. -/
  kept : Kept
  /-- What the thread's callbacks remember. -/
  memory : σ

/-- What a thread does in a session. -/
abbrev Activity (L α σ β : Type) := Session L α σ → Except Fault β × Session L α σ

namespace Session

variable {L α σ β γ : Type}

/-! ### Using the deque -/

/-- A lock keeps other threads from a shared deque. -/
def isSynced (_ : Session L α σ) : Bool :=
  true

/-- Do `body` while reading the deque. -/
def reading (body : Deque α → Activity L α σ β) : Activity L α σ (Except Error β) := fun s =>
  match s.usage.beginReading with
  | none => (.ok (.error .concurrentModification), s)
  | some usage =>
    let (outcome, s) := body s.deque { s with usage := usage }
    (outcome.map .ok, { s with usage := s.usage.endReading 1 })

/-- Do `body` while writing to the deque. The deque is as `body` leaves it, also when it ends in a
fault. -/
def writing (body : Deque α → Session L α σ → (Except Fault β × Deque α) × Session L α σ) :
    Activity L α σ (Except Error β) := fun s =>
  match s.usage.beginWriting with
  | none => (.ok (.error .concurrentModification), s)
  | some usage =>
    let ((outcome, d), s) := body s.deque { s with usage := usage }
    (outcome.map .ok, { s with usage := s.usage.endWriting, deque := d })

/-- An error that an operation meets while it has the deque is the error of the whole. -/
def joined : Activity L α σ (Except Error (Except Error β)) → Activity L α σ (Except Error β) :=
  fun body s =>
    match body s with
    | (.ok (.ok answer), s) => (.ok answer, s)
    | (.ok (.error e), s) => (.ok (.error e), s)
    | (.error fault, s) => (.error fault, s)

/-- Carry out a plan of removal, for a thread that has the lock. -/
def expunge (plan : RemovalPlan) : Activity L α σ (Except Error Unit) :=
  joined (writing fun d s => let (answer, d) := d.expunge plan; ((.ok answer, d), s))

/-- What a source of elements delivers: the answers of `item` for the numbers below `count`, and
then `finish`, which finds the end. -/
def deliver (count : Nat) (item : Callback (Session L α σ) Nat α) (finish : Activity L α σ Unit)
    (s : Session L α σ) : Trace α × Session L α σ :=
  match traverse item (List.range count) s with
  | (⟨values, some fault⟩, s) => (⟨values, some fault⟩, s)
  | (⟨values, none⟩, s) =>
    match finish s with
    | (.error fault, s) => (⟨values, some fault⟩, s)
    | (.ok (), s) => (⟨values, none⟩, s)

/-! ### Keeping uses up -/

/-- Do `body` in a section of its own, in which it keeps up the uses `kept` and may begin others.
Those that are kept up at its end are ended. -/
def inSection (kept : Kept) (body : Activity L α σ β) : Activity L α σ β := fun s =>
  let (outcome, after) := body { s with kept := kept }
  (outcome, { after with kept := s.kept, usage := after.kept.endAll after.usage })

/-- Begin to read and keep it up. -/
def keepReading (s : Session L α σ) : Except Error (Deque α) × Session L α σ :=
  match s.usage.beginReading with
  | none => (.error .concurrentModification, s)
  | some usage =>
    (.ok s.deque, { s with usage := usage, kept := { s.kept with readers := s.kept.readers + 1 } })

/-- Begin to write and keep it up. -/
def keepWriting (s : Session L α σ) : Except Error Unit × Session L α σ :=
  match s.usage.beginWriting with
  | none => (.error .concurrentModification, s)
  | some usage => (.ok (), { s with usage := usage, kept := { s.kept with writer := true } })

/-- End one use by a reader that was kept up; whether there was one. -/
def dropReading (s : Session L α σ) : Bool × Session L α σ :=
  if s.kept.readers = 0 then
    (false, s)
  else
    (true, { s with
      usage := s.usage.endReading 1
      kept := { s.kept with readers := s.kept.readers - 1 } })

/-- End the use by a writer that was kept up; whether there was one. -/
def dropWriting (s : Session L α σ) : Bool × Session L α σ :=
  if s.kept.writer then
    (true, { s with usage := s.usage.endWriting, kept := { s.kept with writer := false } })
  else
    (false, s)

/-- Change the deque while writing is kept up. There is no answer if it is not. -/
def edit (f : Deque α → Except Fault β × Deque α) : Activity L α σ (Option β) := fun s =>
  if s.kept.writer then
    let (outcome, d) := f s.deque
    (outcome.map some, { s with deque := d })
  else
    (.ok none, s)

/-- Do `body` and go on also when it ends in a fault. By then every operation that the fault cut
short has released the lock and ended its uses. What was changed before stays changed. -/
def attempt (body : Activity L α σ β) : Activity L α σ (Except Fault β) := fun s =>
  let (outcome, s) := body s
  (.ok outcome, s)

/-! ### Taking the lock -/

variable [Mutex L]

/-- A session with a deque that nobody uses. -/
def start (d : Deque α) (memory : σ) : Session L α σ where
  deque := d
  usage := .readers 0
  lock := Mutex.unlocked
  thread := .calm
  kept := .nothing
  memory := memory

/-- Release the lock once. -/
def unlock (s : Session L α σ) : Session L α σ :=
  { s with lock := Mutex.release s.lock }

/-- Do `body` while having the lock. The thread's flag is looked at first. However `body` ends, the
lock is released again. -/
def locked (body : Activity L α σ (Except Error β)) : Activity L α σ (Except Error β) := fun s =>
  match Mutex.acquireInterruptibly s.thread s.lock with
  | (.error fault, lock, thread) => (.error fault, { s with lock := lock, thread := thread })
  | (.ok (.error e), lock, thread) => (.ok (.error e), { s with lock := lock, thread := thread })
  | (.ok (.ok ()), lock, thread) =>
    let (outcome, s) := body { s with lock := lock, thread := thread }
    (outcome, s.unlock)

/-- Read something off the deque. -/
def read (f : Deque α → β) : Activity L α σ (Except Error β) :=
  locked (reading fun d s => (.ok (f d), s))

/-- Change the deque by an update that may end in a fault. -/
def write (f : Deque α → Except Fault β × Deque α) : Activity L α σ (Except Error β) :=
  locked (writing fun d s => (f d, s))

/-- Change the deque by an update that may be refused. -/
def tryWrite (f : Deque α → Except Error β × Deque α) : Activity L α σ (Except Error β) :=
  joined (write fun d => let (answer, d) := f d; (.ok answer, d))

/-- Remove every element for which `predicate` holds; whether there was one. The predicate is asked
while the deque is read, so it may read the deque as well. The removal itself needs the deque alone,
and that its elements still stand where the predicate saw them. -/
def removeWhere (predicate : Callback (Session L α σ) α Bool) :
    Activity L α σ (Except Error Bool) :=
  locked fun s =>
    match reading (fun d => d.planRemoval predicate) s with
    | (.error fault, s) => (.error fault, s)
    | (.ok (.error e), s) => (.ok (.error e), s)
    | (.ok (.ok none), s) => (.ok (.ok false), s)
    | (.ok (.ok (some plan)), s) =>
      match expunge plan s with
      | (.error fault, s) => (.error fault, s)
      | (.ok (.error e), s) => (.ok (.error e), s)
      | (.ok (.ok ()), s) => (.ok (.ok true), s)

/-- Keep the elements for which `predicate` holds; whether others were removed. -/
def retain (predicate : Callback (Session L α σ) α Bool) : Activity L α σ (Except Error Bool) :=
  removeWhere (Deque.negated predicate)

/-- Call `action` on each element, front to back, while reading. -/
def forEach (action : Callback (Session L α σ) α Unit) : Activity L α σ (Except Error Unit) :=
  locked (reading fun d => d.forEach action)

/-- Replace each element by the answer of `operator`, front to back, while writing. -/
def replaceAll (operator : Callback (Session L α σ) α α) : Activity L α σ (Except Error Unit) :=
  locked (writing fun d => d.replaceAll operator)

/-- Sort the elements while writing. -/
def sortBy (compare : Comparison (Session L α σ) α) : Activity L α σ (Except Error Unit) :=
  locked (writing fun d => d.sortBy compare)

/-- Insert what a source delivers in front of the element at `index`, or at the back; whether that
changed anything. The source is read while writing, and not at all if the index is beyond the
length. -/
def insertAll (a : Allocator) (index : Option Nat) (count : Nat)
    (item : Callback (Session L α σ) Nat α) (finish : Activity L α σ Unit) :
    Activity L α σ (Except Error Bool) :=
  joined (locked (writing fun d s =>
    let index := index.getD d.length
    if d.length < index then
      ((.ok (.error (d.outOfBounds index)), d), s)
    else
      let (source, s) := deliver count item finish s
      (d.insertAll a index source, s)))

/-- What a glance at the deque shows that neither waits nor looks at the thread's flag. -/
inductive Glance (α : Type) where
  | deque (d : Deque α)
  /-- An operation of this thread is writing. -/
  | borrowed
  /-- Another thread has the lock. -/
  | locked

/-- What a thread sees of the deque while it has the lock. -/
def seen (s : Session L α σ) : Glance α :=
  match s.usage with
  | .writer => .borrowed
  | .readers _ => .deque s.deque

/-- Glance at the deque, and give the lock back if it was to be had at once. -/
def glance (s : Session L α σ) : Glance α × Session L α σ :=
  match Mutex.tryAcquire s.lock with
  | none => (.locked, s)
  | some lock => (s.seen, { s with lock := lock }.unlock)

/-- Do `body` in a section in which the thread has the lock. -/
def hold (body : Activity L α σ β) : Activity L α σ (Except Error β) :=
  locked fun s =>
    let (outcome, s) := inSection .nothing body s
    (outcome.map .ok, s)

/-- Do `body` in a section in which the thread has the lock and writes. -/
def withLocked (body : Activity L α σ β) : Activity L α σ (Except Error β) :=
  locked fun s =>
    match s.usage.beginWriting with
    | none => (.ok (.error .concurrentModification), s)
    | some usage =>
      let (outcome, s) := inSection ⟨0, true⟩ body { s with usage := usage }
      (outcome.map .ok, s)

/-- Let another thread do `body` and wait for it; its answer and what has become of that thread. -/
def onThread (thread : Thread) (body : Activity L α σ β) : Activity L α σ (β × Thread) := fun s =>
  let (outcome, after) :=
    inSection .nothing body { s with lock := Mutex.fromElsewhere s.lock, thread := thread }
  (outcome.map (·, after.thread), { after with lock := s.lock, thread := s.thread })

end Session

end RingDeque

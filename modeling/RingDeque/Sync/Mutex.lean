import RingDeque.Fault
import RingDeque.Sync.Thread
import RingDeque.Text.Shown

/-!
# Reentrant mutexes

A mutex belongs to one thread at a time, which may take it again and again and has to release it as
often. Which mutex that is, is left open: `Mutex` lists what can be done with one, as one thread
sees it, and `LawfulMutex` says what can be relied on. While a thread looks at a mutex of another
thread, that other thread does nothing; so waiting for it ends by an interruption or not at all.

To take a mutex interruptibly means to give up when the thread's flag is set, before or while it
waits.
-/

namespace RingDeque

/-- Mutexes whose states, as one thread sees them, are the elements of `L`. -/
class Mutex (L : Type) where
  /-- A mutex that nobody has. -/
  unlocked : L
  /-- Take the mutex, if it is to be had. -/
  tryAcquire : L → Option L
  /-- Release the mutex once. -/
  release : L → L
  /-- Whether some thread has the mutex. -/
  isLocked : L → Bool
  /-- Whether this thread has the mutex. -/
  isOwned : L → Bool
  /-- The mutex as any other thread sees it. -/
  fromElsewhere : L → L

namespace Mutex

variable {L : Type} [Mutex L]

/-- No other thread has the mutex. -/
def Available (mutex : L) : Prop :=
  isLocked mutex = false ∨ isOwned mutex = true

/-- Take the mutex and wait for it if need be. -/
def acquire (mutex : L) : Except Fault Unit × L :=
  match tryAcquire mutex with
  | some mutex => (.ok (), mutex)
  | none => (.error .deadlock, mutex)

/-- Take the mutex unless the thread is interrupted first. The flag stays set. -/
def acquireInterruptibly (t : Thread) (mutex : L) :
    Except Fault (Except Error Unit) × L × Thread :=
  if t.interrupted then
    (.ok (.error .cancelled), mutex, t)
  else
    match tryAcquire mutex with
    | some mutex => (.ok (.ok ()), mutex, t)
    | none =>
      if t.interruptedOnWait then
        (.ok (.error .cancelled), mutex, t.interrupt)
      else
        (.error .deadlock, mutex, t)

end Mutex

/-- What a thread can rely on. -/
class LawfulMutex (L : Type) [Mutex L] : Prop where
  /-- Nobody has a new mutex. -/
  isLocked_unlocked : Mutex.isLocked (Mutex.unlocked : L) = false
  /-- A mutex that no other thread has is to be had at once, also by the thread that has it. -/
  isSome_tryAcquire (mutex : L) : Mutex.Available mutex → (Mutex.tryAcquire mutex).isSome = true
  /-- A thread has the mutex that it took. -/
  isOwned_of_tryAcquire (mutex taken : L) :
    Mutex.tryAcquire mutex = some taken → Mutex.isOwned taken = true
  /-- To release a mutex undoes the last taking of it. -/
  release_of_tryAcquire (mutex taken : L) :
    Mutex.tryAcquire mutex = some taken → Mutex.release taken = mutex

/-- The lock of what belongs to one thread anyway. -/
inductive NoLock where
  | noLock
  deriving DecidableEq, Repr

/-- Taking the lock of what belongs to one thread means only to look at the thread's flag. -/
def NoLock.acquireInterruptibly (_ : NoLock) (interrupted : Bool) : Except Error Unit :=
  if interrupted then .error .cancelled else .ok ()

instance : Inspect NoLock where
  inspect _ := .atom "NoopLock"

/-- A value and the mutex that guards it. -/
structure Guarded (L : Type) (α : Type u) where
  value : α
  lock : L
  deriving Repr

/-- A value that nobody has locked. -/
def Guarded.ofValue {L : Type} [Mutex L] {α : Type u} (value : α) : Guarded L α :=
  ⟨value, Mutex.unlocked⟩

end RingDeque

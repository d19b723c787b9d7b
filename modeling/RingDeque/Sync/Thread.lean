/-!
# Interruption

Every thread has a flag. Anyone may set it, and the thread looks at it when it is about to take a
lock. The flag stays set until the thread takes note of it.
-/

namespace RingDeque

/-- What is known of a thread. -/
structure Thread where
  /-- The thread's flag. -/
  interrupted : Bool
  /-- Whether someone sets the flag once the thread waits for a lock. -/
  interruptedOnWait : Bool
  deriving DecidableEq, Repr

namespace Thread

/-- A thread that nobody interrupts. -/
def calm : Thread := ⟨false, false⟩

/-- A thread that was interrupted. -/
def alarmed : Thread := ⟨true, false⟩

/-- A thread that will be interrupted once it waits. -/
def awaited : Thread := ⟨false, true⟩

/-- Set the flag. -/
def interrupt (t : Thread) : Thread :=
  { t with interrupted := true }

/-- Take note of the flag: return and clear it. -/
def takeInterruption (t : Thread) : Bool × Thread :=
  (t.interrupted, { t with interrupted := false })

end Thread

end RingDeque

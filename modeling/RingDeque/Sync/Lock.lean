import RingDeque.Sync.Mutex

/-!
# A mutex that counts

The mutex that runs. A thread needs to know no more of it than whether some thread has it, and how
often it has taken it itself.
-/

namespace RingDeque

/-- A mutex as one thread sees it. -/
inductive Lock where
  /-- Nobody has it. -/
  | free
  /-- This thread has it, and has taken it so many times again. -/
  | own (again : Nat)
  /-- Another thread has it. -/
  | foreign
  deriving DecidableEq, Repr

instance : Mutex Lock where
  unlocked := .free
  tryAcquire
    | .free => some (.own 0)
    | .own again => some (.own (again + 1))
    | .foreign => none
  release
    | .own (again + 1) => .own again
    | .own 0 => .free
    | lock => lock
  isLocked
    | .free => false
    | _ => true
  isOwned
    | .own _ => true
    | _ => false
  fromElsewhere
    | .free => .free
    | _ => .foreign

instance : LawfulMutex Lock where
  isLocked_unlocked := rfl
  isSome_tryAcquire lock available := by
    cases lock with
    | free => rfl
    | own again => rfl
    | foreign => cases available <;> contradiction
  isOwned_of_tryAcquire lock taken acquired := by
    cases lock with
    | free | own again =>
        cases acquired
        rfl
    | foreign => contradiction
  release_of_tryAcquire lock taken acquired := by
    cases lock with
    | free | own again =>
        cases acquired
        rfl
    | foreign => contradiction

end RingDeque

import RingDeque.Deque.Search
import RingDeque.Hash.Feed
import RingDeque.Shared.Program

/-!
# The methods of a shared deque

A method takes the lock, has the deque to itself or together with others that read, and performs an
operation on it. So a method is named by how it has the deque and by the operation: `reader` and
`tryReader` share it, `writer` and `tryWriter` have it alone. If the operation is one that may be
refused, its error is the error of the method; that is why methods that need room are made from the
operations that try.

Removing by a predicate shares the deque while the predicate is asked and has it alone afterwards.
Methods that call back are given the programs that they call.
-/

namespace RingDeque.SharedDeque

variable {α σ γ : Type}

/-- What a thread does that calls a method. -/
abbrev Method (α σ γ : Type) := Program α σ (Except Error γ)

/-- A method that reads something off the deque. -/
def reader (f : Deque α → γ) : Method α σ γ :=
  .read f .done

/-- A method that reads something off the deque that may not be there. -/
def tryReader (f : Deque α → Except Error γ) : Method α σ γ :=
  .read f fun answer => .done (answer.bind id)

/-- A method that changes the deque. -/
def writer (f : Deque α → γ × Deque α) : Method α σ γ :=
  .write (fun d => let (answer, d) := f d; (.ok answer, d)) .done

/-- A method that changes the deque, unless that is refused. -/
def tryWriter (f : Deque α → Except Error γ × Deque α) : Method α σ γ :=
  .tryWrite f .done

/-! ### Size and capacity -/

/-- The number of elements. -/
def length : Method α σ Nat :=
  reader Deque.length

/-- Whether there is no element. -/
def isEmpty : Method α σ Bool :=
  reader Deque.isEmpty

/-- The number of elements that fit into the buffer. -/
def capacity : Method α σ Nat :=
  reader Deque.capacity

/-- Make sure that so many elements fit into the buffer. -/
def ensureCapacity (a : Allocator) (capacity : Nat) : Method α σ Unit :=
  tryWriter (Deque.ensureCapacity a capacity)

/-- Give up the slots that are not needed. -/
def trimToSize (a : Allocator) : Method α σ Unit :=
  tryWriter (Deque.tryTrimToSize a)

/-! ### The ends -/

/-- Add an element at the front. -/
def pushFront (a : Allocator) (x : α) : Method α σ Unit :=
  tryWriter (Deque.tryPushFront a x)

/-- Add an element at the back. -/
def pushBack (a : Allocator) (x : α) : Method α σ Unit :=
  tryWriter (Deque.tryPushBack a x)

/-- Remove the front element, if there is one. -/
def popFront : Method α σ (Option α) :=
  writer Deque.popFront

/-- Remove the back element, if there is one. -/
def popBack : Method α σ (Option α) :=
  writer Deque.popBack

/-- Remove the front element. -/
def removeFirst : Method α σ α :=
  tryWriter Deque.removeFirst

/-- Remove the back element. -/
def removeLast : Method α σ α :=
  tryWriter Deque.removeLast

/-- The front element, if there is one. -/
def front? : Method α σ (Option α) :=
  reader Deque.front?

/-- The back element, if there is one. -/
def back? : Method α σ (Option α) :=
  reader Deque.back?

/-- The front element. -/
def first : Method α σ α :=
  tryReader Deque.first

/-- The back element. -/
def last : Method α σ α :=
  tryReader Deque.last

/-! ### Positions -/

/-- The element at `index`. -/
def get (index : Nat) : Method α σ α :=
  tryReader (Deque.get index)

/-- Replace the element at `index`; the old element. -/
def set (index : Nat) (x : α) : Method α σ α :=
  tryWriter (Deque.set index x)

/-- Insert an element in front of the one at `index`. -/
def insert (a : Allocator) (index : Nat) (x : α) : Method α σ Unit :=
  tryWriter (Deque.insert a index x)

/-- Remove the element at `index`. -/
def removeAt (index : Nat) : Method α σ α :=
  tryWriter (Deque.removeAt index)

/-- Remove the element that `choose` picks, if there is one. -/
def removeChosen (choose : Nat → Nat) : Method α σ (Option α) :=
  writer (Deque.removeChosen choose)

/-! ### Searching -/

section Search

variable [BEq α]

/-- Whether an element equals `x`. -/
def contains (x : α) : Method α σ Bool :=
  reader (Deque.contains x)

/-- The index of the first element that equals `x`. -/
def indexOf? (x : α) : Method α σ (Option Nat) :=
  reader (Deque.indexOf? x)

/-- The index of the last element that equals `x`. -/
def lastIndexOf? (x : α) : Method α σ (Option Nat) :=
  reader (Deque.lastIndexOf? x)

/-- Remove the first element that equals `x`; whether there was one. -/
def removeFirstOccurrence (x : α) : Method α σ Bool :=
  writer (Deque.removeFirstOccurrence x)

/-- Remove the last element that equals `x`; whether there was one. -/
def removeLastOccurrence (x : α) : Method α σ Bool :=
  writer (Deque.removeLastOccurrence x)

end Search

/-! ### Many elements -/

/-- Add what a source delivers at the back; whether that changed anything. -/
def addAll (a : Allocator) (count : Nat) (item : Nat → Program α σ α)
    (finish : Program α σ Unit) : Method α σ Bool :=
  .insertAll a none count item finish .done

/-- Insert what a source delivers in front of the element at `index`; whether that changed
anything. -/
def insertAll (a : Allocator) (index : Nat) (count : Nat) (item : Nat → Program α σ α)
    (finish : Program α σ Unit) : Method α σ Bool :=
  .insertAll a (some index) count item finish .done

/-- Remove every element for which `predicate` holds; whether there was one. -/
def removeWhere (predicate : α → Program α σ Bool) : Method α σ Bool :=
  .removeWhere predicate .done

/-- Keep the elements for which `predicate` holds; whether others were removed. -/
def retain (predicate : α → Program α σ Bool) : Method α σ Bool :=
  .retain predicate .done

/-- Remove every element that equals one of `values`; whether there was one. -/
def removeAll [BEq α] (values : List α) : Method α σ Bool :=
  removeWhere fun x => .done (Deque.occursIn values x)

/-- Keep the elements that equal one of `values`; whether others were removed. -/
def retainAll [BEq α] (values : List α) : Method α σ Bool :=
  removeWhere fun x => .done (!Deque.occursIn values x)

/-- Remove all elements. -/
def clear : Method α σ Unit :=
  writer fun d => ((), d.clear)

/-- Call `action` on each element, front to back. -/
def forEach (action : α → Program α σ Unit) : Method α σ Unit :=
  .forEach action .done

/-- Replace each element by the answer of `operator`, front to back. -/
def replaceAll (operator : α → Program α σ α) : Method α σ Unit :=
  .replaceAll operator .done

/-- Sort the elements by `compare`. -/
def sortBy (compare : α → α → Program α σ Ordering) : Method α σ Unit :=
  .sortBy compare .done

/-- Sort the elements by their order. -/
def sort [Ord α] : Method α σ Unit :=
  .write Deque.sort .done

/-! ### Copies -/

/-- The elements, front to back. -/
def toList : Method α σ (List α) :=
  reader Deque.toList

/-- A copy of the deque. -/
def snapshot : Method α σ (Deque α) :=
  reader id

/-- The hash of the elements. -/
def sequenceHash [Feed α] (hasher : Hasher) : Method α σ UInt64 :=
  reader (Deque.sequenceHash hasher)

/-! ### Sections -/

/-- Do `body` while the deque is lent to it. -/
def withLocked (body : Program α σ γ) : Method α σ γ :=
  .withLocked body .done

/-- Do `body` while having the lock. -/
def lockInterruptibly (body : Program α σ γ) : Method α σ γ :=
  .hold body .done

end RingDeque.SharedDeque

import RingDeque.Deque.Basic

/-!
# What a hash function reads

A hash function reads a value as a sequence of writes: machine words, lengths, and blocks of bytes.
A string is a block followed by a byte that occurs in no string, a sequence is its length followed
by its elements: so no feed is the beginning of another.

Which hash function reads the writes is left open. A `Hasher` takes in one write after the other,
and its hash of a value depends on nothing but what that value fed to it.
-/

namespace RingDeque

/-- A piece of what a hash function reads. -/
inductive Write where
  | word (value : UInt64)
  | length (count : Nat)
  | bytes (block : List UInt8)
  deriving DecidableEq, Repr

/-- Values that a hash function can read. -/
class Feed (α : Type u) where
  feed : α → List Write

export Feed (feed)

instance : Feed Int64 where
  feed n := [.word n.toUInt64]

instance : Feed String where
  feed text := [.bytes text.toUTF8.toList, .word 0xff]

instance {α : Type u} {β : Type v} [Feed α] [Feed β] : Feed (α × β) where
  feed pair := feed pair.1 ++ feed pair.2

instance {α : Type u} [Feed α] : Feed (Deque α) where
  feed d := .length d.length :: d.toList.flatMap feed

/-- A hash function that reads write after write. -/
structure Hasher where
  State : Type
  initial : State
  read : State → Write → State
  finish : State → UInt64

namespace Hasher

variable {α : Type u} [Feed α]

/-- The hash of a sequence of writes. -/
def hash (hasher : Hasher) (writes : List Write) : UInt64 :=
  hasher.finish (writes.foldl hasher.read hasher.initial)

/-- The hash of a value. -/
def hashOf (hasher : Hasher) (x : α) : UInt64 :=
  hasher.hash (feed x)

end Hasher

/-- A hash of the elements in their order: `31` times the hash so far plus the hash of the next
element. -/
def Deque.sequenceHash {α : Type u} [Feed α] (hasher : Hasher) (d : Deque α) : UInt64 :=
  d.toList.foldl (fun hash x => hash * 31 + hasher.hashOf x) 1

end RingDeque

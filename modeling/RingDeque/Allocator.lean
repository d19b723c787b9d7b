/-!
# Allocators

Where buffers come from. An operation that needs a larger or a smaller buffer asks for a number of
slots and is given it or refused. Within one operation each request is larger than the one before,
so a single yes-or-no answer for every size describes the allocator.
-/

namespace RingDeque

/-- The largest number a machine word holds. Sums that report a size stop there. -/
def wordMax : Nat := UInt64.size - 1

/-- The number of bytes that can be addressed. A slot takes at least one of them. -/
def addressableBytes : Nat := UInt64.size / 2 - 1

/-- A source of buffers. -/
structure Allocator where
  /-- No buffer has more slots than this. -/
  maxSlots : Nat
  /-- Whether a buffer of so many slots is to be had. -/
  grants : Nat → Bool
  maxSlots_pos : 0 < maxSlots
  maxSlots_le : maxSlots ≤ addressableBytes

namespace Allocator

/-- Buffers whose slots fill `slotBytes` bytes each, when every request below `limit` slots is
granted. -/
def bounded (slotBytes limit : Nat) : Allocator where
  maxSlots := max 1 (addressableBytes / slotBytes)
  grants n := n < limit
  maxSlots_pos := Nat.le_max_left ..
  maxSlots_le := Nat.max_le.2 ⟨by decide, Nat.div_le_self ..⟩

end Allocator

end RingDeque

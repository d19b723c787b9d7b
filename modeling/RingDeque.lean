import RingDeque.Allocator
import RingDeque.BitSet
import RingDeque.Calculation
import RingDeque.Characteristics
import RingDeque.Circle
import RingDeque.Config
import RingDeque.Cursor.OneWay
import RingDeque.Cursor.TwoWay
import RingDeque.Deque.Basic
import RingDeque.Deque.Build
import RingDeque.Deque.Ends
import RingDeque.Deque.Growth
import RingDeque.Deque.Insertion
import RingDeque.Deque.Positional
import RingDeque.Deque.Removal
import RingDeque.Deque.Search
import RingDeque.Deque.Sort
import RingDeque.Deque.Visit
import RingDeque.Error
import RingDeque.Fault
import RingDeque.Hash.Feed
import RingDeque.Hash.Word
import RingDeque.Indexed
import RingDeque.Proofs.Activity
import RingDeque.Proofs.Agreement
import RingDeque.Proofs.Atomicity
import RingDeque.Proofs.Borrowing
import RingDeque.Proofs.BufferSize
import RingDeque.Proofs.Callbacks
import RingDeque.Proofs.Capacity
import RingDeque.Proofs.Circle
import RingDeque.Proofs.Division
import RingDeque.Proofs.Ends
import RingDeque.Proofs.Equality
import RingDeque.Proofs.FailFast
import RingDeque.Proofs.GapCursor
import RingDeque.Proofs.Growth
import RingDeque.Proofs.HiddenFlag
import RingDeque.Proofs.Insertion
import RingDeque.Proofs.Layout
import RingDeque.Proofs.Legs
import RingDeque.Proofs.Methods
import RingDeque.Proofs.Nesting
import RingDeque.Proofs.Operation
import RingDeque.Proofs.PassCursor
import RingDeque.Proofs.Positional
import RingDeque.Proofs.Reachable
import RingDeque.Proofs.Reentrancy
import RingDeque.Proofs.Removal
import RingDeque.Proofs.Slots
import RingDeque.Proofs.Sort
import RingDeque.Proofs.SortList
import RingDeque.Proofs.StaleCursor
import RingDeque.Proofs.Update
import RingDeque.Shared.Methods
import RingDeque.Shared.Program
import RingDeque.Shared.Session
import RingDeque.Shared.Text
import RingDeque.Slots
import RingDeque.Splitter
import RingDeque.Sync.Lock
import RingDeque.Sync.Mutex
import RingDeque.Sync.Thread
import RingDeque.Text.Deque
import RingDeque.Text.Graphic
import RingDeque.Text.Quoted
import RingDeque.Text.Shown
import RingDeque.Traversal.Basic
import RingDeque.Traversal.Draining
import RingDeque.Traversal.Ring
import RingDeque.Traversal.Slots
import RingDeque.Proofs.Interruption
import RingDeque.Proofs.StableFilter
import RingDeque.Proofs.BulkInsertion
import RingDeque.Proofs.StableSort
import RingDeque.Proofs.PositionalInverse
import RingDeque.Proofs.FullBuffer
import RingDeque.Proofs.Extension
import RingDeque.Proofs.CutShort
import RingDeque.Proofs.DoubleEnded
import RingDeque.Proofs.Iterators
import RingDeque.Proofs.Trimming
import RingDeque.Proofs.Search
import RingDeque.Proofs.Shifts
import RingDeque.Proofs.BlockMoves
import RingDeque.Proofs.Words.Exactness
import RingDeque.Proofs.KeptCursor
import RingDeque.Proofs.Words.Overshoot

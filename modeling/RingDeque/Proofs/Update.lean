import RingDeque.Config
import RingDeque.Deque.Search
import RingDeque.Proofs.Insertion
import RingDeque.Proofs.Operation

/-!
# Every update leaves the deque in order

`Update` lists the calls that may change a deque, and `Origin` those that make one. Each comes with
its arguments, its callbacks and an allocator. Nothing is asked of these: indices may be out of
range, slots may be refused, sources, predicates and comparisons may fail at any call, and equality
need not be an equivalence.

An update may end in an error or a fault. What counts here is the deque that it leaves behind.
-/

namespace RingDeque

variable {σ : Type u} {α : Type v}

/-- A call that may change a deque. To sort by keys is to sort by the comparison of keys. -/
inductive Update (σ : Type u) (α : Type v) where
  | operation (op : Operation σ α)
  | tryPushFront (x : α)
  | tryPushBack (x : α)
  | removeFirst
  | removeLast
  | replaceFront (x : α)
  | replaceBack (x : α)
  | replace (index : Nat) (x : α)
  | replaceOrFault (index : Nat) (x : α)
  /-- A reference to the element in a slot is used to overwrite it. -/
  | write (p : Nat) (x : α)
  | removeChosen (choose : Nat → Nat)
  | removeFirstOccurrence (eq : BEq α) (x : α)
  | removeLastOccurrence (eq : BEq α) (x : α)
  | removeAll (eq : BEq α) (values : List α)
  | retainAll (eq : BEq α) (values : List α)
  | tryAddAll (source : Trace α)
  | extend (claimed : Nat) (source : Trace α)
  | sort (order : Ord α)
  | tryTrimToSize

/-- The deque that the call leaves behind. -/
def Update.run (a : Allocator) : Update σ α → Deque α → Deque α
  | .operation op, d => (op.run a d).2
  | .tryPushFront x, d => (d.tryPushFront a x).2
  | .tryPushBack x, d => (d.tryPushBack a x).2
  | .removeFirst, d => d.removeFirst.2
  | .removeLast, d => d.removeLast.2
  | .replaceFront x, d => (d.replaceFront x).2
  | .replaceBack x, d => (d.replaceBack x).2
  | .replace index x, d => (d.replace? index x).2
  | .replaceOrFault index x, d => (d.replaceOrFault index x).2
  | .write p x, d => (d.replaceSlot p x).2
  | .removeChosen choose, d => (d.removeChosen choose).2
  | .removeFirstOccurrence _ x, d => (d.removeFirstOccurrence x).2
  | .removeLastOccurrence _ x, d => (d.removeLastOccurrence x).2
  | .removeAll _ values, d => (d.removeAll values).2
  | .retainAll _ values, d => (d.retainAll values).2
  | .tryAddAll source, d => (d.tryAddAll a source).2
  | .extend claimed source, d => (d.extend a claimed source).2.2
  | .sort _, d => d.sort.2
  | .tryTrimToSize, d => (d.tryTrimToSize a).2

/-- A way to make a deque. -/
inductive Origin (α : Type u) where
  | withCapacity (capacity : Nat)
  | ofList (xs : List α)
  | ofOptions (xs : List (Option α))
  | build (config : Config)
  | buildFrom (config : Config) (xs : List α)

/-- The deque that is made, unless there is no room for its elements or one of them is missing. -/
def Origin.make? (a : Allocator) : Origin α → Option (Deque α)
  | .withCapacity capacity => some (.withCapacity a capacity)
  | .ofList xs => (Deque.ofList a xs).toOption
  | .ofOptions xs => (Deque.tryOfOptions a xs).toOption
  | .build config => some (config.build a)
  | .buildFrom config xs => (config.buildFrom a xs).toOption

theorem eq_ok_of_toOption {ε : Type u} {β : Type v} {x : Except ε β} {y : β}
    (h : x.toOption = some y) : x = .ok y := by
  cases x with
  | error e => contradiction
  | ok z => exact congrArg Except.ok (Option.some.inj h)

namespace Deque

variable {a : Allocator} {d : Deque α} {xs ys : List α} {index : Nat}

theorem Holds.tryPushFront_any (h : d.Holds xs) (x : α) :
    ∃ ys, (d.tryPushFront a x).2.Holds ys := by
  by_cases hr : d.Room a (xs.length + 1)
  · obtain ⟨d', hd', holds⟩ := h.tryPushFront (x := x) hr
    exact ⟨_, by rwa [hd']⟩
  · obtain ⟨e, -, hd'⟩ := h.tryPushFront_refused (x := x) hr
    exact ⟨xs, by rwa [hd']⟩

theorem Holds.tryPushBack_any (h : d.Holds xs) (x : α) : ∃ ys, (d.tryPushBack a x).2.Holds ys := by
  by_cases hr : d.Room a (xs.length + 1)
  · obtain ⟨d', hd', holds⟩ := h.tryPushBack (x := x) hr
    exact ⟨_, by rwa [hd']⟩
  · obtain ⟨e, -, hd'⟩ := h.tryPushBack_refused (x := x) hr
    exact ⟨xs, by rwa [hd']⟩

theorem Holds.insertRange_any (h : d.Holds xs) (hi : index ≤ xs.length) (ys : List α) :
    ∃ zs, (d.insertRange a index ys).2.Holds zs := by
  by_cases hr : d.Room a (xs.length + ys.length)
  · obtain ⟨d', hd', holds⟩ := h.insertRange ys hi hr
    exact ⟨_, by rwa [hd']⟩
  · obtain ⟨e, -, hd'⟩ := h.insertRange_refused index hr
    exact ⟨xs, by rwa [hd']⟩

theorem Holds.tryAddAll_any (h : d.Holds xs) (source : Trace α) :
    ∃ zs, (d.tryAddAll a source).2.Holds zs := by
  rw [tryAddAll_eq]
  cases source.complete with
  | error fault => exact ⟨xs, h⟩
  | ok ys => exact h.insertRange_any (Nat.le_of_eq h.length_eq) ys

theorem Holds.removeFound (h : d.Holds xs) (found : Option Nat) :
    ∃ ys, (d.removeFound found).2.Holds ys := by
  cases found with
  | none => exact ⟨xs, h⟩
  | some p =>
      rw [Deque.removeFound_some]
      obtain hd' | ⟨k, hk, closed, d', hd', holds⟩ := h.delete_any p
      · exact ⟨xs, by rwa [hd']⟩
      · exact ⟨xs.eraseIdx k, by rwa [hd']⟩

theorem Holds.update (h : d.Holds xs) (u : Update σ α) : ∃ ys, (u.run a d).Holds ys := by
  cases u with
  | operation op =>
      obtain ⟨ys, holds, -⟩ := h.run_any (a := a) op
      exact ⟨ys, holds⟩
  | tryPushFront x => exact h.tryPushFront_any x
  | tryPushBack x => exact h.tryPushBack_any x
  | removeFirst =>
      obtain ⟨d', hd', holds⟩ := h.popFront
      rw [Update.run, Deque.removeFirst, hd']
      cases xs.head? <;> exact ⟨_, holds⟩
  | removeLast =>
      obtain ⟨d', hd', holds⟩ := h.popBack
      rw [Update.run, Deque.removeLast, hd']
      cases xs.getLast? <;> exact ⟨_, holds⟩
  | replaceFront x => exact h.replaceSlot_any d.head
  | replaceBack x => exact h.replaceSlot_any _
  | replace index x =>
      obtain ⟨d', hd', holds⟩ := h.replace? (x := x) index
      exact ⟨_, by rwa [Update.run, hd']⟩
  | replaceOrFault index x =>
      obtain ⟨d', hd', holds⟩ := h.replace? (x := x) index
      rw [Update.run, Deque.replaceOrFault, hd']
      cases xs[index]? <;> exact ⟨_, holds⟩
  | write p x => exact h.replaceSlot_any p
  | removeChosen choose =>
      obtain ⟨index, holds⟩ := h.removeChosen choose
      exact ⟨_, holds⟩
  | removeFirstOccurrence eq x =>
      rw [Update.run, Deque.removeFirstOccurrence_eq]
      exact h.removeFound _
  | removeLastOccurrence eq x =>
      rw [Update.run, Deque.removeLastOccurrence_eq]
      exact h.removeFound _
  | removeAll eq values =>
      obtain ⟨d', hd', holds⟩ := h.removeWhere (.pure (occursIn values)) ()
      exact ⟨_, by rwa [Update.run, Deque.removeAll_eq, hd']⟩
  | retainAll eq values =>
      obtain ⟨d', hd', holds⟩ := h.removeWhere (.pure fun x => !occursIn values x) ()
      exact ⟨_, by rwa [Update.run, Deque.retainAll_eq, hd']⟩
  | tryAddAll source => exact h.tryAddAll_any source
  | extend claimed source =>
      obtain ⟨taken, -, holds⟩ := h.extend (a := a) claimed source
      exact ⟨_, holds⟩
  | sort order =>
      obtain ⟨d', hd', holds⟩ := h.sortBy .natural ()
      exact ⟨_, by rwa [Update.run, Deque.sort, hd']⟩
  | tryTrimToSize =>
      obtain ⟨d', hd', holds⟩ | ⟨e, -, hd'⟩ := h.tryTrimToSize (a := a)
      · exact ⟨xs, by rwa [Update.run, hd']⟩
      · exact ⟨xs, by rwa [Update.run, hd']⟩

/-- No call, however it ends, leaves a deque out of order. -/
theorem WellFormed.update (h : d.WellFormed) (u : Update σ α) : (u.run a d).WellFormed :=
  wellFormed_iff.2 (h.holds.update u)

theorem Holds.addAll_any (h : d.Holds xs) (source : Trace α) :
    ∃ zs, (d.addAll a source).2.Holds zs := by
  obtain ⟨zs, holds⟩ := h.tryAddAll_any (a := a) source
  rw [Deque.addAll]
  generalize d.tryAddAll a source = outcome at holds ⊢
  obtain ⟨_ | _ | _, d'⟩ := outcome <;> exact ⟨zs, holds⟩

theorem holds_of_ofList (h : ofList a xs = .ok d) : ∃ ys, d.Holds ys := by
  obtain ⟨ys, holds⟩ := (holds_withCapacity a xs.length).addAll_any (a := a) (.ofList xs)
  rw [ofList] at h
  generalize (withCapacity a xs.length).addAll a (.ofList xs) = outcome at h holds
  obtain ⟨_ | _, d'⟩ := outcome
  · contradiction
  · cases h
    exact ⟨ys, holds⟩

theorem holds_of_tryOfOptions {xs : List (Option α)} (h : tryOfOptions a xs = .ok d) :
    ∃ ys, d.Holds ys := by
  rw [tryOfOptions] at h
  cases complete : withoutGaps xs with
  | error e => simp [complete] at h
  | ok ys =>
      simp only [complete] at h
      obtain ⟨zs, holds⟩ :=
        (holds_withCapacity a ys.length).insertRange_any (a := a) (Nat.zero_le _) ys
      generalize (withCapacity a ys.length).insertRange a 0 ys = outcome at h holds
      obtain ⟨_ | _, d'⟩ := outcome
      · contradiction
      · cases h
        exact ⟨zs, holds⟩

theorem holds_of_buildFrom {config : Config} (h : config.buildFrom a xs = .ok d) :
    ∃ ys, d.Holds ys := by
  obtain ⟨taken, -, holds⟩ :=
    (holds_withCapacity a config.capacityHint).extend (a := a) xs.length (.ofList xs)
  rw [Config.buildFrom, Config.build] at h
  generalize (withCapacity a config.capacityHint).extend a xs.length (.ofList xs) =
    outcome at h holds
  obtain ⟨_ | _, _, d'⟩ := outcome
  · contradiction
  · cases h
    exact ⟨_, holds⟩

/-- Every deque is in order when it is made. -/
theorem wellFormed_of_make? {origin : Origin α} (h : origin.make? a = some d) : d.WellFormed := by
  rw [wellFormed_iff]
  cases origin with
  | withCapacity capacity =>
      cases h
      exact ⟨[], holds_withCapacity a capacity⟩
  | ofList xs => exact holds_of_ofList (eq_ok_of_toOption h)
  | ofOptions xs => exact holds_of_tryOfOptions (eq_ok_of_toOption h)
  | build config =>
      cases h
      exact ⟨[], holds_withCapacity a config.capacityHint⟩
  | buildFrom config xs => exact holds_of_buildFrom (eq_ok_of_toOption h)

end Deque

end RingDeque

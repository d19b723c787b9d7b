import RingDeque.Proofs.BufferSize
import RingDeque.Proofs.Reachable

/-!
# Room that was reserved lasts

A program makes, changes and reads deques in any order. Whenever one of its actions changes the
number of slots of a deque, that is a trim, or the deque needed room for more elements than its
capacity: because room was reserved for them, by the program or on behalf of an extension, or
because they are in the deque now. So once room is reserved, the buffer stays the same as long as
the deque is not trimmed, no more is reserved, and there are never more elements.
-/

namespace RingDeque

variable {σ : Type u} {α : Type v}

open Deque (Sized)

/-- What happened to the number of slots: nothing, or there was a trim, or the buffer was enlarged
for so many elements, by this allocator. -/
inductive Resized (trims : Prop) (enlarges : Allocator → Nat → Prop) (d d' : Deque α) : Prop where
  | kept (size : d'.slotCount = d.slotCount)
  | trimmed (why : trims) (size : d'.slotCount ≤ d.slotCount)
  | enlarged {a : Allocator} {asked : Nat} (why : enlarges a asked)
      (grown : Grown a d.slotCount (asked + 1) d'.slotCount)

theorem Resized.imp {trims trims' : Prop} {enlarges enlarges' : Allocator → Nat → Prop}
    {d d' : Deque α} (h : Resized trims enlarges d d') (ht : trims → trims')
    (he : ∀ a asked, enlarges a asked → enlarges' a asked) : Resized trims' enlarges' d d' := by
  cases h with
  | kept size => exact .kept size
  | trimmed why size => exact .trimmed (ht why) size
  | enlarged why grown => exact .enlarged (he _ _ why) grown

namespace Update

/-- Whether the call gives up slots. -/
def trims : Update σ α → Bool
  | .operation .trimToSize | .tryTrimToSize => true
  | _ => false

/-- Whether the call adds elements, as many as it finds room for, without reserving room
beforehand. -/
def adds : Update σ α → Bool
  | .operation (.pushFront _) | .operation (.pushBack _) | .tryPushFront _ | .tryPushBack _
  | .operation (.insert ..) | .operation (.insertAll ..) | .operation (.addAll _)
  | .tryAddAll _ => true
  | _ => false

/-- For how many elements the call reserves room beforehand. -/
def reserves (d : Deque α) : Update σ α → Nat
  | .operation (.ensureCapacity capacity) => capacity
  | .extend claimed _ => min (d.length + claimed) wordMax
  | _ => 0

/-- Why a call on `d` that left `d'` may have enlarged the buffer, and for how many elements. -/
inductive Enlarges (d d' : Deque α) : Update σ α → Nat → Prop where
  | ensureCapacity {capacity : Nat} (beyond : d.capacity < capacity) :
      Enlarges d d' (.operation (.ensureCapacity capacity)) capacity
  | extend {claimed : Nat} {source : Trace α} {asked : Nat}
      (need : asked = max (min (d.length + claimed) wordMax) d'.length)
      (beyond : d.capacity < asked) : Enlarges d d' (.extend claimed source) asked
  | add {u : Update σ α} (adds : u.adds = true) (beyond : d.capacity < d'.length) :
      Enlarges d d' u d'.length

variable {a : Allocator} {d d' : Deque α} {u : Update σ α} {xs : List α} {asked : Nat}

/-- The need exceeds the capacity, and is that of the reservation or of the elements. -/
theorem Enlarges.bounds (h : u.Enlarges d d' asked) :
    d.capacity < asked ∧ asked ≤ max (u.reserves d) d'.length := by
  cases h with
  | ensureCapacity beyond => exact ⟨beyond, Nat.le_max_left ..⟩
  | extend need beyond => exact ⟨beyond, Nat.le_of_eq need⟩
  | add adds beyond => exact ⟨beyond, Nat.le_max_right ..⟩

theorem resized_of_adds (h : Sized a d'.length d d') (adds : u.adds = true) :
    Resized (u.trims = true) (fun b asked => b = a ∧ u.Enlarges d d' asked) d d' := by
  cases h with
  | same size => exact .kept size
  | grown beyond grown => exact .enlarged ⟨rfl, .add adds beyond⟩ grown

/-- One update: most keep the buffer, and each of the others has its reason to change it. -/
theorem resized (h : d.Holds xs) (u : Update σ α) :
    Resized (u.trims = true) (fun b asked => b = a ∧ u.Enlarges d (u.run a d) asked) d
      (u.run a d) := by
  cases u with
  | operation op =>
      cases op with
      | pushFront x =>
          apply resized_of_adds _ rfl
          rw [run, Operation.run, Deque.pushFront, Deque.snd_orFault]
          exact h.sized_pushFront
      | pushBack x =>
          apply resized_of_adds _ rfl
          rw [run, Operation.run, Deque.pushBack, Deque.snd_orFault]
          exact h.sized_pushBack
      | popFront => exact .kept (Deque.slotCount_popFront d)
      | popBack => exact .kept (Deque.slotCount_popBack d)
      | insert index x => exact resized_of_adds (h.sized_insert index) rfl
      | removeAt index => exact .kept (Deque.slotCount_removeAt index d)
      | set index x => exact .kept (Deque.slotCount_set index x d)
      | get index => exact .kept rfl
      | lookup index => exact .kept rfl
      | insertAll index source => exact resized_of_adds (h.sized_insertAll index source) rfl
      | addAll source =>
          apply resized_of_adds _ rfl
          rw [run, Operation.run, Deque.snd_addAll]
          exact h.sized_tryAddAll source
      | removeWhere predicate s => exact .kept (Deque.slotCount_removeWhere predicate d s)
      | retain predicate s => exact .kept (Deque.slotCount_removeWhere _ d s)
      | sortBy compare s => exact .kept (h.slotCount_sortBy compare s)
      | trimToSize => exact .trimmed rfl h.slotCount_tryTrimToSize
      | ensureCapacity capacity =>
          cases h.sized_ensureCapacity (a := a) capacity with
          | same size => exact .kept size
          | grown beyond grown => exact .enlarged ⟨rfl, .ensureCapacity beyond⟩ grown
      | replaceAll operator s => exact .kept (Deque.slotCount_replaceAll operator d s)
      | clear => exact .kept (Deque.slotCount_clear d)
  | tryPushFront x => exact resized_of_adds h.sized_pushFront rfl
  | tryPushBack x => exact resized_of_adds h.sized_pushBack rfl
  | removeFirst => exact .kept (Deque.slotCount_removeFirst d)
  | removeLast => exact .kept (Deque.slotCount_removeLast d)
  | replaceFront x => exact .kept (Deque.slotCount_replaceSlot _ x d)
  | replaceBack x => exact .kept (Deque.slotCount_replaceSlot _ x d)
  | replace index x => exact .kept (Deque.slotCount_replace? index x d)
  | replaceOrFault index x => exact .kept (Deque.slotCount_replaceOrFault index x d)
  | write p x => exact .kept (Deque.slotCount_replaceSlot p x d)
  | removeChosen choose => exact .kept (Deque.slotCount_removeChosen choose d)
  | removeFirstOccurrence eq x => exact .kept (Deque.slotCount_removeFirstOccurrence x d)
  | removeLastOccurrence eq x => exact .kept (Deque.slotCount_removeLastOccurrence x d)
  | removeAll eq values => exact .kept (Deque.slotCount_removeWhere _ d ())
  | retainAll eq values => exact .kept (Deque.slotCount_removeWhere _ d ())
  | tryAddAll source => exact resized_of_adds (h.sized_tryAddAll source) rfl
  | extend claimed source =>
      cases h.sized_extend (a := a) claimed source with
      | same size => exact .kept size
      | grown beyond grown => exact .enlarged ⟨rfl, .extend rfl beyond⟩ grown
  | sort order => exact .kept (h.slotCount_sortBy _ ())
  | tryTrimToSize => exact .trimmed rfl h.slotCount_tryTrimToSize

end Update

/-! ### Calls on cursors -/

theorem OneWayCursor.slotCount_call (c : OneWayCursor) (call : Call σ α) (d : Deque α) :
    (c.call call d).2.2.slotCount = d.slotCount := by
  cases call with
  | remove =>
      rw [OneWayCursor.call, OneWayCursor.remove_eq]
      cases c.last with
      | none => rfl
      | some p =>
          rw [← d.slotCount_delete p]
          dsimp only
          generalize d.delete p = outcome
          obtain ⟨_ | _, d'⟩ := outcome <;> rfl
  | _ => rfl

namespace TwoWayCursor

variable {a : Allocator} {c : TwoWayCursor} {d : Deque α} {x : α}

theorem slotCount_set (x : α) (c : TwoWayCursor) (d : Deque α) :
    (c.set x d).2.slotCount = d.slotCount := by
  rw [set]
  cases c.last with
  | none => rfl
  | some p =>
      rw [← d.slotCount_replaceSlot p x]
      dsimp only
      split
      · generalize d.replaceSlot p x = outcome
        obtain ⟨_ | _, d'⟩ := outcome <;> rfl
      · rw [Deque.slotCount_replaceSlot]

theorem slotCount_remove (c : TwoWayCursor) (d : Deque α) :
    (c.remove d).2.2.slotCount = d.slotCount := by
  rw [remove_eq]
  cases c.last with
  | none => rfl
  | some p =>
      rw [← d.slotCount_delete p]
      dsimp only
      split
      · generalize d.delete p = outcome
        obtain ⟨_ | _, d'⟩ := outcome <;> rfl
      · rw [Deque.slotCount_delete]

/-- An insertion in a gap counts the elements on both sides of it. -/
theorem Placed.sized_add (h : c.Placed α) (hd : d.WellFormed) :
    Sized a (c.add a x d).2.2.length d (c.add a x d).2.2 := by
  rw [add_eq]
  split
  · next agrees =>
      obtain ⟨g, e, on, rfl⟩ := h
      obtain ⟨here, same⟩ := on.on_of_agrees hd.holds agrees
      have position := congrArg TwoWayCursor.position same
      rw [Gap.position_cursorOn _ d] at position
      rw [position]
      have sized := hd.holds.sized_insertedAt (a := a) (x := x) here.place_le
      generalize d.insertAt a (d.position g.place) x = outcome at sized ⊢
      obtain ⟨_ | _, d'⟩ := outcome
      · exact sized
      · exact sized
  · exact .same rfl

end TwoWayCursor

/-! ### Actions -/

namespace Action

/-- Whether the action trims the deque with this number. -/
def Trims (i : Nat) : Action σ α → Prop
  | .update _ j u => j = i ∧ u.trims = true
  | _ => False

/-- Why an action that found deque `i` as `d` and left it as `d'` may have enlarged its buffer, with
which allocator and for how many elements. -/
inductive Enlarges (i : Nat) (d d' : Deque α) : Action σ α → Allocator → Nat → Prop where
  | update {a : Allocator} {u : Update σ α} {asked : Nat} (why : u.Enlarges d d' asked) :
      Enlarges i d d' (.update a i u) a asked
  | cursorAdd {a : Allocator} {j : Nat} {x : α} (beyond : d.capacity < d'.length) :
      Enlarges i d d' (.callTwoWay j i (.add a x)) a d'.length

/-- The action does not trim the deque with this number, and reserves no room for more than `n`
elements in it. -/
def Spares (i n : Nat) (w : World α) : Action σ α → Prop
  | .update _ j u => j = i → u.trims = false ∧ ∀ d ∈ w.deques[i]?, u.reserves d ≤ n
  | _ => True

instance (i n : Nat) (w : World α) : (action : Action σ α) → Decidable (action.Spares i n w)
  | .update _ j u =>
    inferInstanceAs (Decidable (j = i → u.trims = false ∧ ∀ d ∈ w.deques[i]?, u.reserves d ≤ n))
  | .make .. | .cloneDeque .. | .start .. | .cursorAt .. | .cloneOneWay .. | .cloneTwoWay ..
  | .callOneWay .. | .callTwoWay .. => .isTrue trivial

end Action

namespace World

variable {w w' : World α} {d d' : Deque α} {action : Action σ α} {i j n : Nat}

theorem getElem?_concat {β : Type u} {ys : List β} {y z : β} (h : ys[i]? = some y) :
    (ys ++ [z])[i]? = some y := by
  obtain ⟨inside, -⟩ := List.getElem?_eq_some_iff.1 h
  rwa [List.getElem?_append_left inside]

/-- Replacing deque `j` relates each deque to the one with its number, if the relation is
reflexive. -/
theorem related_set {e e' : Deque α} {R : Deque α → Deque α → Prop} (refl : R d d)
    (he : w.deques[j]? = some e) (hd : w.deques[i]? = some d) (h : j = i → R e e') :
    ∃ d', (w.deques.set j e')[i]? = some d' ∧ R d d' := by
  by_cases here : j = i
  · subst here
    obtain ⟨inside, -⟩ := List.getElem?_eq_some_iff.1 he
    obtain rfl : e = d := Option.some.inj (he.symm.trans hd)
    exact ⟨e', List.getElem?_set_self inside, h rfl⟩
  · exact ⟨d, (List.getElem?_set_ne here).trans hd, refl⟩

/-- One action: what it does to the number of slots of a deque. -/
theorem Orderly.resized (h : w.Orderly) (hw : w.step? action = some w')
    (hd : w.deques[i]? = some d) :
    ∃ d', w'.deques[i]? = some d' ∧ Resized (action.Trims i) (action.Enlarges i d d') d d' := by
  cases action with
  | make a origin =>
      obtain ⟨e, made, rfl⟩ := Option.map_eq_some_iff.1 hw
      exact ⟨d, getElem?_concat hd, .kept rfl⟩
  | update a j u =>
      obtain ⟨e, there, rfl⟩ := Option.map_eq_some_iff.1 hw
      apply related_set (.kept rfl) there hd
      rintro rfl
      obtain rfl : e = d := Option.some.inj (there.symm.trans hd)
      apply (u.resized (a := a) (h.deque there).holds).imp
      · intro trims
        exact ⟨rfl, trims⟩
      · rintro b asked ⟨rfl, why⟩
        exact .update why
  | cloneDeque j =>
      obtain ⟨e, there, rfl⟩ := Option.map_eq_some_iff.1 hw
      exact ⟨d, getElem?_concat hd, .kept rfl⟩
  | start j direction =>
      obtain ⟨e, there, rfl⟩ := Option.map_eq_some_iff.1 hw
      exact ⟨d, hd, .kept rfl⟩
  | cursorAt j index =>
      obtain ⟨e, there, rest⟩ := Option.bind_eq_some_iff.1 hw
      obtain ⟨c, made, rfl⟩ := Option.map_eq_some_iff.1 rest
      exact ⟨d, hd, .kept rfl⟩
  | cloneOneWay j =>
      obtain ⟨c, there, rfl⟩ := Option.map_eq_some_iff.1 hw
      exact ⟨d, hd, .kept rfl⟩
  | cloneTwoWay j =>
      obtain ⟨c, there, rfl⟩ := Option.map_eq_some_iff.1 hw
      exact ⟨d, hd, .kept rfl⟩
  | callOneWay k j call =>
      obtain ⟨c, -, rest⟩ := Option.bind_eq_some_iff.1 hw
      obtain ⟨e, there, rfl⟩ := Option.map_eq_some_iff.1 rest
      apply related_set (.kept rfl) there hd
      intro _
      exact .kept (c.slotCount_call call e)
  | callTwoWay k j call =>
      obtain ⟨c, placed, rest⟩ := Option.bind_eq_some_iff.1 hw
      obtain ⟨e, there, rfl⟩ := Option.map_eq_some_iff.1 rest
      apply related_set (.kept rfl) there hd
      rintro rfl
      obtain rfl : e = d := Option.some.inj (there.symm.trans hd)
      cases call with
      | set x => exact .kept (c.slotCount_set x e)
      | remove => exact .kept (c.slotCount_remove e)
      | add a x =>
          cases (h.cursor placed).sized_add (a := a) (x := x) (h.deque there) with
          | same size => exact .kept size
          | grown beyond grown => exact .enlarged (.cursorAdd beyond) grown
      | _ => exact .kept rfl

/-- The actions spare the deque with this number, and after each of them it has at most `n`
elements. -/
def Within (i n : Nat) : List (Action σ α) → World α → Prop
  | [], _ => True
  | action :: actions, w =>
    let w' := (w.step? action).getD w
    action.Spares i n w ∧ (∀ d ∈ w'.deques[i]?, d.length ≤ n) ∧ Within i n actions w'

instance decidableWithin (i n : Nat) : (actions : List (Action σ α)) → (w : World α) →
    Decidable (Within i n actions w)
  | [], _ => .isTrue trivial
  | action :: actions, w =>
    have := decidableWithin i n actions ((w.step? action).getD w)
    inferInstanceAs (Decidable (action.Spares i n w ∧
      (∀ d ∈ ((w.step? action).getD w).deques[i]?, d.length ≤ n) ∧
        Within i n actions ((w.step? action).getD w)))

/-- With room for `n` elements an action that keeps within them keeps the buffer. -/
theorem Orderly.slotCount_step (h : w.Orderly) (hd : w.deques[i]? = some d)
    (room : n ≤ d.capacity) (spares : action.Spares i n w)
    (few : ∀ d ∈ ((w.step? action).getD w).deques[i]?, d.length ≤ n) :
    ∃ d', ((w.step? action).getD w).deques[i]? = some d' ∧ d'.slotCount = d.slotCount := by
  cases hw : w.step? action with
  | none => exact ⟨d, hd, rfl⟩
  | some w' =>
      rw [hw] at few
      obtain ⟨d', there, resized⟩ := h.resized hw hd
      refine ⟨d', there, ?_⟩
      have short := few d' there
      cases resized with
      | kept size => exact size
      | trimmed why size =>
          cases action with
          | update a j u =>
              obtain ⟨here, trims⟩ := why
              have keeps := (spares here).1
              rw [keeps] at trims
              contradiction
          | _ => exact why.elim
      | enlarged why grown =>
          cases why with
          | update why =>
              obtain ⟨beyond, need⟩ := why.bounds
              have reserved := (spares rfl).2 d hd
              omega
          | cursorAdd beyond => omega

/-- However many such actions there are. -/
theorem Orderly.slotCount_run (h : w.Orderly) (hd : w.deques[i]? = some d) (room : n ≤ d.capacity)
    {actions : List (Action σ α)} (within : Within i n actions w) :
    ∃ d', (w.run actions).deques[i]? = some d' ∧ d'.slotCount = d.slotCount := by
  induction actions generalizing w d with
  | nil => exact ⟨d, hd, rfl⟩
  | cons action actions ih =>
      obtain ⟨spares, few, rest⟩ := within
      obtain ⟨d₁, there, size⟩ := h.slotCount_step hd room spares few
      have room₁ : n ≤ d₁.capacity := by rwa [Deque.capacity, size]
      obtain ⟨d', there', size'⟩ := ih (h.run [action]) there room₁ rest
      exact ⟨d', there', size'.trans size⟩

theorem Orderly.empty : (empty : World α).Orderly :=
  ⟨by simp [World.empty], by simp [World.empty]⟩

/-- A reservation that succeeds gives room for as many elements as it is for. -/
theorem capacity_of_ensured {a : Allocator} (h : d.WellFormed)
    (ensured : (d.ensureCapacity a n).1 = .ok ()) : n ≤ (d.ensureCapacity a n).2.capacity := by
  by_cases served : n < wordMax ∧ d.Room a n
  · obtain ⟨d', answer, -, reached⟩ := h.holds.ensureCapacity served.1 served.2
    rwa [answer]
  · obtain ⟨e, -, refused⟩ := Deque.ensureCapacity_of_not_room served
    rw [refused] at ensured
    contradiction

/-- In every world that can be reached, an action makes the buffer of a deque smaller only if it
trims the deque. It makes it larger only for more elements than the capacity: those for which it
reserves room, or those that it leaves in the deque. The larger buffer has room for all of them,
keeps to the bound on slots, and is larger by half at least or as large as the bound allows. So
after a reservation has succeeded, any actions that spare the deque and never leave more elements in
it than were reserved keep its buffer. -/
theorem run_capacity (history : List (Action σ α)) :
    let w := (empty : World α).run history
    (∀ (action : Action σ α) (w' : World α) (i : Nat) (d : Deque α),
      w.step? action = some w' → w.deques[i]? = some d →
        ∃ d', w'.deques[i]? = some d' ∧
          (d'.slotCount < d.slotCount → action.Trims i) ∧
          (d.slotCount < d'.slotCount → ∃ a asked, action.Enlarges i d d' a asked ∧
            d.capacity < asked ∧ Grown a d.slotCount (asked + 1) d'.slotCount)) ∧
    ∀ (i : Nat) (d : Deque α) (a : Allocator) (n : Nat) (actions : List (Action σ α)),
      w.deques[i]? = some d → (d.ensureCapacity a n).1 = .ok () →
        let w₁ := w.run [.update a i (.operation (.ensureCapacity n) : Update σ α)]
        Within i n actions w₁ →
          ∃ d₁ d₂, w₁.deques[i]? = some d₁ ∧ n ≤ d₁.capacity ∧
            (w₁.run actions).deques[i]? = some d₂ ∧ d₂.slotCount = d₁.slotCount := by
  intro w
  have orderly : w.Orderly := Orderly.empty.run history
  constructor
  · intro action w' i d hw hd
    obtain ⟨d', there, resized⟩ := orderly.resized hw hd
    refine ⟨d', there, ?_, ?_⟩
    · intro smaller
      cases resized with
      | kept size => omega
      | trimmed why size => exact why
      | enlarged why grown => exact absurd smaller (Nat.lt_asymm grown.larger)
    · intro larger
      cases resized with
      | kept size => omega
      | trimmed why size => omega
      | enlarged why grown =>
          refine ⟨_, _, why, ?_, grown⟩
          cases why with
          | update why => exact why.bounds.1
          | cursorAdd beyond => exact beyond
  · intro i d a n actions hd ensured w₁ within
    have there : w₁.deques[i]? = some (d.ensureCapacity a n).2 := by
      obtain ⟨inside, -⟩ := List.getElem?_eq_some_iff.1 hd
      change (((w.deques[i]?.map _).getD w : World α).deques)[i]? = _
      rw [hd]
      exact List.getElem?_set_self inside
    have room := capacity_of_ensured (orderly.deque hd) ensured
    obtain ⟨d₂, there₂, size⟩ := (orderly.run _).slotCount_run there room within
    exact ⟨_, d₂, there, room, there₂, size⟩

/-- Room for four is reserved in a deque of two, which enlarges the buffer. Then two more are added
and one is removed. -/
theorem run_capacity_reserved :
    let a := Allocator.bounded 8 100
    let history : List (Action Unit Nat) := [.make a (.ofList [1, 2])]
    let reserve : Action Unit Nat := .update a 0 (.operation (.ensureCapacity 4))
    let actions : List (Action Unit Nat) :=
      [.update a 0 (.tryPushFront 3), .update a 0 (.operation (.insert 1 4)),
        .update a 0 (.operation .popBack)]
    let w := (empty : World Nat).run history
    let d : Deque Nat := ⟨#[some 1, some 2, none], 0, 2⟩
    let w₁ := w.run [reserve]
    w.step? reserve = some w₁ ∧ w.deques[0]? = some d ∧ (d.ensureCapacity a 4).1 = .ok () ∧
      Within 0 4 actions w₁ ∧
      (∃ d', w₁.deques[0]? = some d' ∧ (d'.slotCount < d.slotCount → reserve.Trims 0) ∧
        (d.slotCount < d'.slotCount → ∃ a asked, reserve.Enlarges 0 d d' a asked ∧
          d.capacity < asked ∧ Grown a d.slotCount (asked + 1) d'.slotCount)) ∧
      ∃ d₁ d₂, w₁.deques[0]? = some d₁ ∧ 4 ≤ d₁.capacity ∧
        (w₁.run actions).deques[0]? = some d₂ ∧ d₂.slotCount = d₁.slotCount := by
  intro a history reserve actions w d w₁
  have step : w.step? reserve = some w₁ := rfl
  have there : w.deques[0]? = some d := rfl
  have ensured : (d.ensureCapacity a 4).1 = .ok () := rfl
  have within : Within 0 4 actions w₁ := by decide
  obtain ⟨steps, runs⟩ := run_capacity history
  exact ⟨step, there, ensured, within, steps reserve w₁ 0 d step there,
    runs 0 d a 4 actions there ensured within⟩

end World

end RingDeque

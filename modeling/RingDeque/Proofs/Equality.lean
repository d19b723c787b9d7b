import Mathlib.Data.List.Forall2
import RingDeque.Hash.Word
import RingDeque.Indexed
import RingDeque.Proofs.Layout

/-!
# Equality and hashing see the sequence alone

Two containers are equal if their lists of elements are equal one by one; a container with a gap is
equal to none. For a deque in order this is a matter of `toList`, so layout and capacity play no
part.

Hashing agrees with equality as far as the elements let it. `Faithful` is what a hash function can
expect of them: equal elements feed it the same writes, and the writes for one element are never the
beginning of those for another that is not equal to it. Deques inherit this from their elements. The
length that comes first tells how many elements follow, and then each feed ends where the next one
begins, because no other feed could go on there. So it holds at every depth of deques of deques,
which is what `Nested` spells out.
-/

namespace RingDeque

variable {α : Type u} {β : Type v}

/-! ### Equality -/

namespace Indexed

variable {c : Indexed α} {e : Indexed β} {eq : α → β → Bool}

/-- The elements at the indices below the length. -/
def toList (c : Indexed α) : List α :=
  (List.range c.length).filterMap c.get?

theorem Lawful.present (h : c.Lawful) : ∀ i < c.length, (c.get? i).isSome :=
  fun i => (h i).2

theorem lawful_ofList (xs : List α) : (ofList xs).Lawful := by
  intro i
  rw [get?_ofList, length_ofList]
  simp

theorem Lawful.length_toList (h : c.Lawful) : c.toList.length = c.length :=
  Deque.length_filterMap_range h.present

theorem Lawful.getElem?_toList (h : c.Lawful) (i : Nat) : c.toList[i]? = c.get? i := by
  rw [toList, Deque.getElem?_filterMap_range h.present]
  split
  · rfl
  · next beyond =>
      have free : ¬(c.get? i).isSome := fun occupied => beyond ((h i).1 occupied)
      exact (Option.not_isSome_iff_eq_none.1 free).symm

theorem elementsEqBy_iff :
    c.elementsEqBy eq e = true ↔ c.length = e.length ∧
      ∀ i < c.length, ∃ x y, c.get? i = some x ∧ e.get? i = some y ∧ eq x y = true := by
  rw [elementsEqBy, Bool.and_eq_true, beq_iff_eq, List.all_eq_true]
  apply and_congr_right
  intro _
  constructor
  · intro all i inside
    have answer := all i (List.mem_range.2 inside)
    split at answer
    · next x y hx hy => exact ⟨x, y, hx, hy, answer⟩
    · contradiction
  · intro all i hi
    obtain ⟨x, y, hx, hy, answer⟩ := all i (List.mem_range.1 hi)
    rw [hx, hy]
    exact answer

/-- Lawful containers are equal if their lists are. -/
theorem elementsEqBy_iff_forall₂ (hc : c.Lawful) (he : e.Lawful) :
    c.elementsEqBy eq e = true ↔ List.Forall₂ (fun x y => eq x y = true) c.toList e.toList := by
  have length := hc.length_toList
  have length' := he.length_toList
  rw [elementsEqBy_iff, List.forall₂_iff_get, ← length, ← length']
  apply and_congr_right
  intro same
  constructor
  · intro all i inside inside'
    obtain ⟨x, y, hx, hy, answer⟩ := all i inside
    rw [← hc.getElem?_toList, List.getElem?_eq_getElem inside] at hx
    rw [← he.getElem?_toList, List.getElem?_eq_getElem inside'] at hy
    cases hx
    cases hy
    exact answer
  · intro all i inside
    have inside' : i < e.toList.length := same ▸ inside
    refine ⟨_, _, ?_, ?_, all i inside inside'⟩
    · rw [← hc.getElem?_toList]
      exact List.getElem?_eq_getElem inside
    · rw [← he.getElem?_toList]
      exact List.getElem?_eq_getElem inside'

/-- A gap below the length is equal to nothing. -/
theorem elementsEqBy_of_gap {i : Nat} (inside : i < c.length)
    (gap : c.get? i = none ∨ e.get? i = none) : c.elementsEqBy eq e = false := by
  apply Bool.eq_false_iff.2
  intro equal
  obtain ⟨-, all⟩ := elementsEqBy_iff.1 equal
  obtain ⟨x, y, hx, hy, -⟩ := all i inside
  cases gap with
  | inl gap =>
      rw [gap] at hx
      contradiction
  | inr gap =>
      rw [gap] at hy
      contradiction

end Indexed

namespace Deque

variable {d e : Deque α} {eq : α → β → Bool}

theorem WellFormed.lawful (h : d.WellFormed) : d.indexed.Lawful := by
  intro i
  change (d.get? i).isSome ↔ i < d.length
  rw [h.holds.get?_eq, h.holds.length_eq]
  simp

theorem WellFormed.toList_indexed (h : d.WellFormed) : d.indexed.toList = d.toList := by
  apply List.ext_getElem?
  intro i
  rw [h.lawful.getElem?_toList]
  exact h.holds.get?_eq i

theorem WellFormed.beq_iff [BEq α] (h : d.WellFormed) (h' : e.WellFormed) :
    (d == e) = true ↔ List.Forall₂ (fun x y => (x == y) = true) d.toList e.toList := by
  rw [← h.toList_indexed, ← h'.toList_indexed]
  exact Indexed.elementsEqBy_iff_forall₂ h.lawful h'.lawful

end Deque

/-! ### Hashing -/

/-- What a hash function expects of the values that are `good`: they feed it the same exactly if
they are equal, and no feed is the beginning of another. -/
structure Faithful [BEq α] [Feed α] (Good : α → Prop) : Prop where
  feed_eq_iff {x y : α} : Good x → Good y → (feed x = feed y ↔ (x == y) = true)
  feed_eq_of_prefix {x y : α} : Good x → Good y → feed x <+: feed y → feed x = feed y

namespace Faithful

variable [BEq α] [Feed α] {Good : α → Prop} {xs ys : List α}

/-- Lists of equal elements feed the same. -/
theorem flatMap_eq (h : Faithful Good) (hx : ∀ x ∈ xs, Good x) (hy : ∀ y ∈ ys, Good y)
    (equal : List.Forall₂ (fun x y => (x == y) = true) xs ys) :
    xs.flatMap feed = ys.flatMap feed := by
  induction equal with
  | nil => rfl
  | cons first rest ih =>
      rw [List.forall_mem_cons] at hx hy
      rw [List.flatMap_cons, List.flatMap_cons, (h.feed_eq_iff hx.1 hy.1).2 first, ih hx.2 hy.2]

/-- Where two feeds begin the same writes, each is the beginning of these, so one is the beginning
of the other. -/
theorem of_append_prefix (h : Faithful Good) {x y : α} {rest rest' : List Write} (hx : Good x)
    (hy : Good y) (begins : feed x ++ rest <+: feed y ++ rest') :
    feed x = feed y ∧ rest <+: rest' := by
  have same : feed x = feed y := by
    have left : feed x <+: feed y ++ rest' := (List.prefix_append ..).trans begins
    have right : feed y <+: feed y ++ rest' := List.prefix_append ..
    cases List.prefix_or_prefix_of_prefix left right with
    | inl shorter => exact h.feed_eq_of_prefix hx hy shorter
    | inr longer => exact (h.feed_eq_of_prefix hy hx longer).symm
  rw [same, List.prefix_append_right_inj] at begins
  exact ⟨same, begins⟩

/-- As many elements with one feed the beginning of the other are equal one by one. -/
theorem forall₂_of_prefix (h : Faithful Good) (hx : ∀ x ∈ xs, Good x) (hy : ∀ y ∈ ys, Good y)
    (length : xs.length = ys.length) (begins : xs.flatMap feed <+: ys.flatMap feed) :
    List.Forall₂ (fun x y => (x == y) = true) xs ys := by
  induction xs generalizing ys with
  | nil =>
      obtain rfl := List.eq_nil_of_length_eq_zero length.symm
      exact .nil
  | cons x xs ih =>
      obtain ⟨y, ys, rfl⟩ := List.exists_cons_of_length_eq_add_one length.symm
      rw [List.forall_mem_cons] at hx hy
      rw [List.flatMap_cons, List.flatMap_cons] at begins
      obtain ⟨first, rest⟩ := h.of_append_prefix hx.1 hy.1 begins
      exact .cons ((h.feed_eq_iff hx.1 hy.1).1 first) (ih hx.2 hy.2 (Nat.succ.inj length) rest)

theorem forall₂_of_feed_prefix (h : Faithful Good) {d e : Deque α} (hd : d.WellFormed)
    (he : e.WellFormed) (good : ∀ x ∈ d.toList, Good x) (good' : ∀ x ∈ e.toList, Good x)
    (begins : feed d <+: feed e) :
    List.Forall₂ (fun x y => (x == y) = true) d.toList e.toList := by
  obtain ⟨length, begins⟩ := List.cons_prefix_cons.1 begins
  apply h.forall₂_of_prefix good good' _ begins
  rw [← hd.holds.length_eq, ← he.holds.length_eq]
  exact Write.length.inj length

theorem feed_eq_of_forall₂ (h : Faithful Good) {d e : Deque α} (hd : d.WellFormed)
    (he : e.WellFormed) (good : ∀ x ∈ d.toList, Good x) (good' : ∀ x ∈ e.toList, Good x)
    (equal : List.Forall₂ (fun x y => (x == y) = true) d.toList e.toList) : feed d = feed e := by
  change Write.length d.length :: _ = Write.length e.length :: _
  rw [hd.holds.length_eq, he.holds.length_eq, equal.length_eq, h.flatMap_eq good good' equal]

/-- Deques are as faithful as their elements. -/
theorem deque (h : Faithful Good) :
    Faithful fun d : Deque α => d.WellFormed ∧ ∀ x ∈ d.toList, Good x where
  feed_eq_iff := by
    rintro d e ⟨hd, good⟩ ⟨he, good'⟩
    rw [hd.beq_iff he]
    constructor
    · intro same
      exact h.forall₂_of_feed_prefix hd he good good' (same ▸ List.prefix_refl _)
    · exact h.feed_eq_of_forall₂ hd he good good'
  feed_eq_of_prefix := by
    rintro d e ⟨hd, good⟩ ⟨he, good'⟩ begins
    apply h.feed_eq_of_forall₂ hd he good good'
    exact h.forall₂_of_feed_prefix hd he good good' begins

/-- A hash function cannot tell equal elements apart, whichever it is. -/
theorem sequenceHash_eq (h : Faithful Good) (hasher : Hasher) {d e : Deque α}
    (good : ∀ x ∈ d.toList, Good x) (good' : ∀ x ∈ e.toList, Good x)
    (equal : List.Forall₂ (fun x y => (x == y) = true) d.toList e.toList) :
    d.sequenceHash hasher = e.sequenceHash hasher := by
  rw [Deque.sequenceHash, Deque.sequenceHash]
  generalize (1 : UInt64) = start
  generalize d.toList = xs at good equal
  generalize e.toList = ys at good' equal
  induction equal generalizing start with
  | nil => rfl
  | cons first rest ih =>
      rw [List.forall_mem_cons] at good good'
      rw [List.foldl_cons, List.foldl_cons, Hasher.hashOf, (h.feed_eq_iff good.1 good'.1).2 first]
      exact ih _ good.2 good'.2

end Faithful

/-! ### Elements -/

/-- Equal values feed the same number of writes, and different ones different writes. -/
theorem faithful_of_injective [BEq α] [LawfulBEq α] [Feed α] {count : Nat}
    (length : ∀ x : α, (feed x).length = count) (inj : ∀ x y : α, feed x = feed y → x = y) :
    Faithful fun _ : α => True where
  feed_eq_iff {x y} _ _ := by
    rw [beq_iff_eq]
    constructor
    · exact inj x y
    · exact congrArg feed
  feed_eq_of_prefix {x y} _ _ begins := by
    apply begins.eq_of_length
    rw [length, length]

theorem faithful_int64 : Faithful fun _ : Int64 => True := by
  apply faithful_of_injective fun _ => rfl
  rintro ⟨x⟩ ⟨y⟩ same
  exact congrArg Int64.ofUInt64 (Write.word.inj (List.cons.inj same).1)

/-! ### Deques of deques -/

/-- Deques of deques, so many deep, of values of type `α`. -/
def Nested (α : Type u) : Nat → Type u
  | 0 => α
  | depth + 1 => Deque (Nested α depth)

namespace Nested

variable {depth : Nat}

instance instBEq [BEq α] : (depth : Nat) → BEq (Nested α depth)
  | 0 => inferInstanceAs (BEq α)
  | depth + 1 =>
    have := instBEq depth
    inferInstanceAs (BEq (Deque (Nested α depth)))

instance instFeed [Feed α] : (depth : Nat) → Feed (Nested α depth)
  | 0 => inferInstanceAs (Feed α)
  | depth + 1 =>
    have := instFeed depth
    inferInstanceAs (Feed (Deque (Nested α depth)))

/-- Every deque in it is in order. -/
def InOrder : (depth : Nat) → Nested α depth → Prop
  | 0, _ => True
  | depth + 1, d => Deque.WellFormed d ∧ ∀ x ∈ Deque.toList d, InOrder depth x

theorem faithful [BEq α] [Feed α] (h : Faithful fun _ : α => True) (depth : Nat) :
    Faithful (InOrder (α := α) depth) := by
  induction depth with
  | zero => exact h
  | succ depth ih => exact ih.deque

/-- At every depth, for deques in order of whatever layouts and capacities, whose elements at the
bottom are faithful: deques are equal exactly if their elements are equal one by one, and exactly if
they feed a hash function the same writes; no feed is the beginning of another; and the sequence
hashes of equal deques are the same, whichever hash function reads the elements. A deque equals a
lawful container, whatever the equality of their elements, exactly if the elements are equal one by
one, and it does not equal a container with a gap. The container may stand on either side. -/
theorem equal_iff_feed_eq [BEq α] [Feed α] (h : Faithful fun _ : α => True) (depth : Nat)
    {d e : Deque (Nested α depth)} (hd : InOrder (depth + 1) d) (he : InOrder (depth + 1) e) :
    ((d == e) = true ↔ List.Forall₂ (fun x y => (x == y) = true) d.toList e.toList) ∧
    ((d == e) = true ↔ feed d = feed e) ∧
    (feed d <+: feed e → feed d = feed e) ∧
    ((d == e) = true → ∀ hasher : Hasher, d.sequenceHash hasher = e.sequenceHash hasher) ∧
    ∀ (β : Type v) (eq : Nested α depth → β → Bool) (eq' : β → Nested α depth → Bool)
      (c : Indexed β),
      (c.Lawful →
        (d.indexed.elementsEqBy eq c = true ↔
          List.Forall₂ (fun x y => eq x y = true) d.toList c.toList) ∧
        (c.elementsEqBy eq' d.indexed = true ↔
          List.Forall₂ (fun y x => eq' y x = true) c.toList d.toList)) ∧
      (c.length = d.length → (∃ i < c.length, c.get? i = none) →
        d.indexed.elementsEqBy eq c = false ∧ c.elementsEqBy eq' d.indexed = false) := by
  have elements := faithful h depth
  have deques := faithful h (depth + 1)
  have by_elements := hd.1.beq_iff he.1
  refine ⟨by_elements, (deques.feed_eq_iff hd he).symm, deques.feed_eq_of_prefix hd he, ?_, ?_⟩
  · intro equal hasher
    exact elements.sequenceHash_eq hasher hd.2 he.2 (by_elements.1 equal)
  · intro β eq eq' c
    constructor
    · intro lawful
      rw [← hd.1.toList_indexed]
      exact ⟨Indexed.elementsEqBy_iff_forall₂ hd.1.lawful lawful,
        Indexed.elementsEqBy_iff_forall₂ lawful hd.1.lawful⟩
    · rintro same ⟨i, inside, gap⟩
      constructor
      · exact Indexed.elementsEqBy_of_gap (show i < d.length from same ▸ inside) (.inr gap)
      · exact Indexed.elementsEqBy_of_gap inside (.inl gap)

/-- Two deques of the same deques, both with room to spare, one of them laid out around the end of
its buffer. -/
theorem equal_iff_feed_eq_wrapped :
    let one : Nested Int64 1 := Deque.mk #[some (1 : Int64), none] 0 1
    let one' : Nested Int64 1 := Deque.mk #[none, none, some (1 : Int64)] 2 0
    let two : Nested Int64 1 := Deque.mk #[some (2 : Int64), none] 0 1
    let d : Deque (Nested Int64 1) := ⟨#[some one, some two, none], 0, 2⟩
    let e : Deque (Nested Int64 1) := ⟨#[some two, none, none, some one'], 3, 1⟩
    let list : Indexed (Nested Int64 1) := .ofList [one, two]
    let gap : Indexed (Nested Int64 1) := .ofOptions [some one, none]
    Faithful (fun _ : Int64 => True) ∧ InOrder 2 d ∧ InOrder 2 e ∧
      ((d == e) = true ↔ feed d = feed e) ∧ d.sequenceHash .word = e.sequenceHash .word ∧
      (d.indexed.elementsEqBy (· == ·) list = true ↔
        List.Forall₂ (fun x y => (x == y) = true) d.toList list.toList) ∧
      d.indexed.elementsEqBy (· == ·) gap = false := by
  intro one one' two d e list gap
  have inner {x : Deque Int64} (ordered : x.isWellFormed = true) : InOrder 1 x :=
    ⟨Deque.isWellFormed_iff.1 ordered, fun _ _ => trivial⟩
  have hd : InOrder 2 d := by
    refine ⟨Deque.isWellFormed_iff.1 (by decide), ?_⟩
    change ∀ x ∈ [one, two], InOrder 1 x
    rw [List.forall_mem_cons, List.forall_mem_singleton]
    exact ⟨inner (by decide), inner (by decide)⟩
  have he : InOrder 2 e := by
    refine ⟨Deque.isWellFormed_iff.1 (by decide), ?_⟩
    change ∀ x ∈ [one', two], InOrder 1 x
    rw [List.forall_mem_cons, List.forall_mem_singleton]
    exact ⟨inner (by decide), inner (by decide)⟩
  obtain ⟨-, same, -, hashes, containers⟩ := equal_iff_feed_eq faithful_int64 1 hd he
  refine ⟨faithful_int64, hd, he, same, hashes (by decide) .word, ?_, ?_⟩
  · exact ((containers _ (· == ·) (· == ·) list).1 (Indexed.lawful_ofList _)).1
  · exact ((containers _ (· == ·) (· == ·) gap).2 rfl ⟨1, by decide, rfl⟩).1

/-- The lengths in front of the inner deques keep these two apart. -/
example :
    let deque (xs : List Int64) : Deque Int64 := ⟨(xs.map some).toArray.push none, 0, xs.length⟩
    let d : Deque (Deque Int64) := ⟨#[some (deque [1]), some (deque [2]), none], 0, 2⟩
    let e : Deque (Deque Int64) := ⟨#[some (deque [1, 2]), some (deque []), none], 0, 2⟩
    feed d ≠ feed e ∧ (d == e) = false := by
  decide

end Nested

end RingDeque

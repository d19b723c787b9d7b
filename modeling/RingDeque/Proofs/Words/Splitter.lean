import RingDeque.Proofs.Division
import RingDeque.Proofs.Words.Traversal

/-!
# Splitters on words

A splitter walks and divides inside the buffer: its place and the end of its run are slots, and half
a run is less than a round. All splitters that come from a fresh one are of this kind, so a whole
row of them can be asked in any order.
-/

namespace RingDeque

namespace Row

variable {ι : Type u} {ρ : Type v} {γ : Type w}

/-- `askAt` on words. -/
def askAtOnWords (ask : ι → Calculation (ρ × List ι)) :
    List ι → Nat → Calculation (Option ρ × List ι)
  | [], _ => .result (none, [])
  | x :: row, 0 => (ask x).bind fun (reply, instead) => .result (some reply, instead ++ row)
  | x :: row, i + 1 => (askAtOnWords ask row i).bind fun (reply, row) => .result (reply, x :: row)

/-- `askAll` on words. -/
def askAllOnWords (ask : γ → ι → Calculation (ρ × List ι)) :
    List (Nat × γ) → List ι → Calculation (List (Option ρ) × List ι)
  | [], row => .result ([], row)
  | (i, question) :: questions, row =>
    (askAtOnWords (ask question) row i).bind fun (reply, row) =>
    (askAllOnWords ask questions row).bind fun (replies, row) =>
    .result (reply :: replies, row)

variable {Inside : ι → Prop} {row : List ι}

theorem computes_askAt {onWords : ι → Calculation (ρ × List ι)} {ask : ι → ρ × List ι}
    (one : ∀ x, Inside x → (onWords x).Computes (ask x) ∧ ∀ y ∈ (ask x).2, Inside y)
    (h : ∀ x ∈ row, Inside x) (i : Nat) :
    (askAtOnWords onWords row i).Computes (askAt ask row i) ∧ ∀ y ∈ (askAt ask row i).2,
    Inside y := by
  induction row generalizing i with
  | nil => exact ⟨.result _, h⟩
  | cons x row ih =>
      rw [List.forall_mem_cons] at h
      cases i with
      | zero =>
          obtain ⟨asked, instead⟩ := one x h.1
          exact ⟨asked.bind (.result _), List.forall_mem_append.2 ⟨instead, h.2⟩⟩
      | succ i =>
          obtain ⟨asked, others⟩ := ih h.2 i
          exact ⟨asked.bind (.result _), List.forall_mem_cons.2 ⟨h.1, others⟩⟩

/-- A condition on the members that makes one question safe, and that holds of those who stand there
afterwards, makes any number of questions safe. -/
theorem computes_askAll {onWords : γ → ι → Calculation (ρ × List ι)} {ask : γ → ι → ρ × List ι}
    (one : ∀ question x, Inside x →
      (onWords question x).Computes (ask question x) ∧ ∀ y ∈ (ask question x).2, Inside y)
    (h : ∀ x ∈ row, Inside x) (questions : List (Nat × γ)) :
    (askAllOnWords onWords questions row).Computes (askAll ask questions row) := by
  induction questions generalizing row with
  | nil => exact .result _
  | cons question questions ih =>
      obtain ⟨asked, others⟩ := computes_askAt (one question.2) h question.1
      exact asked.bind ((ih others).bind (.result _))

end Row

namespace Splitter

open Traversal

variable {σ : Type u} {α : Type v} {sp : Splitter} {d : Deque α} {p : Nat}

/-- `call` on words. -/
def callOnWords (d : Deque α) : Call σ α → Splitter → Calculation (Reply σ α × List Splitter)
  | .trySplit, sp =>
    (sp.trySplitOnWords d).bind fun outcome =>
    .result <|
      match outcome with
      | (none, sp) => (.divided false, [sp])
      | (some first, second) => (.divided true, [first, second])
  | .tryAdvance action s, sp =>
    (sp.tryAdvanceOnWords action d s).bind fun ((result, sp), s) =>
    .result (.advanced result s, [sp])
  | .next, sp => (nextOnWords d sp).bind fun (x?, sp) => .result (.element x?, [sp])
  | .nth n, sp => (skipOnWords (nextOnWords d) n sp).bind fun (x?, sp) =>
    .result (.element x?, [sp])
  | .estimateSize, sp => (sp.estimateSizeOnWords d).bind fun (n, sp) => .result (.count n, [sp])
  | .size, sp => (sp.sizeOnWords d).bind fun n => .result (.count n, [sp])
  | .forEachRemaining action s, sp =>
    (sp.forEachRemainingOnWords action d s).bind fun ((result, sp), s) =>
    .result (.visited result s, [sp])

/-- The run of the splitter lies inside the buffer. -/
structure Inside (d : Deque α) (sp : Splitter) : Prop where
  position_lt : sp.position < d.slotCount
  fence_lt : ∀ fence, sp.fence = some fence → fence < d.slotCount

theorem Inside.bind (h : sp.Inside d) (hd : d.WellFormed) :
    (sp.bind d).1 < d.slotCount ∧ (sp.bind d).2.Inside d := by
  obtain ⟨_ | fence, position⟩ := sp
  · refine ⟨hd.tail_lt, hd.head_lt, ?_⟩
    rintro _ ⟨⟩
    exact hd.tail_lt
  · exact ⟨h.fence_lt fence rfl, h⟩

theorem Inside.moved (h : sp.Inside d) (hp : p < d.slotCount) :
    Inside d { sp with position := p } :=
  ⟨hp, h.fence_lt⟩

theorem inside_unbound (hd : d.WellFormed) : unbound.Inside d :=
  ⟨hd.holds.slotCount_pos, by rintro _ ⟨⟩⟩

theorem Inside.trySplit (h : sp.Inside d) (hd : d.WellFormed) (hm : d.slotCount < 2 ^ 63) :
    (sp.trySplitOnWords d).Computes (sp.trySplit d) ∧
      (∀ first, (sp.trySplit d).1 = some first → first.Inside d) ∧ (sp.trySplit d).2.Inside d := by
  obtain ⟨fence, bound⟩ := h.bind hd
  have length := Circle.steps_lt bound.position_lt fence
  have half : Circle.steps (sp.bind d).2.position (sp.bind d).1 d.slotCount / 2 ≤ d.slotCount := by
    omega
  have middle := Circle.forward_lt bound.position_lt half
  constructor
  · refine .of_inRange ?_ rfl
    unfold trySplitOnWords
    generalize sp.bind d = run at fence bound half ⊢
    refine .bind (Circle.computes_steps bound.position_lt fence hm) ?_
    dsimp only
    split
    · exact .result _
    · exact .bind (Circle.computes_forward bound.position_lt half hm) (.result _)
  · rw [Splitter.trySplit_eq]
    dsimp only
    split
    · exact ⟨by rintro _ ⟨⟩, bound⟩
    · refine ⟨?_, bound.moved middle⟩
      rintro _ ⟨⟩
      refine ⟨bound.position_lt, ?_⟩
      rintro _ ⟨⟩
      exact middle

theorem Inside.tryAdvance (h : sp.Inside d) (hd : d.WellFormed) (hm : d.slotCount < 2 ^ 63)
    (action : Callback σ α Unit) (s : σ) :
    (sp.tryAdvanceOnWords action d s).Computes (sp.tryAdvance action d s) ∧
      (sp.tryAdvance action d s).1.2.Inside d := by
  obtain ⟨-, bound⟩ := h.bind hd
  have next := bound.moved (Circle.next_lt bound.position_lt)
  constructor
  · refine .of_inRange ?_ rfl
    unfold tryAdvanceOnWords
    dsimp only
    split
    · exact .result _
    cases d.slot (sp.bind d).2.position with
    | none => exact .result _
    | some x => exact .bind (Circle.computes_next bound.position_lt hm) (.result _)
  · rw [Splitter.tryAdvance_eq]
    dsimp only
    split
    · exact bound
    cases d.slot (sp.bind d).2.position with
    | none => exact bound
    | some x =>
        dsimp only
        split
        · exact next
        · exact next

theorem computes_visit (hm : d.slotCount < 2 ^ 63) (hp : p < d.slotCount) (count : Nat)
    (action : Callback σ α Unit) (s : σ) :
    (visitOnWords action d count p s).Computes (visit action d count p s) := by
  refine .of_inRange ?_ rfl
  induction count generalizing p s with
  | zero => exact .result _
  | succ count ih =>
      have next := Circle.next_lt hp
      unfold visitOnWords
      cases d.slot p with
      | none => exact .bind (Circle.computes_next hp hm) (ih next s)
      | some x =>
          dsimp only
          rcases action x s with ⟨fault | ⟨⟩, s'⟩
          · exact .result _
          · exact .bind (Circle.computes_next hp hm) (ih next s')

theorem Inside.forEachRemaining (h : sp.Inside d) (hd : d.WellFormed) (hm : d.slotCount < 2 ^ 63)
    (action : Callback σ α Unit) (s : σ) :
    (sp.forEachRemainingOnWords action d s).Computes (sp.forEachRemaining action d s) ∧
      (sp.forEachRemaining action d s).1.2.Inside d := by
  obtain ⟨fence, bound⟩ := h.bind hd
  have done := bound.moved fence
  constructor
  · refine .of_inRange ?_ rfl
    unfold forEachRemainingOnWords
    dsimp only
    split
    · exact .result _
    split
    · exact .result _
    refine .bind (Circle.computes_prev fence hm) ?_
    split
    · exact .result _
    · exact .bind (computes_visit hm bound.position_lt _ action s) (.result _)
  · rw [Splitter.forEachRemaining_eq]
    dsimp only
    split
    · exact bound
    split
    · exact done
    split
    · exact done
    split
    · exact done
    · exact done

theorem Inside.computes_estimateSize (h : sp.Inside d) (hd : d.WellFormed)
    (hm : d.slotCount < 2 ^ 63) :
    (sp.estimateSizeOnWords d).Computes (sp.estimateSize d) := by
  obtain ⟨fence, bound⟩ := h.bind hd
  exact .of_inRange (.bind (Circle.computes_steps bound.position_lt fence hm) (.result _)) rfl

theorem Inside.computes_size (h : sp.Inside d) (hd : d.WellFormed) (hm : d.slotCount < 2 ^ 63) :
    (sp.sizeOnWords d).Computes (sp.size d) := by
  obtain ⟨_ | fence, position⟩ := sp
  · exact hd.computes_length hm
  · exact Circle.computes_steps h.position_lt (h.fence_lt fence rfl) hm

theorem steps_next (hd : d.WellFormed) (hm : d.slotCount < 2 ^ 63) :
    StepsOnWords (Inside d) (nextOnWords d) fun sp => sp.next d where
  computes sp h := by
    obtain ⟨-, bound⟩ := h.bind hd
    refine .of_inRange ?_ rfl
    unfold nextOnWords
    dsimp only
    split
    · exact .result _
    · exact .bind (Circle.computes_next bound.position_lt hm) (.result _)
  inside sp h := by
    obtain ⟨-, bound⟩ := h.bind hd
    rw [next_eq]
    dsimp only
    split
    · exact bound
    · exact bound.moved (Circle.next_lt bound.position_lt)

/-- One call: it stays within the words, and so do the splitters that stand in the place of this
one. -/
theorem Inside.call (h : sp.Inside d) (hd : d.WellFormed) (hm : d.slotCount < 2 ^ 63)
    (call : Call σ α) :
    (sp.callOnWords d call).Computes (sp.call d call) ∧ ∀ sp' ∈ (sp.call d call).2,
    sp'.Inside d := by
  obtain ⟨-, bound⟩ := h.bind hd
  have alone {sp' : Splitter} (inside : sp'.Inside d) : ∀ sp'' ∈ [sp'], sp''.Inside d :=
    List.forall_mem_singleton.2 inside
  cases call with
  | trySplit =>
      obtain ⟨computes, first, second⟩ := h.trySplit hd hm
      refine ⟨computes.bind (.result _), ?_⟩
      rw [Splitter.call]
      rcases answer : sp.trySplit d with ⟨_ | front, back⟩
      · rw [answer] at second
        exact alone second
      · rw [answer] at first second
        exact List.forall_mem_cons.2 ⟨first front rfl, alone second⟩
  | tryAdvance action s =>
      obtain ⟨computes, inside⟩ := h.tryAdvance hd hm action s
      exact ⟨computes.bind (.result _), alone inside⟩
  | next =>
    exact ⟨((steps_next hd hm).computes sp h).bind (.result _),
      alone ((steps_next hd hm).inside sp h)⟩
  | nth n =>
      have steps := (steps_next hd hm).skip n
      exact ⟨(steps.computes sp h).bind (.result _), alone (steps.inside sp h)⟩
  | estimateSize =>
      refine ⟨(h.computes_estimateSize hd hm).bind (.result _), ?_⟩
      rw [Splitter.call, estimateSize_eq]
      exact alone bound
  | size => exact ⟨(h.computes_size hd hm).bind (.result _), alone h⟩
  | forEachRemaining action s =>
      obtain ⟨computes, inside⟩ := h.forEachRemaining hd hm action s
      exact ⟨computes.bind (.result _), alone inside⟩

/-- Whatever is called on the splitters that came from one, in whatever order. -/
theorem Inside.computes_row (hd : d.WellFormed) (hm : d.slotCount < 2 ^ 63)
    (calls : List (Nat × Call σ α)) :
    (Row.askAllOnWords (callOnWords d) calls [d.splitter]).Computes
      (Row.askAll (Splitter.call d) calls [d.splitter]) :=
  Row.computes_askAll (fun call _ h => Inside.call h hd hm call)
    (List.forall_mem_singleton.2 (inside_unbound hd)) calls

end Splitter

end RingDeque

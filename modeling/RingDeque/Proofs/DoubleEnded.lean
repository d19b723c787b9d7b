import RingDeque.Traversal.Basic

/-!
# What a double-ended traversal yields

`answer` is the traversal of a list: it yields the first value or the last one, and counts those in
between. `Mirrors` says that a kind of traversal does the same, step by step: there is a relation
between a traversal and the list of the values that are left, and every step returns what the list
has and leaves what the list leaves. From this follow the replies to any conversation. The steps
from the back mirror those from the front of the reversed list, so most facts are proved once for a
step in one direction.
-/

namespace RingDeque.Traversal

variable {ι : Type u} {β : Type v} {γ : Type w}

/-- The reply to a request when these values are left, and the values that are left then. -/
def answer (xs : List β) : Request → Reply β × List β
  | .next => (.value xs.head?, xs.tail)
  | .back => (.value xs.getLast?, xs.dropLast)
  | .nth n => (.value xs[n]?, xs.drop (n + 1))
  | .nthBack n => (.value xs.reverse[n]?, xs.take (xs.length - (n + 1)))
  | .size => (.count xs.length, xs)
  | .rest => (.values xs, xs)
  | .drain => (.values xs, [])
  | .drainBack => (.values xs.reverse, [])

/-- The replies to a sequence of requests when these values are left at the beginning. -/
def answers : List β → List Request → List (Reply β)
  | _, [] => []
  | xs, request :: requests => (answer xs request).1 :: answers (answer xs request).2 requests

/-- The values that are left after a sequence of requests. -/
def leftAfter : List β → List Request → List β
  | xs, [] => xs
  | xs, request :: requests => leftAfter (answer xs request).2 requests

/-- The reply when nothing is left. -/
def blank : Request → Reply β
  | .size => .count 0
  | .next | .back | .nth _ | .nthBack _ => .value none
  | .rest | .drain | .drainBack => .values []

/-- A reply with `f` applied to its values. -/
def Reply.map (f : β → γ) : Reply β → Reply γ
  | .value x => .value (x.map f)
  | .count n => .count n
  | .values xs => .values (xs.map f)

/-- The values in a reply. -/
def Reply.yielded : Reply β → List β
  | .value x => x.toList
  | .count _ => []
  | .values xs => xs

/-- Once a request has found nothing, no later one finds anything. -/
def StaysExhausted [Traversal ι β] (it : ι) : Prop :=
  ∀ before request after, (serveAll it (before ++ [request])).getLast? = some (.value none) →
    serveAll it (before ++ request :: after) = serveAll it (before ++ [request]) ++ after.map blank

theorem Reply.yielded_map (f : β → γ) (reply : Reply β) :
    (reply.map f).yielded = reply.yielded.map f := by
  cases reply with
  | value x => cases x <;> rfl
  | count n => rfl
  | values xs => rfl

/-! ### The traversal of a list -/

theorem answers_append (xs : List β) (before after : List Request) :
    answers xs (before ++ after) = answers xs before ++ answers (leftAfter xs before) after := by
  induction before generalizing xs with
  | nil => rfl
  | cons request before ih => exact congrArg _ (ih _)

/-- What the values are does not matter. -/
theorem answer_map (f : β → γ) (xs : List β) (request : Request) :
    answer (xs.map f) request =
      ((answer xs request).1.map f, (answer xs request).2.map f) := by
  cases request with
  | nthBack n => simp [answer, Reply.map, ← List.map_reverse]
  | _ => simp [answer, Reply.map]

theorem answers_map (f : β → γ) (xs : List β) (requests : List Request) :
    answers (xs.map f) requests = (answers xs requests).map (Reply.map f) := by
  induction requests generalizing xs with
  | nil => rfl
  | cons request requests ih => rw [answers, answer_map, ih, answers, List.map_cons]

theorem answers_nil (requests : List Request) :
    answers ([] : List β) requests = requests.map blank := by
  induction requests with
  | nil => rfl
  | cons request requests ih =>
      have first : answer ([] : List β) request = (blank request, []) := by
        cases request <;> simp [answer, blank]
      rw [answers, first, ih, List.map_cons]

/-- No value comes only when none is left behind it. -/
theorem left_of_none {xs : List β} {request : Request}
    (h : (answer xs request).1 = .value none) : (answer xs request).2 = [] := by
  cases request with
  | next =>
      obtain rfl : xs = [] := by simpa [answer] using h
      rfl
  | back =>
      obtain rfl : xs = [] := by simpa [answer] using h
      rfl
  | nth n =>
      have beyond : xs.length ≤ n := by simpa [answer] using h
      exact List.drop_of_length_le (Nat.le_succ_of_le beyond)
  | nthBack n =>
      have beyond : xs.length ≤ n := by simpa [answer] using h
      rw [answer, Nat.sub_eq_zero_of_le (Nat.le_succ_of_le beyond), List.take_zero]
  | size => cases h
  | rest => cases h
  | drain => rfl
  | drainBack => rfl

/-- A conversation that has come to the end stays there. -/
theorem answers_of_none {xs : List β} {before : List Request} {request : Request}
    (h : (answers xs (before ++ [request])).getLast? = some (.value none)) (after : List Request) :
    answers xs (before ++ request :: after) =
      answers xs (before ++ [request]) ++ after.map blank := by
  have ended : (answer (leftAfter xs before) request).1 = .value none := by
    simpa [answers_append, answers] using h
  rw [answers_append, answers_append, answers, left_of_none ended, answers_nil, answers, answers,
    List.append_assoc, List.singleton_append]

/-- The values that are yielded are some of those that were left, and so are those that are left
then. -/
theorem mem_of_answer {xs : List β} {request : Request} {x : β} :
    (x ∈ (answer xs request).1.yielded → x ∈ xs) ∧ (x ∈ (answer xs request).2 → x ∈ xs) := by
  cases request with
  | next =>
      refine ⟨fun mem => ?_, List.mem_of_mem_tail⟩
      exact List.mem_of_mem_head? (Option.mem_toList.1 mem)
  | back =>
      refine ⟨fun mem => ?_, fun mem => (List.dropLast_sublist xs).subset mem⟩
      exact List.mem_of_mem_getLast? (Option.mem_toList.1 mem)
  | nth n =>
      refine ⟨fun mem => ?_, List.mem_of_mem_drop⟩
      exact List.mem_of_getElem? (Option.mem_toList.1 mem)
  | nthBack n =>
      refine ⟨fun mem => ?_, List.mem_of_mem_take⟩
      exact List.mem_reverse.1 (List.mem_of_getElem? (Option.mem_toList.1 mem))
  | size => exact ⟨nofun, id⟩
  | rest => exact ⟨id, id⟩
  | drain => exact ⟨id, nofun⟩
  | drainBack => exact ⟨List.mem_reverse.1, nofun⟩

/-! ### One direction -/

/-- A step yields the first of the values that are left. -/
def StepsThrough (step : ι → Option β × ι) (Left : ι → List β → Prop) : Prop :=
  ∀ it xs, Left it xs → ∃ it', step it = (xs.head?, it') ∧ Left it' xs.tail

variable {step : ι → Option β × ι} {Left : ι → List β → Prop} {it : ι} {xs : List β}

theorem StepsThrough.skip (steps : StepsThrough step Left) (h : Left it xs) (n : Nat) :
    ∃ it', skip step n it = (xs[n]?, it') ∧ Left it' (xs.drop (n + 1)) := by
  induction n generalizing it xs with
  | zero =>
      obtain ⟨it', first, rest⟩ := steps it xs h
      rw [Traversal.skip, first, List.head?_eq_getElem?, List.drop_one]
      exact ⟨it', rfl, rest⟩
  | succ n ih =>
      obtain ⟨it', first, rest⟩ := steps it xs h
      rw [Traversal.skip, first]
      cases xs with
      | nil => exact ⟨it', rfl, rest⟩
      | cons x xs => exact ih rest

theorem StepsThrough.collect (steps : StepsThrough step Left) (h : Left it xs) :
    ∃ it', collect step (xs.length + 1) it = (xs, it') ∧ Left it' [] := by
  induction xs generalizing it with
  | nil =>
      obtain ⟨it', first, rest⟩ := steps it [] h
      rw [collect_succ, first]
      exact ⟨it', rfl, rest⟩
  | cons x xs ih =>
      obtain ⟨it', first, rest⟩ := steps it (x :: xs) h
      obtain ⟨it'', others, none_left⟩ := ih rest
      rw [List.length_cons, collect_succ, first]
      dsimp only [List.head?_cons]
      rw [others]
      exact ⟨it'', rfl, none_left⟩

/-! ### Both directions -/

/-- A traversal that stands in the relation `Left` to a list answers as that list does, and what it
leaves stands in that relation to what the list leaves. -/
structure Mirrors [Traversal ι β] (Left : ι → List β → Prop) : Prop where
  remaining_eq : ∀ it xs, Left it xs → remaining it = xs.length
  next : ∀ it xs, Left it xs → ∃ it', next it = (xs.head?, it') ∧ Left it' xs.tail
  nextBack : ∀ it xs, Left it xs → ∃ it', nextBack it = (xs.getLast?, it') ∧ Left it' xs.dropLast
  nth : ∀ n it xs, Left it xs → ∃ it', nth n it = (xs[n]?, it') ∧ Left it' (xs.drop (n + 1))
  nthBack : ∀ n it xs, Left it xs →
    ∃ it', nthBack n it = (xs.reverse[n]?, it') ∧ Left it' (xs.take (xs.length - (n + 1)))

/-- Steps that yield the last value are steps through the reversed list. -/
theorem stepsThrough_reverse
    (h : ∀ it xs, Left it xs → ∃ it', step it = (xs.getLast?, it') ∧ Left it' xs.dropLast) :
    StepsThrough step fun it xs => Left it xs.reverse := by
  intro it xs left
  obtain ⟨it', last, rest⟩ := h it xs.reverse left
  rw [List.getLast?_reverse] at last
  rw [List.dropLast_reverse] at rest
  exact ⟨it', last, rest⟩

theorem skip_back
    (h : ∀ it xs, Left it xs → ∃ it', step it = (xs.getLast?, it') ∧ Left it' xs.dropLast)
    (left : Left it xs) (n : Nat) :
    ∃ it', skip step n it = (xs.reverse[n]?, it') ∧ Left it' (xs.take (xs.length - (n + 1))) := by
  rw [← List.reverse_reverse xs] at left
  obtain ⟨it', last, rest⟩ := (stepsThrough_reverse h).skip left n
  rw [List.drop_reverse, List.reverse_reverse] at rest
  exact ⟨it', last, rest⟩

namespace Mirrors

variable [Traversal ι β]

/-- A traversal without random access mirrors a list if it does so in single steps. -/
theorem of_steps (remaining_eq : ∀ it xs, Left it xs → remaining it = xs.length)
    (front : ∀ it xs, Left it xs → ∃ it', Traversal.next it = (xs.head?, it') ∧ Left it' xs.tail)
    (back : ∀ it xs, Left it xs →
      ∃ it', Traversal.nextBack it = (xs.getLast?, it') ∧ Left it' xs.dropLast)
    (nth_eq : ∀ n (it : ι), Traversal.nth n it = skip Traversal.next n it)
    (nthBack_eq : ∀ n (it : ι), Traversal.nthBack n it = skip Traversal.nextBack n it) :
    Mirrors Left where
  remaining_eq := remaining_eq
  next := front
  nextBack := back
  nth n it xs h := by
    rw [nth_eq]
    exact StepsThrough.skip front h n
  nthBack n it xs h := by
    rw [nthBack_eq]
    exact skip_back back h n

theorem drain (m : Mirrors Left) (h : Left it xs) :
    ∃ it', drain it = (xs, it') ∧ Left it' [] := by
  rw [Traversal.drain, m.remaining_eq it xs h]
  exact StepsThrough.collect m.next h

theorem drainBack (m : Mirrors Left) (h : Left it xs) :
    ∃ it', drainBack it = (xs.reverse, it') ∧ Left it' [] := by
  rw [Traversal.drainBack, m.remaining_eq it xs h, ← List.length_reverse]
  rw [← List.reverse_reverse xs] at h
  exact (stepsThrough_reverse m.nextBack).collect h

/-- One request. -/
theorem serve (m : Mirrors Left) (h : Left it xs) (request : Request) :
    ∃ it', serve it request = ((answer xs request).1, it') ∧ Left it' (answer xs request).2 := by
  cases request with
  | next =>
      obtain ⟨it', same, left⟩ := m.next it xs h
      exact ⟨it', by rw [Traversal.serve, same]; rfl, left⟩
  | back =>
      obtain ⟨it', same, left⟩ := m.nextBack it xs h
      exact ⟨it', by rw [Traversal.serve, same]; rfl, left⟩
  | nth n =>
      obtain ⟨it', same, left⟩ := m.nth n it xs h
      exact ⟨it', by rw [Traversal.serve, same]; rfl, left⟩
  | nthBack n =>
      obtain ⟨it', same, left⟩ := m.nthBack n it xs h
      exact ⟨it', by rw [Traversal.serve, same]; rfl, left⟩
  | size => exact ⟨it, by rw [Traversal.serve, m.remaining_eq it xs h]; rfl, h⟩
  | rest =>
      obtain ⟨it', same, -⟩ := m.drain h
      exact ⟨it, by rw [Traversal.serve, toList, same]; rfl, h⟩
  | drain =>
      obtain ⟨it', same, left⟩ := m.drain h
      exact ⟨it', by rw [Traversal.serve, same]; rfl, left⟩
  | drainBack =>
      obtain ⟨it', same, left⟩ := m.drainBack h
      exact ⟨it', by rw [Traversal.serve, same]; rfl, left⟩

/-- A whole conversation. -/
theorem serveAll (m : Mirrors Left) (h : Left it xs) (requests : List Request) :
    serveAll it requests = answers xs requests := by
  induction requests generalizing it xs with
  | nil => rfl
  | cons request requests ih =>
      obtain ⟨it', same, left⟩ := m.serve h request
      rw [Traversal.serveAll, same, answers, ← ih left]

theorem staysExhausted (m : Mirrors Left) (h : Left it xs) : StaysExhausted it := by
  intro before request after
  rw [m.serveAll h, m.serveAll h]
  exact fun none_left => answers_of_none none_left after

theorem toList (m : Mirrors Left) (h : Left it xs) : toList it = xs := by
  obtain ⟨it', same, -⟩ := m.drain h
  rw [Traversal.toList, same]

/-- Seen from the other end, a traversal mirrors the reversed list. -/
theorem reversed (m : Mirrors Left) :
    Mirrors fun (it : Reversed ι) xs => Left it.forward xs.reverse where
  remaining_eq it xs h := (m.remaining_eq it.forward _ h).trans List.length_reverse
  next it xs h := by
    obtain ⟨rest, same, left⟩ := m.nextBack it.forward xs.reverse h
    rw [List.getLast?_reverse] at same
    rw [List.dropLast_reverse] at left
    exact ⟨⟨rest⟩, congrArg (fun step => (step.1, Reversed.mk step.2)) same, left⟩
  nextBack it xs h := by
    obtain ⟨rest, same, left⟩ := m.next it.forward xs.reverse h
    rw [List.head?_reverse] at same
    rw [List.tail_reverse] at left
    exact ⟨⟨rest⟩, congrArg (fun step => (step.1, Reversed.mk step.2)) same, left⟩
  nth n it xs h := by
    obtain ⟨rest, same, left⟩ := m.nthBack n it.forward xs.reverse h
    rw [List.reverse_reverse] at same
    rw [List.length_reverse, ← List.reverse_drop] at left
    exact ⟨⟨rest⟩, congrArg (fun step => (step.1, Reversed.mk step.2)) same, left⟩
  nthBack n it xs h := by
    obtain ⟨rest, same, left⟩ := m.nth n it.forward xs.reverse h
    rw [List.drop_reverse] at left
    exact ⟨⟨rest⟩, congrArg (fun step => (step.1, Reversed.mk step.2)) same, left⟩

end Mirrors

end RingDeque.Traversal

import RingDeque.Proofs.Callbacks
import RingDeque.Shared.Program

/-!
# What a program comes to

Three readings of the same program, none of which knows of locks, of counted uses or of sections.
They differ in what the program has of the deque.

`alone`: nobody else uses the deque. Each operation is the operation of the same name on a deque,
with callbacks that are read `inside` it, and the deque goes from one operation to the next.

`inside`: the program is called back by an operation. The type says that it cannot change the deque,
since it is not given one to change. If that operation reads, the program sees the deque on which
the operation works; a removal gets as far as its plan, and is refused if there is something to
remove. If that operation writes, the program sees nothing.

`lent`: the program was given the deque for the time of a locked section. It changes the deque
directly, and every operation on it is refused.

`Plain` are the programs of one thread that perform no operation while they have a reference to the
deque which they borrowed from a section.
-/

namespace RingDeque.Program

variable {α σ β γ τ : Type}

/-! ### Access -/

/-- What a program has of the deque between two steps. -/
inductive Access where
  /-- Its operations. -/
  | operations
  /-- The deque itself, for the time of a locked section. -/
  | lent
  /-- A reference to read through, and so many others. -/
  | reading (others : Nat)
  /-- A reference to change the deque through. -/
  | writing
  deriving DecidableEq

namespace Access

/-- No reference is borrowed that would have to be given back. -/
def Settled (access : Access) : Prop :=
  access = .operations ∨ access = .lent

/-- A reference to read through is borrowed. -/
def borrow : Access → Access
  | .reading others => .reading (others + 1)
  | _ => .reading 0

/-- A reference to read through is given back. -/
def giveBack : Access → Access
  | .reading (others + 1) => .reading others
  | _ => .operations

end Access

/-! ### Activities in a state -/

/-- Go on with the answer, in the state that is left. -/
def after (first : τ → Except Fault γ × τ) (next : γ → τ → Except Fault β × τ) :
    τ → Except Fault β × τ := fun s =>
  match first s with
  | (.ok answer, s) => next answer s
  | (.error fault, s) => (.error fault, s)

/-- An operation that is refused because the deque is in use. -/
def refused : τ → Except Fault (Except Error γ) × τ := fun s =>
  (.ok (.error .concurrentModification), s)

/-- A section that is entered. -/
def granted (body : τ → Except Fault γ × τ) : τ → Except Fault (Except Error γ) × τ := fun s =>
  let (outcome, s) := body s
  (outcome.map .ok, s)

/-- An attempt, which is made whatever comes of it. -/
def attempted (body : τ → Except Fault γ × τ) : τ → Except Fault (Except Fault γ) × τ := fun s =>
  let (outcome, s) := body s
  (.ok outcome, s)

/-- An operation that reads the deque, if it can be seen. -/
def viewing (view : Option (Deque α)) (body : Deque α → σ → Except Fault γ × σ) :
    σ → Except Fault (Except Error γ) × σ :=
  match view with
  | some d => granted (body d)
  | none => refused

/-- An operation that works on the deque. -/
def updating (body : Deque α → σ → (Except Fault γ × Deque α) × σ) :
    Deque α × σ → Except Fault (Except Error γ) × (Deque α × σ) := fun (d, m) =>
  let ((outcome, d), m) := body d m
  (outcome.map .ok, (d, m))

/-- An operation that may be refused for another reason. -/
def trying (f : Deque α → Except Error γ × Deque α) :
    Deque α × σ → Except Fault (Except Error γ) × (Deque α × σ) := fun (d, m) =>
  let (answer, d) := f d
  (.ok answer, (d, m))

/-- A change of the deque that may end in a fault. -/
def editing (f : Deque α → Except Fault γ × Deque α) :
    Deque α × σ → Except Fault γ × (Deque α × σ) := fun (d, m) =>
  let (outcome, d) := f d
  (outcome, (d, m))

/-- Something that leaves the deque as it is. -/
def besides (body : σ → Except Fault γ × σ) (d : Deque α) (m : σ) :
    (Except Fault γ × Deque α) × σ :=
  let (outcome, m) := body m
  ((outcome, d), m)

/-- A planned removal that is not carried out: it is refused if the plan selects something. -/
def planned (plan : σ → Except Fault (Except Error (Option RemovalPlan)) × σ) :
    σ → Except Fault (Except Error Bool) × σ :=
  after plan fun
    | .ok none => fun m => (.ok (.ok false), m)
    | .ok (some _) => refused
    | .error e => fun m => (.ok (.error e), m)

/-- Insert what a source delivers, in front of the element at `index` or at the back. The source is
not read if the index is beyond the length. -/
def inserting (a : Allocator) (index : Option Nat) (source : σ → Trace α × σ) :
    Deque α × σ → Except Fault (Except Error Bool) × (Deque α × σ) := fun (d, m) =>
  match index with
  | none =>
    let (source, m) := source m
    let (result, d) := d.tryAddAll a source
    (result, (d, m))
  | some index =>
    if d.length < index then
      (.ok (.error (d.outOfBounds index)), (d, m))
    else
      let (source, m) := source m
      let (result, d) := d.insertAll a index source
      (result, (d, m))

/-! ### The three readings -/

/-- The program in a callback of the deque: `view` is the deque that the enclosing operation reads,
or nothing if it writes. The readings are about plain programs; what they say of others is of no
consequence. -/
def inside (view : Option (Deque α)) {β : Type} : Program α σ β → σ → Except Fault β × σ
  | .done answer => fun m => (.ok answer, m)
  | .fail fault => fun m => (.error fault, m)
  | .recall f next => fun m =>
    let (answer, m) := f m
    (next answer).inside view m
  | .read f next => after (viewing view fun d m => (.ok (f d), m)) fun answer =>
    (next answer).inside view
  | .write _ next => after refused fun answer => (next answer).inside view
  | .tryWrite _ next => after refused fun answer => (next answer).inside view
  | .removeWhere predicate next =>
    after (planned (viewing view fun d => d.planRemoval fun x => (predicate x).inside view))
      fun answer => (next answer).inside view
  | .retain predicate next =>
    after (planned (viewing view fun d =>
        d.planRemoval (Deque.negated fun x => (predicate x).inside view)))
      fun answer => (next answer).inside view
  | .forEach action next =>
    after (viewing view fun d => d.forEach fun x => (action x).inside view) fun answer =>
      (next answer).inside view
  | .replaceAll _ next => after refused fun answer => (next answer).inside view
  | .sortBy _ next => after refused fun answer => (next answer).inside view
  | .insertAll _ _ _ _ _ next => after refused fun answer => (next answer).inside view
  | .glance next => (next (view.elim .borrowed .deque)).inside view
  | .hold body next => after (granted (body.inside view)) fun answer => (next answer).inside view
  | .withLocked _ next => after refused fun answer => (next answer).inside view
  | .edit _ next => (next none).inside view
  | .keepReading next => (next (view.elim (.error .concurrentModification) .ok)).inside view
  | .keepWriting next => (next (.error .concurrentModification)).inside view
  | .dropReading next => (next true).inside view
  | .dropWriting next => (next true).inside view
  | .interrupt next => next.inside view
  | .isInterrupted next => (next false).inside view
  | .takeInterruption next => (next false).inside view
  | .attempt body next => after (attempted (body.inside view)) fun answer =>
    (next answer).inside view
  | .onThread _ _ _ => fun m => (.error .deadlock, m)

/-- The program that was given the deque for the time of a locked section. -/
def lent {β : Type} : Program α σ β → Deque α × σ → Except Fault β × (Deque α × σ)
  | .done answer => fun s => (.ok answer, s)
  | .fail fault => fun s => (.error fault, s)
  | .recall f next => fun (d, m) =>
    let (answer, m) := f m
    (next answer).lent (d, m)
  | .read _ next => after refused fun answer => (next answer).lent
  | .write _ next => after refused fun answer => (next answer).lent
  | .tryWrite _ next => after refused fun answer => (next answer).lent
  | .removeWhere _ next => after refused fun answer => (next answer).lent
  | .retain _ next => after refused fun answer => (next answer).lent
  | .forEach _ next => after refused fun answer => (next answer).lent
  | .replaceAll _ next => after refused fun answer => (next answer).lent
  | .sortBy _ next => after refused fun answer => (next answer).lent
  | .insertAll _ _ _ _ _ next => after refused fun answer => (next answer).lent
  | .glance next => (next .borrowed).lent
  | .hold body next => after (updating (besides (body.inside none))) fun answer =>
    (next answer).lent
  | .withLocked _ next => after refused fun answer => (next answer).lent
  | .edit f next => after (editing f) fun answer => (next (some answer)).lent
  | .keepReading next => (next (.error .concurrentModification)).lent
  | .keepWriting next => (next (.error .concurrentModification)).lent
  | .dropReading next => (next true).lent
  | .dropWriting next => (next true).lent
  | .interrupt next => next.lent
  | .isInterrupted next => (next false).lent
  | .takeInterruption next => (next false).lent
  | .attempt body next => after (attempted body.lent) fun answer => (next answer).lent
  | .onThread _ _ _ => fun s => (.error .deadlock, s)

/-- The program when nobody else uses the deque. -/
def alone {β : Type} :
    Program α σ β → Access → Deque α × σ → Except Fault β × (Deque α × σ)
  | .done answer, _ => fun s => (.ok answer, s)
  | .fail fault, _ => fun s => (.error fault, s)
  | .recall f next, access => fun (d, m) =>
    let (answer, m) := f m
    (next answer).alone access (d, m)
  | .read f next, access => after (updating fun d m => ((.ok (f d), d), m)) fun answer =>
    (next answer).alone access
  | .write f next, access => after (updating fun d m => (f d, m)) fun answer =>
    (next answer).alone access
  | .tryWrite f next, access => after (trying f) fun answer => (next answer).alone access
  | .removeWhere predicate next, access =>
    after (updating fun d => d.removeWhere fun x => (predicate x).inside (some d)) fun answer =>
      (next answer).alone access
  | .retain predicate next, access =>
    after (updating fun d => d.retain fun x => (predicate x).inside (some d)) fun answer =>
      (next answer).alone access
  | .forEach action next, access =>
    after (updating fun d => besides (d.forEach fun x => (action x).inside (some d)) d)
      fun answer => (next answer).alone access
  | .replaceAll operator next, access =>
    after (updating fun d => d.replaceAll fun x => (operator x).inside none) fun answer =>
      (next answer).alone access
  | .sortBy compare next, access =>
    after (updating fun d => d.sortBy fun x y => (compare x y).inside none) fun answer =>
      (next answer).alone access
  | .insertAll a index count item finish next, access =>
    after (inserting a index (delivered count (fun i => (item i).inside none) (finish.inside none)))
      fun answer => (next answer).alone access
  | .glance next, .writing => (next .borrowed).alone .writing
  | .glance next, access => fun (d, m) => (next (.deque d)).alone access (d, m)
  | .hold body next, access => after (granted (body.alone .operations)) fun answer =>
    (next answer).alone access
  | .withLocked body next, access => after (granted body.lent) fun answer =>
    (next answer).alone access
  | .edit f next, access => after (editing f) fun answer => (next (some answer)).alone access
  | .keepReading next, .writing => (next (.error .concurrentModification)).alone .writing
  | .keepReading next, access => fun (d, m) => (next (.ok d)).alone access.borrow (d, m)
  | .keepWriting next, .operations => (next (.ok ())).alone .writing
  | .keepWriting next, access => (next (.error .concurrentModification)).alone access
  | .dropReading next, access => (next true).alone access.giveBack
  | .dropWriting next, _ => (next true).alone .operations
  | .interrupt next, access => next.alone access
  | .isInterrupted next, access => (next false).alone access
  | .takeInterruption next, access => (next false).alone access
  | .attempt body next, access => after (attempted (body.alone access)) fun answer =>
    (next answer).alone access
  | .onThread _ _ _, _ => fun s => (.error .deadlock, s)

/-! ### Plain programs -/

/-- The program stays on its thread, does not set the thread's flag, and performs no operation while
it has a reference that it borrowed from a section. At its end it has given all references back,
unless it is `guarded`: then a section ends with it, and gives them back. -/
def Plain {β : Type} : Program α σ β → Access → Bool → Prop
  | .done _, access, guarded => access.Settled ∨ guarded = true
  | .fail _, access, guarded => access.Settled ∨ guarded = true
  | .recall _ next, access, guarded => ∀ answer, (next answer).Plain access guarded
  | .read _ next, access, guarded => access.Settled ∧ ∀ answer, (next answer).Plain access guarded
  | .write _ next, access, guarded =>
    access.Settled ∧ ∀ answer, (next answer).Plain access guarded
  | .tryWrite _ next, access, guarded =>
    access.Settled ∧ ∀ answer, (next answer).Plain access guarded
  | .removeWhere predicate next, access, guarded =>
    access.Settled ∧ (∀ x, (predicate x).Plain .operations false) ∧
      ∀ answer, (next answer).Plain access guarded
  | .retain predicate next, access, guarded =>
    access.Settled ∧ (∀ x, (predicate x).Plain .operations false) ∧
      ∀ answer, (next answer).Plain access guarded
  | .forEach action next, access, guarded =>
    access.Settled ∧ (∀ x, (action x).Plain .operations false) ∧
      ∀ answer, (next answer).Plain access guarded
  | .replaceAll operator next, access, guarded =>
    access.Settled ∧ (∀ x, (operator x).Plain .operations false) ∧
      ∀ answer, (next answer).Plain access guarded
  | .sortBy compare next, access, guarded =>
    access.Settled ∧ (∀ x y, (compare x y).Plain .operations false) ∧
      ∀ answer, (next answer).Plain access guarded
  | .insertAll _ _ _ item finish next, access, guarded =>
    access.Settled ∧ ((∀ i, (item i).Plain .operations false) ∧ finish.Plain .operations false) ∧
      ∀ answer, (next answer).Plain access guarded
  | .glance next, access, guarded => ∀ answer, (next answer).Plain access guarded
  | .hold body next, access, guarded =>
    access.Settled ∧ body.Plain .operations true ∧ ∀ answer, (next answer).Plain access guarded
  | .withLocked body next, access, guarded =>
    access.Settled ∧ body.Plain .lent false ∧ ∀ answer, (next answer).Plain access guarded
  | .edit f next, access, guarded =>
    (access = .lent ∨
      access = .writing ∧ (guarded = true ∨ ∀ d, ∃ answer, (f d).1 = .ok answer)) ∧
      ∀ answer, (next (some answer)).Plain access guarded
  | .keepReading next, .operations, guarded =>
    (∀ d, (next (.ok d)).Plain (.reading 0) guarded) ∧
      (next (.error .concurrentModification)).Plain .operations guarded
  | .keepReading next, .reading others, guarded =>
    ∀ d, (next (.ok d)).Plain (.reading (others + 1)) guarded
  | .keepReading next, access, guarded =>
    (next (.error .concurrentModification)).Plain access guarded
  | .keepWriting next, access, guarded =>
    (access = .operations → (next (.ok ())).Plain .writing guarded) ∧
      (next (.error .concurrentModification)).Plain access guarded
  | .dropReading next, access, guarded =>
    (∃ others, access = .reading others) ∧ (next true).Plain access.giveBack guarded
  | .dropWriting next, access, guarded =>
    access = .writing ∧ (next true).Plain .operations guarded
  | .interrupt _, _, _ => False
  | .isInterrupted next, access, guarded => (next false).Plain access guarded
  | .takeInterruption next, access, guarded => (next false).Plain access guarded
  | .attempt body next, access, guarded =>
    access.Settled ∧ body.Plain access false ∧ ∀ answer, (next answer).Plain access guarded
  | .onThread _ _ _, _, _ => False

end RingDeque.Program

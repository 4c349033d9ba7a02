import Terrain.Machine.State

/-!
# Outcomes of actions

An action of the heap or of the machine ends with a value, with an error or with a broken invariant.
Statements about actions give a condition for each of the first two and say that the third is not a
breach of the bookkeeping: objects that are gone, references that nobody held, raster handles without
a slot.

* `Ends` — the condition on the outcome of an action, with `Ends.bind` for sequences.
* `Answers` — the same for queries, which leave the machine alone.
-/

namespace Terrain

def Breach.isBookkeeping : Breach → Bool
  | notRegistered _ | noReference _ | liveReferences .. | slotTaken _ | noSlot _
  | unreservedSlot => true
  | _ => false

/-! ## Actions -/

section Actions

variable {σ α β : Type}

/-- A value and the state it comes with satisfy `done`, the state left by an error satisfies
`refused`, and no breach is one of the bookkeeping. -/
def Ends (result : EStateM.Result Failure σ α) (done : α → σ → Prop) (refused : σ → Prop) : Prop :=
  match result with
  | .ok value state => done value state
  | .error (.error _) state => refused state
  | .error (.breach breach) _ => breach.isBookkeeping = false

theorem Ends.imp {result : EStateM.Result Failure σ α} {done done' : α → σ → Prop}
    {refused refused' : σ → Prop} (ends : Ends result done refused)
    (onDone : ∀ value state, done value state → done' value state)
    (onRefused : ∀ state, refused state → refused' state) : Ends result done' refused' := by
  match result with
  | .ok value state => exact onDone value state ends
  | .error (.error _) state => exact onRefused state ends
  | .error (.breach _) _ => exact ends

/-- Errors stay as they are. -/
theorem Ends.then {result : EStateM.Result Failure σ α} {done done' : α → σ → Prop}
    {refused : σ → Prop} (ends : Ends result done refused)
    (onDone : ∀ value state, done value state → done' value state) : Ends result done' refused :=
  ends.imp onDone fun _ => id

/-- An action that raises no error may be followed by any condition on errors. -/
theorem Ends.weaken {result : EStateM.Result Failure σ α} {done : α → σ → Prop}
    {refused : σ → Prop} (ends : Ends result done fun _ => False) : Ends result done refused :=
  ends.imp (fun _ _ => id) fun _ => False.elim

/-- Sequence of two actions on one state. -/
theorem Ends.bind {action : EStateM Failure σ α} {next : α → EStateM Failure σ β} {state : σ}
    {done : β → σ → Prop} {refused : σ → Prop}
    (ends : Ends (action state) (fun value state => Ends (next value state) done refused) refused) :
    Ends ((action >>= next) state) done refused := by
  change Ends (EStateM.bind action next state) done refused
  unfold EStateM.bind
  cases outcome : action state with
  | ok value state => simpa only [outcome, Ends] using ends
  | error failure state =>
    rw [outcome] at ends
    cases failure <;> exact ends

/-- What is known of a run that ends with a value holds beside the condition. -/
theorem Ends.and {result : EStateM.Result Failure σ α} {done known : α → σ → Prop}
    {refused : σ → Prop} (ends : Ends result done refused)
    (known_of_eq : ∀ value state, result = .ok value state → known value state) :
    Ends result (fun value state => done value state ∧ known value state) refused := by
  match result with
  | .ok value state => exact ⟨ends, known_of_eq value state rfl⟩
  | .error (.error _) state => exact ends
  | .error (.breach _) _ => exact ends

theorem get_bind {next : σ → EStateM Failure σ β} {state : σ} :
    (get >>= next) state = next state state := rfl

/-- A sequence ends with a value only if both of its parts do. -/
theorem bind_eq_ok {action : EStateM Failure σ α} {next : α → EStateM Failure σ β}
    {state after : σ} {value : β} (run : (action >>= next) state = .ok value after) :
    ∃ middle between, action state = .ok middle between ∧ next middle between = .ok value after := by
  change EStateM.bind action next state = _ at run
  unfold EStateM.bind at run
  split at run
  case h_1 middle between first => exact ⟨middle, between, first, run⟩
  case h_2 => cases run

theorem Ends.pure {value : α} {state : σ} {done : α → σ → Prop} {refused : σ → Prop}
    (holds : done value state) : Ends ((Pure.pure value : EStateM Failure σ α) state) done refused :=
  holds

end Actions

/-! ## Actions of the machine -/

namespace Machine

variable {α β : Type} {program : Program} {machine : Machine}

/-- Sequence of two actions of the machine. -/
theorem ends_bind {action : MachineM α} {next : α → MachineM β} {done : β → Machine → Prop}
    {refused : Machine → Prop}
    (ends : Ends (action program machine)
      (fun value machine => Ends (next value program machine) done refused) refused) :
    Ends ((action >>= next) program machine) done refused :=
  @Ends.bind _ _ _ (action program) (fun value => next value program) machine done refused ends

/-- The value of an action may be of no interest. -/
theorem ends_discard {action : MachineM α} {done : PUnit → Machine → Prop} {refused : Machine → Prop}
    (ends : Ends (action program machine) (fun _ machine => done () machine) refused) :
    Ends (discard action program machine) done refused := by
  change Ends (EStateM.map (fun _ => PUnit.unit) (action program) machine) done refused
  unfold EStateM.map
  cases outcome : action program machine with
  | ok value machine => simpa only [outcome, Ends] using ends
  | error failure machine =>
    rw [outcome] at ends
    cases failure <;> exact ends

section Elementary

variable {done : β → Machine → Prop} {refused : Machine → Prop}

theorem ends_get {next : Machine → MachineM β}
    (ends : Ends (next machine program machine) done refused) :
    Ends ((get >>= next) program machine) done refused := ends

theorem ends_read {next : Program → MachineM β}
    (ends : Ends (next program program machine) done refused) :
    Ends ((read >>= next) program machine) done refused := ends

theorem ends_modify {change : Machine → Machine} {next : PUnit → MachineM β}
    (ends : Ends (next () program (change machine)) done refused) :
    Ends ((modify change >>= next) program machine) done refused := ends

theorem ends_pure {value : β} (holds : done value machine) :
    Ends ((pure value : MachineM β) program machine) done refused := holds

theorem ends_raise {error : Error} (unchanged : refused machine) :
    Ends ((raise error : MachineM β) program machine) done refused := unchanged

theorem ends_ite {condition : Prop} [Decidable condition] {action other : MachineM β}
    (isTrue : condition → Ends (action program machine) done refused)
    (isFalse : ¬condition → Ends (other program machine) done refused) :
    Ends ((if condition then action else other) program machine) done refused := by
  split
  case isTrue true => exact isTrue true
  case isFalse false => exact isFalse false

/-- A result computed outside passes on its error. -/
theorem ends_orRaise {result : Except Error β} (unchanged : refused machine)
    (ends : ∀ value, result = .ok value → done value machine) :
    Ends (orRaise result program machine) done refused := by
  cases result with
  | ok value => exact ends value rfl
  | error _ => exact unchanged

end Elementary

/-- An action on the heap changes nothing else. -/
theorem ends_onHeap {action : HeapM α} {done : α → Machine → Prop} {refused : Machine → Prop}
    (ends : Ends (action machine.heap) (fun value heap => done value { machine with heap })
      (fun heap => refused { machine with heap })) :
    Ends (onHeap action program machine) done refused := by
  unfold onHeap
  match outcome : action machine.heap with
  | .ok value heap => simpa only [outcome, Ends] using ends
  | .error (.error _) heap => simpa only [outcome, Ends] using ends
  | .error (.breach _) heap => simpa only [outcome, Ends] using ends

/-- A second action that also follows the errors of the first. -/
theorem ends_andFinally {action : MachineM α} {afterwards : MachineM Unit}
    {done : α → Machine → Prop} {refused : Machine → Prop}
    (ends : Ends (action program machine)
      (fun value machine => Ends (afterwards program machine) (fun _ machine => done value machine)
        refused)
      (fun machine => Ends (afterwards program machine) (fun _ machine => refused machine) refused)) :
    Ends (andFinally action afterwards program machine) done refused := by
  unfold andFinally
  match outcome : action program machine with
  | .ok value machine =>
    simp only [outcome, Ends] at ends ⊢
    cases following : afterwards program machine with
    | ok value machine => simpa only [following] using ends
    | error failure machine => cases failure <;> simpa only [following] using ends
  | .error (.error error) machine =>
    simp only [outcome, Ends] at ends ⊢
    cases following : afterwards program machine with
    | ok value machine => simpa only [following] using ends
    | error failure machine => cases failure <;> simpa only [following] using ends
  | .error (.breach breach) machine => simpa only [outcome, Ends] using ends

/-- A second action that follows only the errors of the first. -/
theorem ends_onError {action : MachineM α} {afterwards : MachineM Unit}
    {done : α → Machine → Prop} {refused : Machine → Prop}
    (ends : Ends (action program machine) done
      (fun machine => Ends (afterwards program machine) (fun _ machine => refused machine) refused)) :
    Ends (onError action afterwards program machine) done refused := by
  unfold onError
  match outcome : action program machine with
  | .ok value machine => simpa only [outcome, Ends] using ends
  | .error (.error error) machine =>
    simp only [outcome, Ends] at ends ⊢
    cases following : afterwards program machine with
    | ok value machine => simpa only [following] using ends
    | error failure machine => cases failure <;> simpa only [following] using ends
  | .error (.breach breach) machine => simpa only [outcome, Ends] using ends

/-! ## Known outcomes -/

theorem run_bind_of_eq_ok {action : MachineM α} {next : α → MachineM β} {value : α}
    {after : Machine} (run : action program machine = .ok value after) :
    (action >>= next) program machine = next value program after := by
  change EStateM.bind (action program) (fun value => next value program) machine = _
  simp only [EStateM.bind, run]

theorem run_onHeap {action : HeapM α} {value : α} {left : Heap}
    (run : action machine.heap = .ok value left) :
    onHeap action program machine = .ok value { machine with heap := left } := by
  simp only [onHeap, run]

theorem run_onHeap_bind {action : HeapM α} {next : α → MachineM β} {value : α} {left : Heap}
    (run : action machine.heap = .ok value left) :
    (onHeap action >>= next) program machine = next value program { machine with heap := left } :=
  run_bind_of_eq_ok (run_onHeap run)

theorem run_inspect_bind {query : Query α} {next : α → MachineM β} {value : α}
    (answer : query program machine = .ok value) :
    (inspect query >>= next) program machine = next value program machine := by
  refine run_bind_of_eq_ok ?_
  simp only [inspect, answer]

end Machine

/-! ## Queries -/

section Queries

variable {α β : Type}

def Answers (result : Except Failure α) (holds : α → Prop) : Prop :=
  match result with
  | .ok value => holds value
  | .error (.error _) => True
  | .error (.breach breach) => breach.isBookkeeping = false

theorem Answers.imp {result : Except Failure α} {holds holds' : α → Prop}
    (answers : Answers result holds) (implies : ∀ value, holds value → holds' value) :
    Answers result holds' := by
  match result with
  | .ok value => exact implies value answers
  | .error (.error _) => trivial
  | .error (.breach _) => exact answers

/-- Sequence of two queries. -/
theorem Answers.bind {program : Program} {machine : Machine} {query : Query α} {next : α → Query β}
    {holds : β → Prop}
    (answers : Answers (query program machine) fun value =>
      Answers (next value program machine) holds) :
    Answers ((query >>= next) program machine) holds := by
  change Answers (Except.bind (query program machine) fun value => next value program machine) holds
  unfold Except.bind
  match outcome : query program machine with
  | .ok value => simpa only [outcome, Answers] using answers
  | .error (.error _) => trivial
  | .error (.breach _) => simpa only [outcome, Answers] using answers

/-- What the first query answers is known to the second. -/
theorem Answers.seq {program : Program} {machine : Machine} {query : Query α} {next : α → Query β}
    {known : α → Prop} {holds : β → Prop} (first : Answers (query program machine) known)
    (second : ∀ value, known value → Answers (next value program machine) holds) :
    Answers ((query >>= next) program machine) holds :=
  .bind (first.imp second)

theorem Answers.pure {program : Program} {machine : Machine} {value : α} {holds : α → Prop}
    (true : holds value) : Answers ((Pure.pure value : Query α) program machine) holds :=
  true

theorem Answers.ite {program : Program} {machine : Machine} {condition : Prop} [Decidable condition]
    {query other : Query α} {holds : α → Prop}
    (isTrue : condition → Answers (query program machine) holds)
    (isFalse : ¬condition → Answers (other program machine) holds) :
    Answers ((if condition then query else other) program machine) holds := by
  split
  case isTrue true => exact isTrue true
  case isFalse false => exact isFalse false

theorem Answers.read {program : Program} {machine : Machine} {next : Program → Query β}
    {holds : β → Prop} (answers : Answers (next program program machine) holds) :
    Answers ((MonadReader.read >>= next) program machine) holds :=
  answers

theorem Answers.mapM {program : Program} {machine : Machine} {f : α → Query β} :
    ∀ {list : List α}, (∀ item ∈ list, Answers (f item program machine) fun _ => True) →
      Answers (list.mapM f program machine) fun _ => True
  | [], _ => by
    rw [List.mapM_nil]
    exact .pure trivial
  | item :: list, answers => by
    rw [List.mapM_cons]
    refine .seq (answers item List.mem_cons_self) fun value _ => ?_
    have rest := Answers.mapM fun other member => answers other (List.mem_cons_of_mem _ member)
    exact .seq rest fun _ _ => .pure trivial

/-- A query goes on with the answer of its first part. -/
theorem Query.bind_of_eq_ok {α β : Type} {query : Query α} {next : α → Query β} {program : Program}
    {machine : Machine} {value : α} (answer : query program machine = .ok value) :
    (query >>= next) program machine = next value program machine := by
  change Except.bind (query program machine) _ = _
  rw [answer]
  rfl

theorem Query.bind_of_eq_error {α β : Type} {query : Query α} {next : α → Query β} {program : Program}
    {machine : Machine} {failure : Failure} (refused : query program machine = .error failure) :
    (query >>= next) program machine = .error failure := by
  change Except.bind (query program machine) _ = _
  rw [refused]
  rfl

/-- A query runs as an action that leaves the machine as it is. -/
theorem Machine.ends_inspect {program : Program} {machine : Machine} {query : Query α}
    {done : α → Machine → Prop} {refused : Machine → Prop}
    (answers : Answers (query program machine) fun value => done value machine)
    (unchanged : refused machine) : Ends (inspect query program machine) done refused := by
  unfold inspect
  match outcome : query program machine with
  | .ok value => simpa only [outcome, Answers, Ends] using answers
  | .error (.error _) => simpa only [outcome, Ends] using unchanged
  | .error (.breach _) => simpa only [outcome, Answers, Ends] using answers

end Queries

end Terrain

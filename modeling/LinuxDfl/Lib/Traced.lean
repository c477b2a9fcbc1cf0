import Mathlib.Data.List.Basic

/-!
# Programs which leave a trace

Programs over a state which may fail, and which record events on the way.  A
triple speaks about the events so far and the state, at the start of a program
and at either of its ends.
-/

namespace LinuxDfl.Lib.Traced

/-- What a program does: its events, its result, and the state it leaves. -/
structure Run (Event Failure State Value : Type) where
  events : List Event
  result : Except Failure Value
  state : State

def Program (Event Failure State Value : Type) :=
  State → Run Event Failure State Value

variable {Event Failure State Value Next : Type}

namespace Program

/-- Do nothing but return the value. -/
def ret (value : Value) : Program Event Failure State Value :=
  fun state => ⟨[], .ok value, state⟩

/-- Do one after the other, unless the first fails. -/
def andThen (first : Program Event Failure State Value)
    (rest : Value → Program Event Failure State Next) :
    Program Event Failure State Next :=
  fun state =>
    let run := first state
    match run.result with
    | .error failure => ⟨run.events, .error failure, run.state⟩
    | .ok value =>
        let next := rest value run.state
        ⟨run.events ++ next.events, next.result, next.state⟩

instance : Monad (Program Event Failure State) where
  pure := ret
  bind := andThen

/-- Fail. -/
def fail (failure : Failure) : Program Event Failure State Value :=
  fun state => ⟨[], .error failure, state⟩

/-- Record an event. -/
def emit (event : Event) : Program Event Failure State Unit :=
  fun state => ⟨[event], .ok (), state⟩

/-- The state. -/
def read : Program Event Failure State State :=
  fun state => ⟨[], .ok state, state⟩

/-- Change the state. -/
def update (change : State → State) : Program Event Failure State Unit :=
  fun state => ⟨[], .ok (), change state⟩

/-- Go on from what the program returns, be it a failure. -/
def attempt (program : Program Event Failure State Value) :
    Program Event Failure State (Except Failure Value) :=
  fun state =>
    let run := program state
    ⟨run.events, .ok run.result, run.state⟩

/-- Run `cleanup` after the program, whether it fails or not. -/
def ensure (program : Program Event Failure State Value)
    (cleanup : Program Event Failure State Unit) :
    Program Event Failure State Value :=
  fun state =>
    let run := program state
    let cleaned := cleanup run.state
    ⟨run.events ++ cleaned.events, run.result, cleaned.state⟩

/-- Run `cleanup` after the program if it fails. -/
def onFailure (program : Program Event Failure State Value)
    (cleanup : Program Event Failure State Unit) :
    Program Event Failure State Value :=
  fun state =>
    match (program state).result with
    | .error _ => ensure program cleanup state
    | .ok _ => program state

end Program

open Program

theorem bind_of_error {program : Program Event Failure State Value}
    {rest : Value → Program Event Failure State Next} {state : State}
    {failure : Failure} (fails : (program state).result = .error failure) :
    (program >>= rest) state =
      ⟨(program state).events, .error failure, (program state).state⟩ := by
  change andThen program rest state = _
  simp only [andThen, fails]

theorem bind_of_ok {program : Program Event Failure State Value}
    {rest : Value → Program Event Failure State Next} {state : State}
    {value : Value} (returns : (program state).result = .ok value) :
    (program >>= rest) state =
      ⟨(program state).events ++ (rest value (program state).state).events,
        (rest value (program state).state).result,
        (rest value (program state).state).state⟩ := by
  change andThen program rest state = _
  simp only [andThen, returns]

/-- A program goes on from one which records nothing. -/
theorem bind_of_silent {program : Program Event Failure State Value}
    {rest : Value → Program Event Failure State Next} {state next : State}
    {value : Value} (runs : program state = ⟨[], .ok value, next⟩) :
    (program >>= rest) state = rest value next := by
  rw [bind_of_ok (congrArg Run.result runs), runs]
  rfl

/-- A program which reads the state first goes on from there. -/
theorem read_bind (rest : State → Program Event Failure State Value)
    (state : State) : (Program.read >>= rest) state = rest state state := rfl

/-! ## Triples -/

/-- What holds of the events so far and of the state. -/
abbrev Assertion (Event State : Type) := List Event → State → Prop

/--
From states with `pre`, the program ends with `post` if it returns a value,
and with `fails` if it fails.
-/
def Triple (pre : Assertion Event State)
    (program : Program Event Failure State Value)
    (post : Value → Assertion Event State)
    (fails : Assertion Event State) : Prop :=
  ∀ past state, pre past state →
    match (program state).result with
    | .ok value =>
        post value (past ++ (program state).events) (program state).state
    | .error _ => fails (past ++ (program state).events) (program state).state

variable {pre : Assertion Event State} {post : Value → Assertion Event State}
  {fails : Assertion Event State}

theorem Triple.ret {value : Value}
    (holds : ∀ past state, pre past state → post value past state) :
    Triple pre (pure value : Program Event Failure State Value) post
      fails := by
  intro past state initial
  exact (List.append_nil past).symm ▸ holds past state initial

theorem Triple.bind {program : Program Event Failure State Value}
    {rest : Value → Program Event Failure State Next}
    {after : Next → Assertion Event State}
    (first : Triple pre program post fails)
    (others : ∀ value, Triple (post value) (rest value) after fails) :
    Triple pre (program >>= rest) after fails := by
  intro past state initial
  have runs := first past state initial
  cases result : (program state).result with
  | error failure =>
      rw [result] at runs
      rw [bind_of_error result]
      exact runs
  | ok value =>
      rw [result] at runs
      rw [bind_of_ok result]
      have next := others value _ _ runs
      rwa [List.append_assoc] at next

theorem Triple.mono {program : Program Event Failure State Value}
    {pre' : Assertion Event State} {post' : Value → Assertion Event State}
    {fails' : Assertion Event State}
    (triple : Triple pre' program post' fails')
    (before : ∀ past state, pre past state → pre' past state)
    (after : ∀ value past state, post' value past state → post value past state)
    (failing : ∀ past state, fails' past state → fails past state) :
    Triple pre program post fails := by
  intro past state initial
  have runs := triple past state (before past state initial)
  cases result : (program state).result with
  | error failure =>
      rw [result] at runs
      exact failing _ _ runs
  | ok value =>
      rw [result] at runs
      exact after _ _ _ runs

theorem Triple.fail {failure : Failure}
    (holds : ∀ past state, pre past state → fails past state) :
    Triple pre (fail failure) post fails := by
  intro past state initial
  exact (List.append_nil past).symm ▸ holds past state initial

theorem Triple.emit {event : Event} {post : Unit → Assertion Event State}
    (holds :
      ∀ past state, pre past state → post () (past ++ [event]) state) :
    Triple pre (emit event : Program Event Failure State Unit) post fails :=
  fun past state initial => holds past state initial

theorem Triple.read {post : State → Assertion Event State}
    (holds : ∀ past state, pre past state → post state past state) :
    Triple pre (read : Program Event Failure State State) post fails := by
  intro past state initial
  exact (List.append_nil past).symm ▸ holds past state initial

theorem Triple.update {change : State → State}
    {post : Unit → Assertion Event State}
    (holds : ∀ past state, pre past state → post () past (change state)) :
    Triple pre (update change : Program Event Failure State Unit) post
      fails := by
  intro past state initial
  exact (List.append_nil past).symm ▸ holds past state initial

theorem Triple.attempt {program : Program Event Failure State Value}
    {after : Assertion Event State}
    (triple : Triple pre program (fun _ => after) after) :
    Triple pre (Program.attempt program) (fun _ => after) fails := by
  intro past state initial
  have runs := triple past state initial
  cases result : (program state).result with
  | error failure =>
      rw [result] at runs
      exact runs
  | ok value =>
      rw [result] at runs
      exact runs

/-- A cleanup which does not fail may be treated after each end. -/
theorem Triple.ensure {program : Program Event Failure State Value}
    {cleanup : Program Event Failure State Unit}
    {post' : Value → Assertion Event State}
    {fails' : Assertion Event State}
    (triple : Triple pre program post fails)
    (returned :
      ∀ value, Triple (post value) cleanup (fun _ => post' value)
        (post' value))
    (failed : Triple fails cleanup (fun _ => fails') fails') :
    Triple pre (Program.ensure program cleanup) post' fails' := by
  intro past state initial
  have runs := triple past state initial
  cases result : (program state).result with
  | error failure =>
      rw [result] at runs
      have cleaned := failed _ _ runs
      simp only [Program.ensure, result, ← List.append_assoc]
      cases last : (cleanup (program state).state).result <;>
        · rw [last] at cleaned
          exact cleaned
  | ok value =>
      rw [result] at runs
      have cleaned := returned value _ _ runs
      simp only [Program.ensure, result, ← List.append_assoc]
      cases last : (cleanup (program state).state).result <;>
        · rw [last] at cleaned
          exact cleaned

theorem Triple.onFailure {program : Program Event Failure State Value}
    {cleanup : Program Event Failure State Unit}
    {fails' : Assertion Event State}
    (triple : Triple pre program post fails)
    (failed : Triple fails cleanup (fun _ => fails') fails') :
    Triple pre (Program.onFailure program cleanup) post fails' := by
  intro past state initial
  have runs := triple past state initial
  cases result : (program state).result with
  | ok value =>
      rw [result] at runs
      simp only [Program.onFailure, result]
      exact runs
  | error failure =>
      rw [result] at runs
      have cleaned := failed _ _ runs
      simp only [Program.onFailure, Program.ensure, result,
        ← List.append_assoc]
      cases last : (cleanup (program state).state).result <;>
        · rw [last] at cleaned
          exact cleaned

/-- A change of the state may be carried along. -/
theorem Triple.updateBind {change : State → State}
    {rest : Unit → Program Event Failure State Value}
    (next :
      Triple (fun past state => ∃ before, pre past before ∧
        state = change before) (rest ()) post fails) :
    Triple pre (Program.update change >>= rest) post fails :=
  Triple.bind (Triple.update fun _ state initial => ⟨state, initial, rfl⟩)
    fun _ => next

/-- A program which reads the state first may be treated at each state. -/
theorem Triple.withState
    {rest : State → Program Event Failure State Value}
    (holds :
      ∀ seen, Triple (fun past state => pre past state ∧ state = seen)
        (rest seen) post fails) :
    Triple pre (Program.read >>= rest) post fails := by
  intro past state initial
  have runs := holds state past state ⟨initial, rfl⟩
  exact runs

theorem Triple.of_pre {program : Program Event Failure State Value}
    {pre' : Assertion Event State}
    (triple : Triple pre' program post fails)
    (before : ∀ past state, pre past state → pre' past state) :
    Triple pre program post fails :=
  triple.mono before (fun _ _ _ => id) fun _ _ => id

theorem Triple.of_fails {program : Program Event Failure State Value}
    {fails' : Assertion Event State}
    (triple : Triple pre program post fails')
    (failing : ∀ past state, fails' past state → fails past state) :
    Triple pre program post fails :=
  triple.mono (fun _ _ => id) (fun _ _ _ => id) failing

/-- The state which is read may be any. -/
theorem Triple.anyState {rest : State → Program Event Failure State Value}
    (holds : ∀ seen, Triple pre (rest seen) post fails) :
    Triple pre (Program.read >>= rest) post fails :=
  Triple.withState fun seen => (holds seen).of_pre fun _ _ => And.left

/-- What two triples say of a program holds together. -/
theorem Triple.and {program : Program Event Failure State Value}
    {pre' : Assertion Event State} {post' : Value → Assertion Event State}
    {fails' : Assertion Event State}
    (left : Triple pre program post fails)
    (right : Triple pre' program post' fails') :
    Triple (fun past state => pre past state ∧ pre' past state) program
      (fun value past state => post value past state ∧ post' value past state)
      (fun past state => fails past state ∧ fails' past state) := by
  intro past state initial
  have first := left past state initial.1
  have second := right past state initial.2
  cases result : (program state).result with
  | error failure =>
      rw [result] at first second
      exact ⟨first, second⟩
  | ok value =>
      rw [result] at first second
      exact ⟨first, second⟩

/-- A program holds on both sides of a disjunction if it does on each. -/
theorem Triple.or {program : Program Event Failure State Value}
    {pre' : Assertion Event State}
    (left : Triple pre program post fails)
    (right : Triple pre' program post fails) :
    Triple (fun past state => pre past state ∨ pre' past state) program post
      fails := by
  intro past state initial
  rcases initial with first | second
  · exact left past state first
  · exact right past state second

/-- A program may be treated at each state in which it starts. -/
theorem Triple.atState {program : Program Event Failure State Value}
    (holds : ∀ seen,
      Triple (fun past state => pre past state ∧ state = seen) program post
        fails) :
    Triple pre program post fails :=
  fun past state initial => holds state past state ⟨initial, rfl⟩

/-- A fact of the precondition may be assumed. -/
theorem Triple.assume {program : Program Event Failure State Value}
    {fact : Prop} (holds : fact → Triple pre program post fails) :
    Triple (fun past state => pre past state ∧ fact) program post fails :=
  fun past state initial => holds initial.2 past state initial.1

/-- What holds of a trace and of all which extend it holds on. -/
theorem Triple.extends {program : Program Event Failure State Value}
    {holds : List Event → Prop}
    (grows : ∀ past more, holds past → holds (past ++ more)) :
    Triple (fun past _ => holds past) program (fun _ past _ => holds past)
      fun past _ => holds past := by
  intro past state initial
  cases (program state).result with
  | error failure => exact grows past _ initial
  | ok value => exact grows past _ initial

/-- What has been recorded stays recorded. -/
theorem Triple.recorded {program : Program Event Failure State Value}
    (event : Event) :
    Triple (fun past _ => event ∈ past) program (fun _ past _ => event ∈ past)
      fun past _ => event ∈ past :=
  Triple.extends fun _ _ member => List.mem_append_left _ member

/-- What holds of the trace of a run which starts with no events. -/
theorem Triple.run {program : Program Event Failure State Value}
    (triple : Triple pre program post fails) {state : State}
    (initial : pre [] state) {value : Value}
    (returns : (program state).result = .ok value) :
    post value (program state).events (program state).state := by
  have runs := triple [] state initial
  rw [returns] at runs
  exact runs

/-- What holds of the trace of a run, whether it fails or not. -/
theorem Triple.always {program : Program Event Failure State Value}
    {holds : List Event → Prop}
    (triple :
      Triple pre program (fun _ past _ => holds past) fun past _ => holds past)
    {state : State} (initial : pre [] state) :
    holds (program state).events := by
  have runs := triple [] state initial
  cases result : (program state).result with
  | error failure =>
      rw [result] at runs
      exact runs
  | ok value =>
      rw [result] at runs
      exact runs

/-- What a program keeps of the state, whether it fails or not. -/
theorem Triple.keepsState {program : Program Event Failure State Value}
    {holds : State → Prop}
    (triple :
      Triple (fun _ state => holds state) program (fun _ _ state => holds state)
        fun _ state => holds state)
    {state : State} (initial : holds state) : holds (program state).state := by
  have runs := triple [] state initial
  cases result : (program state).result with
  | error failure =>
      rw [result] at runs
      exact runs
  | ok value =>
      rw [result] at runs
      exact runs

/-! ## Which events a run records -/

/-- All events which the program records from this state are allowed. -/
def Records (allowed : Event → Prop)
    (program : Program Event Failure State Value) (state : State) : Prop :=
  ∀ event ∈ (program state).events, allowed event

variable {allowed : Event → Prop} {state : State}

@[simp]
theorem records_ret {value : Value} :
    Records allowed (pure value : Program Event Failure State Value) state ↔
      True :=
  iff_true_intro fun _ => List.not_mem_nil.elim

@[simp]
theorem records_fail {failure : Failure} :
    Records allowed (fail failure : Program Event Failure State Value) state ↔
      True :=
  iff_true_intro fun _ => List.not_mem_nil.elim

@[simp]
theorem records_emit {event : Event} :
    Records allowed (emit event : Program Event Failure State Unit) state ↔
      allowed event :=
  ⟨fun records => records event List.mem_cons_self,
    fun holds _ member => List.mem_singleton.mp member ▸ holds⟩

@[simp]
theorem records_update {change : State → State} :
    Records allowed (update change : Program Event Failure State Unit) state ↔
      True :=
  iff_true_intro fun _ => List.not_mem_nil.elim

/-- A program goes on from each value which is returned. -/
theorem records_bind {program : Program Event Failure State Value}
    {rest : Value → Program Event Failure State Next} :
    Records allowed (program >>= rest) state ↔
      Records allowed program state ∧
        ∀ value, (program state).result = .ok value →
          Records allowed (rest value) (program state).state := by
  unfold Records
  cases result : (program state).result with
  | error failure =>
      rw [bind_of_error result]
      exact ⟨fun records => ⟨records, fun _ impossible => nomatch impossible⟩,
        And.left⟩
  | ok value =>
      rw [bind_of_ok result]
      simp only [List.forall_mem_append, Except.ok.injEq, forall_eq']

theorem records_bind_of_ok {program : Program Event Failure State Value}
    {rest : Value → Program Event Failure State Next} {value : Value}
    (returns : (program state).result = .ok value) :
    Records allowed (program >>= rest) state ↔
      Records allowed program state ∧
        Records allowed (rest value) (program state).state := by
  rw [records_bind, returns]
  simp only [Except.ok.injEq, forall_eq']

@[simp]
theorem records_emit_bind {event : Event}
    {rest : Unit → Program Event Failure State Value} :
    Records allowed (emit event >>= rest) state ↔
      allowed event ∧ Records allowed (rest ()) state := by
  rw [records_bind_of_ok (rfl : (emit event state).result = .ok ()),
    records_emit]
  rfl

@[simp]
theorem records_update_bind {change : State → State}
    {rest : Unit → Program Event Failure State Value} :
    Records allowed (update change >>= rest) state ↔
      Records allowed (rest ()) (change state) := by
  rw [records_bind_of_ok (rfl : (update change state).result = .ok ()),
    records_update, true_and]
  rfl

@[simp]
theorem records_pure_bind {value : Value}
    {rest : Value → Program Event Failure State Next} :
    Records allowed (pure value >>= rest) state ↔
      Records allowed (rest value) state :=
  Iff.rfl

@[simp]
theorem records_read_bind {rest : State → Program Event Failure State Value} :
    Records allowed (Program.read >>= rest) state ↔
      Records allowed (rest state) state :=
  Iff.rfl

/-- What a program returns which goes on from another. -/
theorem bind_result_iff {program : Program Event Failure State Value}
    {rest : Value → Program Event Failure State Next} {last : Next} :
    ((program >>= rest) state).result = .ok last ↔
      ∃ value, (program state).result = .ok value ∧
        (rest value (program state).state).result = .ok last := by
  cases result : (program state).result with
  | error failure =>
      rw [bind_of_error result]
      simp
  | ok value =>
      rw [bind_of_ok result]
      simp

theorem Triple.records {program : Program Event Failure State Value}
    (triple :
      Triple (fun past _ => ∀ event ∈ past, allowed event) program
        (fun _ past _ => ∀ event ∈ past, allowed event)
        fun past _ => ∀ event ∈ past, allowed event) :
    Records allowed program state :=
  @Triple.always _ _ _ _ _ _ _ triple state fun _ => List.not_mem_nil.elim

/-! ## Programs which leave the state alone -/

/-- The program does the same in every state, and leaves it as it is. -/
def Steady (program : Program Event Failure State Value) : Prop :=
  ∃ events result, ∀ state, program state = ⟨events, result, state⟩

theorem Steady.ret (value : Value) :
    Steady (pure value : Program Event Failure State Value) :=
  ⟨[], .ok value, fun _ => rfl⟩

theorem Steady.fail (failure : Failure) :
    Steady (fail failure : Program Event Failure State Value) :=
  ⟨[], .error failure, fun _ => rfl⟩

theorem Steady.emit (event : Event) :
    Steady (emit event : Program Event Failure State Unit) :=
  ⟨[event], .ok (), fun _ => rfl⟩

theorem Steady.bind {program : Program Event Failure State Value}
    {rest : Value → Program Event Failure State Next}
    (first : Steady program) (others : ∀ value, Steady (rest value)) :
    Steady (program >>= rest) := by
  obtain ⟨events, result, runs⟩ := first
  cases result with
  | error failure =>
      refine ⟨events, .error failure, fun state => ?_⟩
      have fails : (program state).result = .error failure := by rw [runs]
      rw [bind_of_error fails, runs]
  | ok value =>
      obtain ⟨more, last, continues⟩ := others value
      refine ⟨events ++ more, last, fun state => ?_⟩
      have returns : (program state).result = .ok value := by rw [runs]
      rw [bind_of_ok returns, runs, continues]

theorem Steady.result_eq {program : Program Event Failure State Value}
    (steady : Steady program) (state other : State) :
    (program state).result = (program other).result := by
  obtain ⟨events, result, runs⟩ := steady
  rw [runs, runs]

theorem Steady.state_eq {program : Program Event Failure State Value}
    (steady : Steady program) (state : State) :
    (program state).state = state := by
  obtain ⟨events, result, runs⟩ := steady
  rw [runs]

/-- What a steady program returns is what it returns anywhere. -/
theorem Steady.triple {program : Program Event Failure State Value}
    (steady : Steady program) (triple : Triple pre program post fails)
    (other : State) :
    Triple pre program
      (fun value past state =>
        post value past state ∧ (program other).result = .ok value)
      fails := by
  obtain ⟨events, result, runs⟩ := steady
  intro past state initial
  have holds := triple past state initial
  rw [runs] at holds ⊢
  rw [runs]
  cases result with
  | error failure => exact holds
  | ok value => exact ⟨holds, rfl⟩

end LinuxDfl.Lib.Traced

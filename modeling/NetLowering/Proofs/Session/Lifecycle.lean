import NetLowering.Proofs.Lowering.RequiredOps
import NetLowering.Proofs.Session.History

/-!
# The lifecycle of a session

A session has a place for a graph and a place for an execution, which are filled
and emptied one by one.  After every step it holds a graph and an execution of it,
or neither (`together_after`).  Which of the two it is depends on the last creation
alone, and no step, whatever its buffers and whatever came before it, finds the
backend in a state that the step does not expect.
-/

namespace NetLowering

/-! ## Errors of computations -/

/-- The errors that a computation fails with: over a buffer, or over one that is not there. -/
inductive BackendError.OverBuffers : BackendError → Prop
  | noPlace (index : UInt32) : OverBuffers (.badIndex index)
  | misfit (index : UInt32) (fault : OperandFault) : OverBuffers (.invalidOperand index fault)
  | noInput (index : Nat) : OverBuffers (.inputNotSet index)
  | noOutput (index : Nat) : OverBuffers (.outputNotSet index)

theorem overBuffers_of_checkAt {types : List OperandType} {place : Nat} {buffer : Buffer}
    {error : BackendError} (hcheck : checkAt types place buffer = .error error) :
    error.OverBuffers := by
  rw [checkAt] at hcheck
  cases htype : types[place]? with
  | none =>
      rw [htype] at hcheck
      cases hcheck
      exact .noPlace _
  | some type =>
      simp only [htype] at hcheck
      split at hcheck
      · cases hcheck
      · cases hcheck
        exact .misfit _ _

theorem overBuffers_of_takeFitting {types : List OperandType} {place : Nat}
    {buffers : List Buffer} {error : BackendError}
    (hrefused : (takeFitting types place buffers).2 = .error error) : error.OverBuffers := by
  induction buffers generalizing place with
  | nil => cases hrefused
  | cons buffer rest ih =>
      rw [takeFitting] at hrefused
      cases hcheck : checkAt types place buffer with
      | error refusal =>
          simp only [hcheck] at hrefused
          cases hrefused
          exact overBuffers_of_checkAt hcheck
      | ok _ =>
          simp only [hcheck] at hrefused
          exact ih hrefused

namespace Execution

variable {execution : Execution}

theorem overBuffers_of_admission {inputs outputs : List Buffer} {error : BackendError}
    (hrefused : execution.admission inputs outputs = .error error) : error.OverBuffers := by
  rw [admission] at hrefused
  cases hinputs : (takeFitting execution.inputTypes 0 inputs).2 with
  | error refusal =>
      rw [hinputs] at hrefused
      cases hrefused
      exact overBuffers_of_takeFitting hinputs
  | ok _ =>
      rw [hinputs] at hrefused
      exact overBuffers_of_takeFitting hrefused

theorem overBuffers_of_missing {error : BackendError}
    (hmissing : execution.missing? = some error) : error.OverBuffers := by
  rw [missing?] at hmissing
  cases hinputs : execution.inputs.findIdx? Option.isNone with
  | some index =>
      rw [hinputs] at hmissing
      cases hmissing
      exact .noInput index
  | none =>
      simp only [hinputs, Option.map_eq_some_iff] at hmissing
      obtain ⟨index, -, rfl⟩ := hmissing
      exact .noOutput index

end Execution

theorem Session.overBuffers_of_outcome {execution : Execution} {inputs outputs : List Buffer}
    {error : SessionError} (hfailed : (outcome execution inputs outputs).status = .error error) :
    ∃ failure, error = .backend failure ∧ failure.OverBuffers := by
  rw [outcome] at hfailed
  cases hadmission : execution.admission inputs outputs with
  | error refusal =>
      simp only [hadmission] at hfailed
      cases hfailed
      exact ⟨refusal, rfl, Execution.overBuffers_of_admission hadmission⟩
  | ok _ =>
      simp only [hadmission] at hfailed
      cases hmissing : (execution.binding inputs outputs).missing? with
      | none =>
          rw [hmissing] at hfailed
          cases hfailed
      | some failure =>
          rw [hmissing] at hfailed
          cases hfailed
          exact ⟨failure, rfl, Execution.overBuffers_of_missing hmissing⟩

/-! ## Steps -/

/-- The errors that tell of a call out of turn, or of a model or an execution that does not agree
with the graph. -/
def SessionError.Inconsistent : SessionError → Prop
  | .backend .alreadyFinished | .backend .notFinished | .backend (.unknownOperand _)
  | .idMismatch _ _ | .outputMismatch _ => True
  | _ => False

theorem BackendError.OverContent.not_inconsistent {error : BackendError}
    (hover : error.OverContent) : ¬(SessionError.backend error).Inconsistent := by
  cases hover <;> exact id

theorem BackendError.OverBuffers.not_inconsistent {error : BackendError}
    (hover : error.OverBuffers) : ¬(SessionError.backend error).Inconsistent := by
  cases hover <;> exact id

namespace Session

variable {session : Session} {history : List Step} {state : State}

/-- How a step ends. -/
def report (session : Session) (state : State) : Step → Except SessionError Unit
  | .create => (session.create state).1
  | .compute computation => (compute state computation.inputs computation.outputs).1.status

theorem compute_of_uncompiled (hnone : state.compiled? = none) (computation : Computation) :
    session.report state (.compute computation) = .error .notCompiled ∧
      session.perform state (.compute computation) = state := by
  simp only [report, perform, compute, hnone, and_self]

/-- Once something is compiled, a computation fails over its buffers only. -/
theorem overBuffers_of_compiled {execution : Execution}
    (hcompiled : (session.after history).compiled? = some execution) {computation : Computation}
    {error : SessionError}
    (hfailed : session.report (session.after history) (.compute computation) = .error error) :
    ∃ failure, error = .backend failure ∧ failure.OverBuffers := by
  obtain ⟨_, -, -, hholds⟩ := session.exists_holds
  obtain ⟨-, hindexed, hrecalls⟩ := hholds history execution hcompiled
  obtain ⟨calls, results, hcompute⟩ := compute_eq hcompiled hrecalls.slotted hindexed
    computation.inputs computation.outputs
  rw [report, hcompute] at hfailed
  exact overBuffers_of_outcome hfailed

/-- A creation is out of step with the backend only if there are more operands than indices. -/
theorem overflow_of_inconsistent {error : SessionError}
    (hfailed : session.report state .create = .error error) (hinconsistent : error.Inconsistent) :
    error = .idMismatch (2 ^ 32) 0 ∧
      ∃ graph, session.net.lower session.options = .ok graph ∧
        2 ^ 32 < graph.operands.length := by
  obtain ⟨result, hcreated, hcreate⟩ := session.create_eq
  obtain ⟨calls, hstate, -⟩ := hcreate state
  rw [report, hstate] at hfailed
  cases hcreated with
  | unlowered _ =>
      cases hfailed
      cases hinconsistent
  | uncompiled hlower hcompiles =>
      cases hfailed
      cases hcompiles with
      | refused hover => exact absurd hinconsistent hover.not_inconsistent
      | overflowed hmany => exact ⟨rfl, _, hlower, hmany⟩
  | compiled _ _ _ => cases hfailed

/-! ## Holding both or neither -/

/-- There is a graph just when there is an execution. -/
def State.Together (state : State) : Prop := state.graph?.isSome ↔ state.compiled?.isSome

/-- A computation changes the execution, but neither brings one nor takes one away. -/
theorem held_compute (state : State) (inputs outputs : List Buffer) :
    (compute state inputs outputs).2.graph? = state.graph? ∧
      (compute state inputs outputs).2.compiled?.isSome = state.compiled?.isSome := by
  rw [compute]
  cases hcompiled : state.compiled? with
  | none => exact ⟨rfl, congrArg Option.isSome hcompiled⟩
  | some execution =>
      simp only []
      rcases (run inputs outputs).run (execution, state.calls) with ⟨_ | _, _, _⟩ <;>
        exact ⟨rfl, rfl⟩

theorem together_perform (htogether : state.Together) (step : Step) :
    (session.perform state step).Together := by
  cases step with
  | create =>
      obtain ⟨result, -, hcreate⟩ := session.create_eq
      obtain ⟨calls, hstate, -⟩ := hcreate state
      rw [perform, hstate]
      cases result <;> simp [State.Together, State.ofCreation, Except.toOption]
  | compute computation =>
      obtain ⟨hgraph, hcompiled⟩ := held_compute state computation.inputs computation.outputs
      rw [perform, State.Together, hgraph, hcompiled]
      exact htogether

theorem together_after (session : Session) (history : List Step) :
    (session.after history).Together := by
  induction history using List.reverseRecOn with
  | nil => simp [after, State.Together]
  | append_singleton history step ih =>
      rw [after_concat]
      exact together_perform ih step

/-! ## Histories -/

/-- There is a creation, and the last one has succeeded. -/
def Ready (session : Session) (history : List Step) : Prop :=
  ∃ before, ∃ computations : List Computation,
    history = before ++ .create :: computations.map .compute ∧
    session.report (session.after before) .create = .ok ()

theorem ready_create_iff :
    session.Ready (history ++ [.create]) ↔
      session.report (session.after history) .create = .ok () := by
  constructor
  · rintro ⟨before, computations, hhistory, hok⟩
    rcases Checked.concat_eq_moment_iff.mp hhistory with ⟨rfl, -, -⟩ | ⟨rest, hrest, -⟩
    · exact hok
    · obtain ⟨_, _, -, -, hlast⟩ := List.map_eq_append_iff.mp hrest
      obtain ⟨_, -, hstep⟩ := List.map_eq_singleton_iff.mp hlast
      cases hstep
  · exact fun hok => ⟨history, [], rfl, hok⟩

theorem ready_compute_iff {computation : Computation} :
    session.Ready (history ++ [.compute computation]) ↔ session.Ready history := by
  constructor
  · rintro ⟨before, computations, hhistory, hok⟩
    rcases Checked.concat_eq_moment_iff.mp hhistory with ⟨-, hstep, -⟩ | ⟨rest, hrest, hbefore⟩
    · cases hstep
    · obtain ⟨earlier, _, -, rfl, -⟩ := List.map_eq_append_iff.mp hrest
      exact ⟨before, earlier, hbefore, hok⟩
  · rintro ⟨before, computations, rfl, hok⟩
    exact ⟨before, computations ++ [computation], by simp, hok⟩

theorem compiled_iff_ready (session : Session) (history : List Step) :
    (session.after history).compiled?.isSome ↔ session.Ready history := by
  induction history using List.reverseRecOn with
  | nil => simp [after, Ready]
  | append_singleton history step ih =>
      rw [after_concat]
      cases step with
      | create =>
          obtain ⟨result, -, hcreate⟩ := session.create_eq
          obtain ⟨calls, hstate, -⟩ := hcreate (session.after history)
          rw [ready_create_iff, report, perform, hstate]
          cases result <;> simp [Except.map, Except.toOption, State.ofCreation]
      | compute computation =>
          rw [ready_compute_iff, ← ih, perform, (held_compute _ _ _).2]

/-- What holds after every sequence of steps, and of the step that comes next. -/
structure Lifecycle (session : Session) (history : List Step) : Prop where
  together : (session.after history).graph?.isSome ↔ (session.after history).compiled?.isSome
  runs : ∀ graph execution, (session.after history).graph? = some graph →
    (session.after history).compiled? = some execution →
      session.net.lower session.options = .ok graph ∧ execution.Runs graph
  required : (session.after history).requiredOps = [] ↔
    ∀ graph, (session.after history).graph? = some graph → graph.operations = []
  ready : (session.after history).graph?.isSome ↔ session.Ready history
  uncompiled : ∀ computation,
    session.report (session.after history) (.compute computation) = .error .notCompiled ↔
      ¬session.Ready history
  unheard : ∀ computation, ¬session.Ready history →
    (session.perform (session.after history) (.compute computation)).calls =
      (session.after history).calls
  unlowered : ∀ error,
    session.report (session.after history) .create = .error (.lowering error) →
      (session.perform (session.after history) .create).calls = (session.after history).calls
  /-- Beyond the operands that an index of 32 bits can tell apart, the next is taken for the
  first. -/
  consistent : ∀ step error, session.report (session.after history) step = .error error →
    error.Inconsistent → error = .idMismatch (2 ^ 32) 0 ∧
      ∃ graph, session.net.lower session.options = .ok graph ∧ 2 ^ 32 < graph.operands.length

theorem runs_of_held {graph : Graph} {execution : Execution}
    (hgraph : (session.after history).graph? = some graph)
    (hcompiled : (session.after history).compiled? = some execution) :
    session.net.lower session.options = .ok graph ∧ execution.Runs graph := by
  obtain ⟨created, hcreated, -, hholds⟩ := session.exists_holds
  obtain ⟨⟨held, fresh, rfl, hheld, hinputs, houtputs⟩, -, -⟩ :=
    hholds history execution hcompiled
  cases hgraph.symm.trans hheld
  cases hcreated with
  | compiled hlower hruns hblank =>
      refine ⟨hlower, ?_, ?_⟩
      · rw [hinputs]
        exact hruns.inputs
      · rw [houtputs]
        exact hruns.outputs

theorem lower_of_graph? {graph : Graph} (hgraph : (session.after history).graph? = some graph) :
    session.net.lower session.options = .ok graph := by
  have hcompiled := (session.together_after history).mp (by rw [hgraph]; rfl)
  obtain ⟨execution, hexecution⟩ := Option.isSome_iff_exists.mp hcompiled
  exact (runs_of_held hgraph hexecution).1

theorem calls_of_refused {error : LoweringError}
    (hfailed : session.report state .create = .error (.lowering error)) :
    (session.perform state .create).calls = state.calls := by
  obtain ⟨result, hcreated, hcreate⟩ := session.create_eq
  obtain ⟨calls, hstate, hcalls⟩ := hcreate state
  rw [report, hstate] at hfailed
  rw [perform, hstate]
  cases hcreated with
  | unlowered hlower => exact hcalls ⟨_, hlower⟩
  | uncompiled _ hcompiles => cases hcompiles <;> cases hfailed
  | compiled _ _ _ => cases hfailed

theorem requiredOps_eq_nil_iff :
    (session.after history).requiredOps = [] ↔
      ∀ graph, (session.after history).graph? = some graph → graph.operations = [] := by
  rw [State.requiredOps]
  cases hgraph : (session.after history).graph? with
  | none => simp
  | some graph =>
      have hlists := FlatNet.listsCodes_of_lower (lower_of_graph? hgraph)
      simpa using hlists.requiredOps_eq_nil_iff

theorem notCompiled_iff (session : Session) (history : List Step) (computation : Computation) :
    session.report (session.after history) (.compute computation) = .error .notCompiled ↔
      ¬session.Ready history := by
  rw [← compiled_iff_ready]
  cases hcompiled : (session.after history).compiled? with
  | none => simp [(compute_of_uncompiled hcompiled computation).1]
  | some execution =>
      simp only [Option.isSome_some, not_true_eq_false, iff_false]
      intro hfailed
      obtain ⟨failure, hfailure, -⟩ := overBuffers_of_compiled hcompiled hfailed
      cases hfailure

theorem perform_of_unready (hunready : ¬session.Ready history) (computation : Computation) :
    session.perform (session.after history) (.compute computation) = session.after history := by
  rw [← compiled_iff_ready, Option.not_isSome_iff_eq_none] at hunready
  exact (compute_of_uncompiled hunready computation).2

theorem compute_not_inconsistent {computation : Computation} {error : SessionError}
    (hfailed : session.report (session.after history) (.compute computation) = .error error) :
    ¬error.Inconsistent := by
  cases hcompiled : (session.after history).compiled? with
  | none =>
      rw [(compute_of_uncompiled hcompiled computation).1] at hfailed
      cases hfailed
      exact id
  | some execution =>
      obtain ⟨failure, rfl, hover⟩ := overBuffers_of_compiled hcompiled hfailed
      exact hover.not_inconsistent

theorem lifecycle (session : Session) (history : List Step) : session.Lifecycle history where
  together := session.together_after history
  runs _ _ hgraph hcompiled := runs_of_held hgraph hcompiled
  required := requiredOps_eq_nil_iff
  ready := (session.together_after history).trans (session.compiled_iff_ready history)
  uncompiled := session.notCompiled_iff history
  unheard computation hunready := by rw [perform_of_unready hunready computation]
  unlowered _ hfailed := calls_of_refused hfailed
  consistent step error hfailed hinconsistent := by
    cases step with
    | create => exact overflow_of_inconsistent hfailed hinconsistent
    | compute computation => exact absurd hinconsistent (compute_not_inconsistent hfailed)

end Session

end NetLowering

import NetLowering.Proofs.Session.Lifecycle

/-!
# A session that starts over

The log is the one thing that outlives a creation, and it is never read: every
action does the same after any earlier calls and adds the same calls to them
(`Indifferent`).  A session that creates its model anew therefore goes on as a
fresh session does, with a longer log (`after_create`).
-/

namespace NetLowering

/-! ## Actions that do not read the log -/

section Indifferent

variable {ε α β σ : Type} {shift : σ → σ}

/-- It makes no difference whether the state is shifted before the action or after it. -/
def Indifferent (shift : σ → σ) (action : ExceptT ε (StateM σ) α) : Prop :=
  ∀ state, action (shift state) = ((action state).1, shift (action state).2)

theorem indifferent_pure (value : α) :
    Indifferent shift (pure value : ExceptT ε (StateM σ) α) :=
  fun _ => rfl

theorem indifferent_throw (error : ε) :
    Indifferent shift (throw error : ExceptT ε (StateM σ) α) :=
  fun _ => rfl

theorem Indifferent.bind {first : ExceptT ε (StateM σ) α} {next : α → ExceptT ε (StateM σ) β}
    (hfirst : Indifferent shift first) (hnext : ∀ value, Indifferent shift (next value)) :
    Indifferent shift (first >>= next) := by
  intro state
  rw [bind_apply, bind_apply, hfirst state]
  rcases first state with ⟨_ | value, changed⟩
  · rfl
  · exact hnext value changed

theorem Indifferent.map {action : ExceptT ε (StateM σ) α} (f : α → β)
    (haction : Indifferent shift action) : Indifferent shift (f <$> action) := by
  rw [← bind_pure_comp]
  exact haction.bind fun _ => indifferent_pure _

theorem indifferent_forM {items : List β} {action : β → ExceptT ε (StateM σ) PUnit}
    (haction : ∀ item, Indifferent shift (action item)) :
    Indifferent shift (items.forM action) := by
  induction items with
  | nil => exact indifferent_pure _
  | cons item items ih => exact (haction item).bind fun _ => ih

end Indifferent

/-! ## Calls of the backend -/

section Calls

variable {α β σ : Type} {earlier : List Call}

/-- A state that holds the log beside something else, with earlier calls put before the log. -/
def logAfter (earlier : List Call) (state : β × List Call) : β × List Call :=
  (state.1, earlier ++ state.2)

theorem indifferent_of_whole {method : Recording σ α} {entry : α → Call}
    (hwhole : ∀ subject, method.Whole entry subject) : Indifferent (logAfter earlier) method := by
  rintro ⟨subject, calls⟩
  change method.run (subject, earlier ++ calls) =
    ((method.run (subject, calls)).1, logAfter earlier (method.run (subject, calls)).2)
  rw [hwhole subject, hwhole subject]
  rcases method.outcome subject with error | ⟨answer, changed⟩
  · rfl
  · simp [logAfter]

theorem indifferent_createCompilation :
    Indifferent (logAfter earlier) Model.createCompilation := by
  rintro ⟨model, calls⟩
  change Model.createCompilation.run (model, earlier ++ calls) =
    ((Model.createCompilation.run (model, calls)).1,
      logAfter earlier (Model.createCompilation.run (model, calls)).2)
  rw [Model.run_createCompilation, Model.run_createCompilation]
  cases model.finished <;> simp [logAfter]

theorem indifferent_call {method : Recording σ α} (hmethod : Indifferent (logAfter earlier) method)
    (subject : σ) : Indifferent (earlier ++ ·) (Session.call method subject) := by
  intro calls
  have hrun := hmethod (subject, calls)
  simp only [Session.call, ExceptT.run, logAfter] at hrun ⊢
  rw [hrun]
  rcases method (subject, calls) with ⟨_ | _, _, _⟩ <;> rfl

theorem indifferent_answerOf {method : Recording σ α}
    (hmethod : Indifferent (logAfter earlier) method) (subject : σ) :
    Indifferent (earlier ++ ·) (Session.answerOf method subject) :=
  (indifferent_call hmethod subject).map Prod.fst

theorem indifferent_changedBy {method : Recording σ Unit}
    (hmethod : Indifferent (logAfter earlier) method) (subject : σ) :
    Indifferent (earlier ++ ·) (Session.changedBy method subject) :=
  (indifferent_call hmethod subject).map Prod.snd

theorem indifferent_step {method : Recording Execution α}
    (hmethod : Indifferent (logAfter earlier) method) :
    Indifferent (logAfter earlier) (Session.step method) := by
  intro state
  change (match method (logAfter earlier state) with
    | (ended, after) => (ended.mapError SessionError.backend, after)) = _
  rw [hmethod state]
  rfl

theorem indifferent_request (request : Request) :
    Indifferent (logAfter earlier) (Graph.request recorded request) := by
  intro state
  have hperform : Indifferent (logAfter earlier) (Model.perform request) :=
    indifferent_of_whole fun model => model.perform_whole request
  have hrun := hperform state
  simp only [Graph.request, recorded, ExceptT.run]
  rw [hrun]
  rcases Model.perform request state with ⟨_ | _, _⟩ <;> rfl

theorem indifferent_emit (graph : Graph) :
    Indifferent (logAfter earlier) (graph.emit recorded) := by
  have hoperand (operand : Operand) (index : Nat) :
      Indifferent (logAfter earlier) (Graph.emitOperand recorded operand index) := by
    refine (indifferent_request _).bind fun actual => ?_
    split
    · exact indifferent_throw _
    · exact indifferent_pure _
  refine (indifferent_forM fun (operand, index) => hoperand operand index).bind fun _ => ?_
  refine (indifferent_forM fun _ => indifferent_request _).bind fun _ => ?_
  refine (indifferent_forM fun _ => indifferent_request _).bind fun _ => ?_
  refine (indifferent_forM fun _ => indifferent_request _).bind fun _ => ?_
  exact indifferent_request _

theorem indifferent_emitted (graph : Graph) (model : Model) :
    Indifferent (earlier ++ ·) (Session.emitted graph model) := by
  intro calls
  have hemit : graph.emit recorded (model, earlier ++ calls) =
      ((graph.emit recorded (model, calls)).1,
        logAfter earlier (graph.emit recorded (model, calls)).2) :=
    indifferent_emit graph (model, calls)
  simp only [Session.emitted, ExceptT.run]
  rw [hemit]
  rcases graph.emit recorded (model, calls) with ⟨_ | _, _, _⟩ <;> rfl

end Calls

/-! ## Steps of a session -/

namespace Session

variable {session : Session}

theorem indifferent_compile (session : Session) (earlier : List Call) (graph : Graph) :
    Indifferent (earlier ++ ·) (session.compile graph) := by
  refine (indifferent_answerOf (indifferent_of_whole fun _ =>
    (Model.create_achieves session.model).whole) ()).bind fun model => ?_
  refine (indifferent_emitted graph model).bind fun filled => ?_
  refine (indifferent_changedBy (indifferent_of_whole fun model =>
    model.finish_achieves.whole) filled).bind fun finished => ?_
  refine (indifferent_answerOf indifferent_createCompilation finished).bind fun compilation => ?_
  refine (indifferent_changedBy (indifferent_of_whole fun compilation =>
    (compilation.setPreference_achieves session.preference).whole) compilation).bind
      fun preferring => ?_
  refine (indifferent_changedBy (indifferent_of_whole fun compilation =>
    compilation.finish_achieves.whole) preferring).bind fun compiled => ?_
  exact indifferent_answerOf (indifferent_of_whole fun compilation =>
    compilation.createExecution_achieves.whole) compiled

theorem indifferent_run (earlier : List Call) (inputs outputs : List Buffer) :
    Indifferent (logAfter earlier) (run inputs outputs) := by
  refine (indifferent_forM fun (buffer, place) => indifferent_step (indifferent_of_whole
    fun execution => (execution.setInput_achieves _ buffer).whole)).bind fun _ => ?_
  refine (indifferent_forM fun (buffer, place) => indifferent_step (indifferent_of_whole
    fun execution => (execution.setOutput_achieves _ buffer).whole)).bind fun _ => ?_
  exact indifferent_step (indifferent_of_whole fun execution =>
    execution.startCompute_achieves.whole)

/-- The state with earlier calls before those in its log. -/
def State.preceded (earlier : List Call) (state : State) : State :=
  { state with calls := earlier ++ state.calls }

theorem create_preceded (session : Session) (earlier : List Call) (state : State) :
    session.create (state.preceded earlier) =
      ((session.create state).1, (session.create state).2.preceded earlier) := by
  cases hlower : session.net.lower session.options with
  | error error =>
      rw [create_of_unlowered hlower, create_of_unlowered hlower]
      rfl
  | ok graph =>
      have hrun : (session.compile graph).run (earlier ++ state.calls) = _ :=
        session.indifferent_compile earlier graph state.calls
      rw [create_of_lowered hlower, create_of_lowered hlower, State.preceded, hrun]
      simp only [ExceptT.run]
      rcases session.compile graph state.calls with ⟨_ | _, _⟩ <;> rfl

theorem compute_preceded (earlier : List Call) (state : State) (inputs outputs : List Buffer) :
    compute (state.preceded earlier) inputs outputs =
      ((compute state inputs outputs).1, (compute state inputs outputs).2.preceded earlier) := by
  obtain ⟨calls, graph?, compiled?⟩ := state
  cases compiled? with
  | none => rfl
  | some execution =>
      have hrun := indifferent_run earlier inputs outputs (execution, calls)
      simp only [compute, State.preceded, ExceptT.run, logAfter] at hrun ⊢
      rw [hrun]
      rcases run inputs outputs (execution, calls) with ⟨_ | _, _, _⟩ <;> rfl

/-- How a step ends, and what its output buffers hold then; a creation has none. -/
def answer (session : Session) (state : State) : Step → Outcome
  | .create => ⟨(session.create state).1, []⟩
  | .compute computation => (compute state computation.inputs computation.outputs).1

theorem answer_preceded (earlier : List Call) (state : State) (step : Step) :
    session.answer (state.preceded earlier) step = session.answer state step := by
  cases step with
  | create => rw [answer, answer, create_preceded]
  | compute computation => rw [answer, answer, compute_preceded]

theorem perform_preceded (earlier : List Call) (state : State) (step : Step) :
    session.perform (state.preceded earlier) step =
      (session.perform state step).preceded earlier := by
  cases step with
  | create => rw [perform, perform, create_preceded]
  | compute computation => rw [perform, perform, compute_preceded]

theorem foldl_preceded (earlier : List Call) (steps : List Step) (state : State) :
    steps.foldl session.perform (state.preceded earlier) =
      (steps.foldl session.perform state).preceded earlier := by
  induction steps generalizing state with
  | nil => rfl
  | cons step steps ih => rw [List.foldl_cons, List.foldl_cons, perform_preceded, ih]

/-- What a step adds to the log does not depend on the log. -/
theorem exists_added (session : Session) (state : State) (step : Step) :
    ∃ added, ∀ earlier, (session.perform (state.preceded earlier) step).calls =
      (state.preceded earlier).calls ++ added := by
  have hstate : state = { state with calls := [] }.preceded state.calls := by
    simp [State.preceded]
  refine ⟨(session.perform { state with calls := [] } step).calls, fun before => ?_⟩
  rw [perform_preceded, hstate, perform_preceded]
  simp [State.preceded]

/-! ## Creations -/

theorem create_forgets (session : Session) (state : State) :
    session.create state = session.create (State.preceded state.calls {}) := by
  have hcalls : (State.preceded state.calls {}).calls = state.calls := List.append_nil _
  cases hlower : session.net.lower session.options with
  | error error => rw [create_of_unlowered hlower, create_of_unlowered hlower, hcalls]
  | ok graph => rw [create_of_lowered hlower, create_of_lowered hlower, hcalls]

/-- After a creation, a session is where a fresh session is after its first, but for its log. -/
theorem after_create (session : Session) (history continuation : List Step) :
    session.after (history ++ .create :: continuation) =
      (session.after (.create :: continuation)).preceded (session.after history).calls := by
  have hcreate : session.perform (session.after history) .create =
      (session.perform {} .create).preceded (session.after history).calls := by
    rw [perform, create_forgets, create_preceded, perform]
  rw [after, List.foldl_append, List.foldl_cons]
  change continuation.foldl session.perform (session.perform (session.after history) .create) = _
  rw [hcreate, foldl_preceded]
  rfl

/-- Whatever came before it, a creation is like the first one of a fresh session, and so is all
that comes after it. -/
theorem create_afresh (session : Session) (history : List Step) :
    session.answer (session.after history) .create = session.answer {} .create ∧
      (session.after (history ++ [.create])).calls =
        (session.after history).calls ++ (session.after [.create]).calls ∧
      (session.after (history ++ [.create])).graph? = (session.after [.create]).graph? ∧
      ∀ continuation step,
        session.answer (session.after (history ++ .create :: continuation)) step =
            session.answer (session.after (.create :: continuation)) step ∧
          (session.after (history ++ .create :: continuation)).graph? =
            (session.after (.create :: continuation)).graph? ∧
          ∃ added,
            (session.after (history ++ .create :: continuation ++ [step])).calls =
                (session.after (history ++ .create :: continuation)).calls ++ added ∧
              (session.after (.create :: continuation ++ [step])).calls =
                (session.after (.create :: continuation)).calls ++ added := by
  refine ⟨?_, ?_, ?_, fun continuation step => ?_⟩
  · rw [answer, answer, create_forgets, create_preceded]
  · rw [after_create]
    rfl
  · rw [after_create]
    rfl
  · obtain ⟨added, hadded⟩ := session.exists_added (session.after (.create :: continuation)) step
    refine ⟨?_, ?_, added, ?_, ?_⟩
    · rw [after_create, answer_preceded]
    · rw [after_create]
      rfl
    · rw [after_concat, after_create]
      exact hadded _
    · rw [after_concat]
      exact hadded []

end Session

end NetLowering

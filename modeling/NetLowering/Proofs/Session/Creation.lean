import NetLowering.Proofs.Emission.Restriction
import NetLowering.Proofs.Lowering.Operators
import NetLowering.Proofs.Session.Compiling

/-!
# How a creation ends

A creation fails over the net, before the backend hears of it, or over an
operand or an operation while the model is filled.  What comes after that
cannot fail: a filled model is finished once, its compilation as well, and the
ends of the graph have types for the execution.
-/

namespace NetLowering

/-! ## Filled models -/

namespace Graph

def type? (graph : Graph) (id : OperandId) : Option OperandType :=
  (graph.operand? id).map (·.type)

variable {graph : Graph}

theorem operand_filled (options : ModelOptions) (hplaces : graph.operands.length ≤ 2 ^ 32)
    {id : OperandId} (howned : graph.Owns id) :
    ∃ type, (graph.filled options).operand id.word = .ok type ∧ graph.type? id = some type := by
  obtain ⟨operand, hoperand⟩ := Option.isSome_iff_exists.mp (contains_iff.mpr howned)
  have hlisted : graph.operands[id.index]? = some operand := by
    rwa [operand?, howned.1] at hoperand
  refine ⟨operand.type, Model.operand_eq_ok_iff.mpr ?_, by rw [type?, hoperand]; rfl⟩
  rw [OperandId.toNat_word (Nat.lt_of_lt_of_le howned.2 hplaces), filled, List.getElem?_map,
    hlisted]
  rfl

theorem types_filled (options : ModelOptions) (hplaces : graph.operands.length ≤ 2 ^ 32)
    {ids : List OperandId} (howned : ∀ id ∈ ids, graph.Owns id) :
    ∃ types, (indices ids).mapM (graph.filled options).operand = .ok types ∧
      types.map some = ids.map graph.type? := by
  induction ids with
  | nil => exact ⟨[], rfl, rfl⟩
  | cons id ids ih =>
      obtain ⟨type, hfirst, htype⟩ := operand_filled options hplaces (howned id (by simp))
      obtain ⟨types, hrest, htypes⟩ := ih fun other hother => howned other (by simp [hother])
      refine ⟨type :: types, ?_, by simp [htype, htypes]⟩
      change ((id.word :: indices ids).mapM _) = _
      rw [List.mapM_cons, hfirst, hrest]
      rfl

end Graph

/-! ## Compilations -/

/-- The inputs and outputs of the execution are those of the graph. -/
structure Execution.Runs (execution : Execution) (graph : Graph) : Prop where
  inputs : execution.inputTypes.map some = graph.inputs.map graph.type?
  outputs : execution.outputTypes.map some = graph.outputs.map graph.type?

def Execution.Blank (execution : Execution) : Prop :=
  execution.inputs = execution.inputTypes.map (fun _ => none) ∧
    execution.outputs = execution.outputTypes.map (fun _ => none)

theorem Compilation.blank_blankExecution (compilation : Compilation) :
    compilation.blankExecution.Blank :=
  ⟨rfl, rfl⟩

namespace Session

variable {session : Session} {graph : Graph}

/-- The ways for a compilation of a graph to end: it is refused while the model is filled, or not
at all. -/
inductive Compiles (graph : Graph) : Except SessionError Execution → Prop
  | refused {error : BackendError} (refusal : error.OverContent) :
      Compiles graph (.error (.backend error))
  | overflowed (many : 2 ^ 32 < graph.operands.length) :
      Compiles graph (.error (.idMismatch (2 ^ 32) 0))
  | compiled {execution : Execution} (runs : execution.Runs graph) (blank : execution.Blank) :
      Compiles graph (.ok execution)

theorem resolveEnds_filled (options : ModelOptions) (hvalid : graph.unknown? = none)
    (hplaces : graph.operands.length ≤ 2 ^ 32) :
    ∃ inputs outputs, (graph.filled options).resolveEnds = .ok { inputs, outputs } ∧
      inputs.map some = graph.inputs.map graph.type? ∧
      outputs.map some = graph.outputs.map graph.type? := by
  obtain ⟨-, -, -, hends⟩ := Graph.owns_of_valid hvalid
  rw [List.forall_mem_append] at hends
  obtain ⟨inputs, hinputs, hinputTypes⟩ := graph.types_filled options hplaces hends.1
  obtain ⟨outputs, houtputs, houtputTypes⟩ := graph.types_filled options hplaces hends.2
  refine ⟨inputs, outputs, ?_, hinputTypes, houtputTypes⟩
  change ((Graph.indices graph.inputs).mapM (graph.filled options).operand >>= fun _ =>
    (Graph.indices graph.outputs).mapM (graph.filled options).operand >>= _) = _
  rw [hinputs, houtputs]
  rfl

theorem yields_compile (session : Session) (hvalid : graph.unknown? = none) :
    ∃ result, Yields (session.compile graph) result ∧ Compiles graph result := by
  refine ⟨_, (yields_answerOf (Model.create_achieves session.model).whole).bind fun model =>
    (yields_emitted graph model).bind fun filled =>
    (yields_changedBy filled.finish_achieves.whole).bind fun finished =>
    (yields_createCompilation finished).bind fun compilation =>
    (yields_changedBy (compilation.setPreference_achieves session.preference).whole).bind
      fun preferring =>
    (yields_changedBy preferring.finish_achieves.whole).bind fun compiled =>
    yields_answerOf compiled.createExecution_achieves.whole, ?_⟩
  rw [(Model.create_achieves session.model).outcome_eq]
  change Compiles graph ((Model.ofOptions session.model).fill 0 graph.requests >>= _)
  by_cases hplaces : graph.operands.length ≤ 2 ^ 32
  · rcases Graph.fill_requests session.model hvalid hplaces with hfill | ⟨error, hfill, hrefusal⟩
    · obtain ⟨inputs, outputs, hresolved, hinputs, houtputs⟩ :=
        resolveEnds_filled session.model hvalid hplaces
      -- The model is finished, compiled and executed for the first time, so nothing is refused.
      have hfinish : Model.finish.outcome (graph.filled session.model) =
          .ok ((), { graph.filled session.model with finished := true }) :=
        (graph.filled session.model).finish_achieves.outcome_eq
      have hcreate :
          Model.createCompilation.outcome { graph.filled session.model with finished := true } =
            .ok ({ inputs, outputs }, { graph.filled session.model with finished := true }) :=
        Model.outcome_createCompilation rfl hresolved
      rw [hfill, Checked.ok_bind, hfinish]
      change Compiles graph ((((Model.createCompilation.outcome
        { graph.filled session.model with finished := true }).mapError _).map _) >>= _)
      rw [hcreate]
      exact .compiled ⟨hinputs, houtputs⟩ (Compilation.blank_blankExecution _)
    · rw [hfill]
      exact .refused hrefusal
  · rw [Graph.fill_requests_of_many session.model (Nat.lt_of_not_le hplaces)]
    exact .overflowed (Nat.lt_of_not_le hplaces)

/-! ## Creations -/

theorem create_of_unlowered {error : LoweringError}
    (hlower : session.net.lower session.options = .error error) (state : State) :
    session.create state = (.error (.lowering error), { calls := state.calls }) := by
  rw [create, hlower]
  rfl

theorem create_of_lowered (hlower : session.net.lower session.options = .ok graph)
    (state : State) :
    session.create state =
      match (session.compile graph).run state.calls with
      | (.ok execution, calls) => (.ok (), { calls, graph? := graph, compiled? := execution })
      | (.error error, calls) => (.error error, { calls }) := by
  rw [create, hlower]
  change ((logging (session.compile graph) >>= fun execution => _) { calls := state.calls }) = _
  rw [bind_apply, logging]
  rcases (session.compile graph).run state.calls with ⟨_ | execution, calls⟩ <;> rfl

/-- The ways for the creations of a session to end, of which each ends like the others. -/
inductive Created (session : Session) : Except SessionError (Graph × Execution) → Prop
  | unlowered {error : LoweringError} (lowered : session.net.lower session.options = .error error) :
      session.Created (.error (.lowering error))
  | uncompiled {graph : Graph} {error : SessionError}
      (lowered : session.net.lower session.options = .ok graph)
      (compiles : Compiles graph (.error error)) : session.Created (.error error)
  | compiled {graph : Graph} {execution : Execution}
      (lowered : session.net.lower session.options = .ok graph) (runs : execution.Runs graph)
      (blank : execution.Blank) : session.Created (.ok (graph, execution))

/-- What a session holds once a creation has ended so. -/
def State.ofCreation (calls : List Call) (result : Except SessionError (Graph × Execution)) :
    State where
  calls := calls
  graph? := result.toOption.map Prod.fst
  compiled? := result.toOption.map Prod.snd

theorem create_eq (session : Session) :
    ∃ result, session.Created result ∧ ∀ state, ∃ calls,
      session.create state = (result.map fun _ => (), .ofCreation calls result) ∧
      ((∃ error, session.net.lower session.options = .error error) → calls = state.calls) := by
  cases hlower : session.net.lower session.options with
  | error error =>
      exact ⟨_, .unlowered hlower, fun state =>
        ⟨_, create_of_unlowered hlower state, fun _ => rfl⟩⟩
  | ok graph =>
      obtain ⟨-, -, -, -, -, -, -, -, -, -, -, -, -, hvalid⟩ := FlatNet.lower_eq_ok_iff.mp hlower
      obtain ⟨result, hyields, hcompiles⟩ := session.yields_compile hvalid
      refine ⟨result.map (graph, ·), ?_, fun state => ?_⟩
      · cases hcompiles with
        | refused hrefusal => exact .uncompiled hlower (.refused hrefusal)
        | overflowed hmany => exact .uncompiled hlower (.overflowed hmany)
        | compiled hruns hblank => exact .compiled hlower hruns hblank
      · obtain ⟨calls, hrun⟩ := hyields state.calls
        refine ⟨calls, ?_, by simp⟩
        rw [create_of_lowered hlower, hrun]
        cases result <;> rfl

end Session

end NetLowering

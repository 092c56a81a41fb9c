import NetLowering.Proofs.Emission.Filling
import NetLowering.Session

/-!
# Compiling does not look back

An action yields a result when it has that result whatever the log is that it
extends.  Every step of a compilation yields one, so a session compiles to the
same thing whenever it does.
-/

namespace NetLowering

variable {σ α β : Type}

namespace Session

/-! ## Yielding -/

/-- The action has this result whatever has been recorded before it. -/
def Yields (action : Action α) (result : Except SessionError α) : Prop :=
  ∀ calls, ∃ longer, action.run calls = (result, longer)

theorem Yields.bind {first : Action α} {next : α → Action β} {outcome : Except SessionError α}
    {after : α → Except SessionError β} (hfirst : Yields first outcome)
    (hnext : ∀ value, Yields (next value) (after value)) :
    Yields (first >>= next) (outcome >>= after) := by
  intro calls
  obtain ⟨longer, hrun⟩ := hfirst calls
  have hbind := bind_apply first next calls
  rw [show first calls = (outcome, longer) from hrun] at hbind
  cases outcome with
  | error error => exact ⟨longer, hbind⟩
  | ok value =>
      obtain ⟨further, hafter⟩ := hnext value longer
      exact ⟨further, hbind.trans hafter⟩

theorem Yields.map {action : Action α} {result : Except SessionError α} (f : α → β)
    (hyields : Yields action result) : Yields (f <$> action) (result.map f) := by
  intro calls
  obtain ⟨longer, hrun⟩ := hyields calls
  refine ⟨longer, ?_⟩
  rw [ExceptT.run_map]
  change ((f <$> (action.run calls).1 : Except SessionError β), (action.run calls).2) = _
  rw [hrun]
  rfl

/-! ## Calls -/

section Calls

variable {method : Recording σ α} {entry : α → Call} {subject : σ}

theorem call_eq (hwhole : method.Whole entry subject) (calls : List Call) :
    (call method subject).run calls =
      match method.outcome subject with
      | .ok (answer, changed) => (.ok (answer, changed), calls ++ [entry answer])
      | .error error => (.error (.backend error), calls) := by
  change call method subject calls = _
  rw [call, hwhole calls]
  rcases method.outcome subject with error | ⟨answer, changed⟩ <;> rfl

theorem yields_call (hwhole : method.Whole entry subject) :
    Yields (call method subject) ((method.outcome subject).mapError .backend) := by
  intro calls
  rw [call_eq hwhole]
  rcases method.outcome subject with error | ⟨answer, changed⟩ <;> exact ⟨_, rfl⟩

theorem yields_answerOf (hwhole : method.Whole entry subject) :
    Yields (answerOf method subject)
      (((method.outcome subject).mapError .backend).map Prod.fst) :=
  (yields_call hwhole).map Prod.fst

theorem yields_changedBy {method : Recording σ Unit} {entry : Unit → Call}
    (hwhole : method.Whole entry subject) :
    Yields (changedBy method subject)
      (((method.outcome subject).mapError .backend).map Prod.snd) :=
  (yields_call hwhole).map Prod.snd

/-- Whether the ends of the model are found or not does not depend on the log. -/
theorem yields_createCompilation (model : Model) :
    Yields (answerOf Model.createCompilation model)
      (((Model.createCompilation.outcome model).mapError .backend).map Prod.fst) := by
  suffices hcall : Yields (call Model.createCompilation model)
      ((Model.createCompilation.outcome model).mapError .backend) from hcall.map Prod.fst
  intro calls
  change ∃ longer, call Model.createCompilation model calls = _
  rw [call, Recording.outcome, Model.run_createCompilation, Model.run_createCompilation]
  cases model.finished with
  | false => exact ⟨calls, rfl⟩
  | true => cases model.resolveEnds <;> exact ⟨calls ++ [.createCompilation], rfl⟩

end Calls

theorem yields_emitted (graph : Graph) (model : Model) :
    Yields (emitted graph model) (model.fill 0 graph.requests) := by
  intro calls
  obtain ⟨filled, longer, hrun, hfilled⟩ := graph.emit_recorded model calls
  refine ⟨longer, ?_⟩
  change emitted graph model calls = _
  rw [emitted, hrun]
  cases hfill : model.fill 0 graph.requests with
  | error error => rfl
  | ok final =>
      cases hfilled final hfill
      rfl

end Session

end NetLowering

import NetLowering.Backend.Recording

/-!
# Calls in one piece

A call may change its subject and the log step by step, and what it has done stays done when it
is refused later on.  Almost every call of the backend is made in one piece all the same:
`Recording.Achieves` says that under any log it either changes its subject, answers and makes its
one entry, or is refused and leaves both as they were.
-/

namespace NetLowering.Recording

variable {σ α β : Type}

/-! ## Running -/

section Run

variable (entry : σ × List Call)

theorem run_subject_bind (next : σ → Recording σ β) :
    (subject >>= next).run entry = (next entry.1).run entry := rfl

theorem run_check_bind (outcome : Except BackendError α) (next : α → Recording σ β) :
    ((liftM outcome : Recording σ α) >>= next).run entry =
      match outcome with
      | .ok value => (next value).run entry
      | .error error => (.error error, entry) := by
  cases outcome <;> rfl

theorem run_throw_bind (error : BackendError) (next : α → Recording σ β) :
    ((throw error : Recording σ α) >>= next).run entry = (.error error, entry) := rfl

theorem run_change_bind (update : σ → σ) (next : Unit → Recording σ β) :
    (change update >>= next).run entry = (next ()).run (update entry.1, entry.2) := rfl

theorem run_record_bind (call : Call) (next : Unit → Recording σ β) :
    (record call >>= next).run entry = (next ()).run (entry.1, entry.2 ++ [call]) := rfl

theorem run_record (call : Call) :
    (record call : Recording σ Unit).run entry = (.ok (), entry.1, entry.2 ++ [call]) := rfl

theorem run_ite (condition : Prop) [Decidable condition] (first second : Recording σ α) :
    (if condition then first else second).run entry =
      if condition then first.run entry else second.run entry :=
  apply_ite (fun method : Recording σ α => method.run entry) _ _ _

end Run

/-! ## Outcomes -/

/-- What a call answers and makes of its subject, or why it is refused. -/
def outcome (method : Recording σ α) (subject : σ) : Except BackendError (α × σ) :=
  match method.run (subject, []) with
  | (.ok answer, changed, _) => .ok (answer, changed)
  | (.error error, _, _) => .error error

/-- Whatever the log, the call has this outcome: it makes its one entry, or it is refused and
changes nothing. -/
def Achieves (method : Recording σ α) (entry : α → Call) (subject : σ)
    (result : Except BackendError (α × σ)) : Prop :=
  ∀ calls, method.run (subject, calls) =
    match result with
    | .ok (answer, changed) => (.ok answer, changed, calls ++ [entry answer])
    | .error error => (.error error, subject, calls)

/-- The call is made in one piece. -/
def Whole (method : Recording σ α) (entry : α → Call) (subject : σ) : Prop :=
  method.Achieves entry subject (method.outcome subject)

variable {method : Recording σ α} {entry : α → Call} {subject : σ}
  {result : Except BackendError (α × σ)}

theorem Achieves.outcome_eq (hachieves : method.Achieves entry subject result) :
    method.outcome subject = result := by
  rw [outcome, hachieves]
  rcases result with error | ⟨answer, changed⟩ <;> rfl

theorem Achieves.whole (hachieves : method.Achieves entry subject result) :
    method.Whole entry subject := by
  rw [Whole, hachieves.outcome_eq]
  exact hachieves

theorem Whole.run_of_ok (hwhole : method.Whole entry subject) {answer : α} {changed : σ}
    (hgranted : method.outcome subject = .ok (answer, changed)) (calls : List Call) :
    method.run (subject, calls) = (.ok answer, changed, calls ++ [entry answer]) := by
  rw [hwhole calls, hgranted]

theorem Whole.run_of_error (hwhole : method.Whole entry subject) {error : BackendError}
    (hrefused : method.outcome subject = .error error) (calls : List Call) :
    method.run (subject, calls) = (.error error, subject, calls) := by
  rw [hwhole calls, hrefused]

end NetLowering.Recording

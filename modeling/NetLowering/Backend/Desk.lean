import NetLowering.Backend.Model

/-!
# Calling the backend by hand

A desk holds at most one model, one compilation and one execution, each the
last that was created, and the log that they share.  A command is carried out
on the one it is meant for; where there is none it is refused.
-/

namespace NetLowering

structure Desk where
  calls : List Call := []
  model : Option Model := none
  compilation : Option Compilation := none
  execution : Option Execution := none
deriving DecidableEq

inductive Command where
  | createModel (options : ModelOptions)
  | request (request : Request)
  | finish
  | createCompilation
  | setPreference (preference : Preference)
  | finishCompilation
  | createExecution
  | setInput (index : UInt32) (buffer : Buffer)
  | setOutput (index : UInt32) (buffer : Buffer)
  | startCompute
  | output (index : UInt32)
deriving DecidableEq

inductive Reply where
  | done
  /-- The index of a new operand. -/
  | added (index : UInt32)
  /-- The result at the index that was asked for, if there is one. -/
  | result (buffer : Option Buffer)
deriving DecidableEq

def Reply.ofAnswer : (request : Request) → request.Answer → Reply
  | .addOperand _, index => .added index
  | .setValue _ _, _ | .setChannelQuant _ _, _ | .addOperation _ _ _, _ | .identify _ _, _ => .done

inductive DeskError where
  /-- The command is meant for something that has not been created. -/
  | nothingThere
  | backend (error : BackendError)
deriving DecidableEq, Repr

namespace Desk

def withModel (desk : Desk) (model : Model) : Desk := { desk with model := some model }

def withCompilation (desk : Desk) (compilation : Compilation) : Desk :=
  { desk with compilation := some compilation }

def withExecution (desk : Desk) (execution : Execution) : Desk :=
  { desk with execution := some execution }

/-- What is passed on has no place on the desk. -/
def passing (desk : Desk) (_ : α) : Desk := desk

/-- Calls something that has to be there, under the desk's log.  It goes back to the desk as the
call has left it, refused or not, and an answer is put away behind it. -/
def call (desk : Desk) (subject : Option σ) (method : Recording σ α) (back : Desk → σ → Desk)
    (put : Desk → α → Desk) (reply : α → Reply) : Except DeskError Reply × Desk :=
  match subject with
  | none => (.error .nothingThere, desk)
  | some subject =>
    match method.run (subject, desk.calls) with
    | (.ok answer, changed, calls) =>
      (.ok (reply answer), put (back { desk with calls } changed) answer)
    | (.error error, changed, calls) => (.error (.backend error), back { desk with calls } changed)

def callModel (desk : Desk) (method : Recording Model α) :
    (Desk → α → Desk) → (α → Reply) → Except DeskError Reply × Desk :=
  desk.call desk.model method withModel

def callCompilation (desk : Desk) (method : Recording Compilation α) :
    (Desk → α → Desk) → (α → Reply) → Except DeskError Reply × Desk :=
  desk.call desk.compilation method withCompilation

def callExecution (desk : Desk) (method : Recording Execution α) :
    (Desk → α → Desk) → (α → Reply) → Except DeskError Reply × Desk :=
  desk.call desk.execution method withExecution

def perform (desk : Desk) : Command → Except DeskError Reply × Desk
  | .createModel options =>
    desk.call (some ()) (Model.create options) passing withModel fun _ => .done
  | .request request => desk.callModel (Model.perform request) passing (Reply.ofAnswer request)
  | .finish => desk.callModel Model.finish passing fun _ => .done
  | .createCompilation =>
    desk.callModel Model.createCompilation withCompilation fun _ => .done
  | .setPreference preference =>
    desk.callCompilation (Compilation.setPreference preference) passing fun _ => .done
  | .finishCompilation => desk.callCompilation Compilation.finish passing fun _ => .done
  | .createExecution =>
    desk.callCompilation Compilation.createExecution withExecution fun _ => .done
  | .setInput index buffer =>
    desk.callExecution (Execution.setInput index buffer) passing fun _ => .done
  | .setOutput index buffer =>
    desk.callExecution (Execution.setOutput index buffer) passing fun _ => .done
  | .startCompute => desk.callExecution Execution.startCompute passing fun _ => .done
  | .output index => desk.callExecution (Execution.output index) passing .result

end Desk

end NetLowering

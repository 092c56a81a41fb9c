import NetLowering.Backend.Desk

/-!
# Calling one backend from many hands

A workshop holds everything that has been created on one backend, in the order
of creation, and the log that it all shares.  An errand takes one thing to a
desk, carries out one command on it there and puts it back, with what has been
created behind what was there before.
-/

namespace NetLowering

inductive CommandKind where
  /-- For the backend itself. -/
  | backend
  | model
  | compilation
  | execution
deriving DecidableEq, Repr

def Command.kind : Command → CommandKind
  | .createModel _ => .backend
  | .request _ | .finish | .createCompilation => .model
  | .setPreference _ | .finishCompilation | .createExecution => .compilation
  | .setInput _ _ | .setOutput _ _ | .startCompute | .output _ => .execution

structure Workshop where
  calls : List Call := []
  models : List Model := []
  compilations : List Compilation := []
  executions : List Execution := []
deriving DecidableEq

/-- A command, and the number of what it is meant for among all of that kind. -/
structure Errand where
  subject : Nat
  command : Command
deriving DecidableEq

namespace Workshop

/-- A desk with nothing but what the errand is about. -/
def desk (workshop : Workshop) (errand : Errand) : Desk where
  calls := workshop.calls
  model := if errand.command.kind = .model then workshop.models[errand.subject]? else none
  compilation :=
    if errand.command.kind = .compilation then workshop.compilations[errand.subject]? else none
  execution :=
    if errand.command.kind = .execution then workshop.executions[errand.subject]? else none

/-- What was taken goes back to its place, and what was not there before goes to the end. -/
def putBack (things : List β) (place : Nat) (taken returned : Option β) : List β :=
  match taken with
  | some _ => returned.elim things (things.set place)
  | none => things ++ returned.toList

def clear (workshop : Workshop) (errand : Errand) (left : Desk) : Workshop :=
  let desk := workshop.desk errand
  { calls := left.calls
    models := putBack workshop.models errand.subject desk.model left.model
    compilations :=
      putBack workshop.compilations errand.subject desk.compilation left.compilation
    executions := putBack workshop.executions errand.subject desk.execution left.execution }

def perform (workshop : Workshop) (errand : Errand) : Except DeskError Reply × Workshop :=
  let (answer, left) := (workshop.desk errand).perform errand.command
  (answer, workshop.clear errand left)

end Workshop

end NetLowering

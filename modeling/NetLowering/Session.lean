import NetLowering.Emission
import NetLowering.Lowering

/-!
# Sessions

A session lowers a flat net, compiles it on the recording backend and computes
with it.  Creating the compiled model starts over: whatever was compiled before
is gone, and only a creation that succeeds leaves something to compute with.
-/

namespace NetLowering

structure Session where
  net : FlatNet
  options : LoweringOptions := {}
  model : ModelOptions := {}
  preference : Preference := .fastSingleAnswer
deriving DecidableEq

namespace Session

/-- What a session holds of the last creation, if it succeeded, and the log of its backend. -/
structure State where
  calls : List Call := []
  graph? : Option Graph := none
  compiled? : Option Execution := none
deriving DecidableEq

def State.requiredOps (state : State) : List OperationCode :=
  (state.graph?.map Graph.requiredOps).getD []

/-! ## Compiling -/

abbrev Action := ExceptT SessionError (StateM (List Call))

/-- Calls something and keeps it as the call leaves it. -/
def call (method : Recording σ α) (subject : σ) : Action (α × σ) := fun calls =>
  match method.run (subject, calls) with
  | (.ok answer, changed, longer) => (.ok (answer, changed), longer)
  | (.error error, _, longer) => (.error (.backend error), longer)

def answerOf (method : Recording σ α) (subject : σ) : Action α := Prod.fst <$> call method subject

def changedBy (method : Recording σ Unit) (subject : σ) : Action σ :=
  Prod.snd <$> call method subject

def emitted (graph : Graph) (model : Model) : Action Model := fun calls =>
  match (graph.emit recorded).run (model, calls) with
  | (.ok (), filled, longer) => (.ok filled, longer)
  | (.error error, _, longer) => (.error error, longer)

def compile (session : Session) (graph : Graph) : Action Execution := do
  let model ← answerOf (Model.create session.model) ()
  let filled ← emitted graph model
  let finished ← changedBy Model.finish filled
  let compilation ← answerOf Model.createCompilation finished
  let preferring ← changedBy (Compilation.setPreference session.preference) compilation
  let compiled ← changedBy Compilation.finish preferring
  answerOf Compilation.createExecution compiled

/-- Nothing but the log of a state is touched by an action. -/
def logging (action : Action α) : ExceptT SessionError (StateM State) α := fun state =>
  let (outcome, calls) := action.run state.calls
  (outcome, { state with calls })

def create (session : Session) : ExceptT SessionError (StateM State) Unit := do
  modify fun state => { state with graph? := none, compiled? := none }
  let graph ← (session.net.lower session.options).mapError SessionError.lowering
  let execution ← logging (session.compile graph)
  modify fun state => { state with graph? := some graph }
  modify fun state => { state with compiled? := some execution }

/-! ## Computing -/

/-- Calls on an execution, which stays as far as it got when one is refused. -/
abbrev Running := ExceptT SessionError (StateM (Execution × List Call))

def step (method : Recording Execution α) : Running α := method.adapt .backend

/-- Sets the inputs, then the outputs, each by its place in the list, and computes. -/
def run (inputs outputs : List Buffer) : Running Unit := do
  inputs.zipIdx.forM fun (buffer, place) => step (Execution.setInput (.ofNat place) buffer)
  outputs.zipIdx.forM fun (buffer, place) => step (Execution.setOutput (.ofNat place) buffer)
  step Execution.startCompute

/-- Copies the results from `place` on over the buffers, as far as they match. -/
def collect (execution : Execution) (place : Nat) :
    List Buffer → Except SessionError Unit × List Buffer
  | [] => (.ok (), [])
  | buffer :: rest =>
    match execution.output? (.ofNat place) with
    | none => (.error (.backend (.badIndex (.ofNat place))), buffer :: rest)
    | some result =>
      match buffer.overwrite? result with
      | none => (.error (.outputMismatch place), buffer :: rest)
      | some copied =>
        let (status, others) := collect execution (place + 1) rest
        (status, copied :: others)

/-- How a computation ended and what the output buffers hold after it. -/
structure Outcome where
  status : Except SessionError Unit
  outputs : List Buffer

def compute (state : State) (inputs outputs : List Buffer) : Outcome × State :=
  match state.compiled? with
  | none => (⟨.error .notCompiled, outputs⟩, state)
  | some execution =>
    let (ended, execution, calls) := (run inputs outputs).run (execution, state.calls)
    let after : State := { state with calls, compiled? := some execution }
    match ended with
    | .error error => (⟨.error error, outputs⟩, after)
    | .ok () =>
      let (status, collected) := collect execution 0 outputs
      (⟨status, collected⟩, after)

end Session

end NetLowering

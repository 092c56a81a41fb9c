import NetLowering.CommandLine.Usage
import NetLowering.Load
import NetLowering.Session

/-!
# The command line

The command loads a predict net and its initializer net, compiles them and
prints the graph, the operations it needs and the number of backend calls; with
`--run` it also computes once on zeros and prints the outputs.  A command that
is refused prints nothing; one that fails has printed what came before.
-/

namespace NetLowering.CommandLine

/-- How a command ends: its exit status and the lines it has printed. -/
structure Outcome where
  status : Nat
  printed : List String
deriving DecidableEq, Repr

def Stop.outcome : Stop → Outcome
  | .refused => ⟨1, []⟩
  | .inquiry question => ⟨0, question.answer⟩

def failed (printed : List String) : Outcome := ⟨101, printed⟩

namespace Options

/-- The paths that are read, if they can be told. -/
def paths (options : Options) : List String :=
  options.predict :: (options.init.or (PathName.initPath? options.predict)).toList

def load (options : Options) (files : Files) : Except LoadError FlatNet :=
  let loadOptions : LoadOptions :=
    { quantized := options.quantized, signedRemap := options.signed }
  match options.init with
  | some init => FlatNet.ofFiles loadOptions files options.predict init
  | none => FlatNet.ofPair loadOptions files options.predict

def session (options : Options) (net : FlatNet) : Session where
  net
  options := {
    quantized := options.quantized
    signedRemap := options.signed
    inputSize := options.inputSize
    softmax := if options.emitSoftmax then .emit else .skip }

/-- Zeros for an operand, in the type that its code and the command ask for. -/
def zeros (options : Options) (type : OperandType) : Buffer :=
  let elem :=
    if !type.code.isQuantized then .float32
    else if options.signed then .int8
    else .uint8
  .zeros elem type.elements

def buffers (options : Options) (graph : Graph) (ids : List OperandId) : List Buffer :=
  (ids.filterMap graph.operand?).map fun operand => options.zeros operand.type

def summary (state : Session.State) (graph : Graph) : List String :=
  [graph.render, s!"required ops: {OperationCode.renderList state.requiredOps}",
    s!"backend calls: {state.calls.length}"]

def renderOutputs (outputs : List Buffer) : List String :=
  outputs.mapIdx fun index output => s!"output {index}: {output.render}"

def compute (options : Options) (state : Session.State) (graph : Graph) : Outcome :=
  let printed := summary state graph
  let outcome :=
    (Session.compute state (options.buffers graph graph.inputs)
      (options.buffers graph graph.outputs)).1
  match outcome.status with
  | .ok () => ⟨0, printed ++ renderOutputs outcome.outputs⟩
  | .error _ => failed printed

def execute (options : Options) (files : Files) : Outcome :=
  match options.load files with
  | .error _ => failed []
  | .ok net =>
    let (_, state) := (options.session net).create {}
    match state.graph? with
    | none => failed []
    | some graph =>
      if options.run then options.compute state graph else ⟨0, summary state graph⟩

end Options

def execute (files : Files) (arguments : List String) : Outcome :=
  match parse arguments with
  | .ok options => options.execute files
  | .error stop => stop.outcome

def Outcome.stdout (outcome : Outcome) : String :=
  String.join (outcome.printed.map (· ++ "\n"))

end NetLowering.CommandLine

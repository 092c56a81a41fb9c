import NetLowering.Backend.Request

/-!
# Recording calls

The reference backend keeps a log of the calls it has carried out, shared by
all its models, compilations and executions.  A recording is a call of one of
them: it may change its subject and add to the log, and what it has done to
either stays done when it is refused after that.
-/

namespace NetLowering

inductive Call where
  | createModel (options : ModelOptions)
  | addOperand (type : OperandType) (index : UInt32)
  | setValue (index : UInt32) (value : Buffer)
  | setChannelQuant (index : UInt32) (quant : ChannelQuant)
  | addOperation (code : OperationCode) (inputs outputs : List UInt32)
  | identify (inputs outputs : List UInt32)
  | finish
  | createCompilation
  | setPreference (preference : Preference)
  | finishCompilation
  | createExecution
  | setInput (index : UInt32) (buffer : Buffer)
  | setOutput (index : UInt32)
  | startCompute
deriving DecidableEq

namespace Call

private def renderIndices (indices : List UInt32) : String :=
  Text.bracketed (indices.map fun index => toString index)

def render : Call → String
  | createModel options =>
    s!"create_model eager={options.eager} " ++
      s!"supported_ops={OperationCode.renderList options.supported}"
  | addOperand type index => s!"add_operand {type.render} -> {index}"
  | setValue index value => s!"set_operand_value {index} {value.render}"
  | setChannelQuant index quant =>
    s!"set_operand_symm_per_channel_quant_params {index} " ++
      s!"dim={quant.channelDim.toNat} scales={renderScales quant.scales}"
  | addOperation code inputs outputs =>
    s!"add_operation {code.name} {renderIndices inputs} -> {renderIndices outputs}"
  | identify inputs outputs =>
    s!"identify_inputs_and_outputs {renderIndices inputs} -> {renderIndices outputs}"
  | finish => "finish"
  | createCompilation => "create_compilation"
  | setPreference preference => s!"set_preference {preference.label}"
  | finishCompilation => "compilation_finish"
  | createExecution => "create_execution"
  | setInput index buffer => s!"set_input {index} {buffer.render}"
  | setOutput index => s!"set_output {index}"
  | startCompute => "start_compute"

def ofRequest : (request : Request) → request.Answer → Call
  | .addOperand type, index => addOperand type index
  | .setValue index value, _ => setValue index value
  | .setChannelQuant index quant, _ => setChannelQuant index quant
  | .addOperation code inputs outputs, _ => addOperation code inputs outputs
  | .identify inputs outputs, _ => identify inputs outputs

end Call

/-- A call of something in a state `σ`, under the log. -/
abbrev Recording (σ : Type) := ExceptT BackendError (StateM (σ × List Call))

namespace Recording

def subject : Recording σ σ := return (← get).1

def change (update : σ → σ) : Recording σ Unit :=
  modify fun (subject, calls) => (update subject, calls)

def record (call : Call) : Recording σ Unit :=
  modify fun (subject, calls) => (subject, calls ++ [call])

end Recording

end NetLowering

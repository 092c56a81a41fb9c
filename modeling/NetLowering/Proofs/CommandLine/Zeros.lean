import NetLowering.CommandLine
import NetLowering.Proofs.Session.Fresh

/-!
# The command computes on zeros

The command makes the zeros for an operand from the code of the operand and from what it
is asked for itself, while the backend goes by the code alone.  Of all that a net can have
at its ends the two disagree on one thing: a bias in a quantized graph holds integers, and
the command offers floats for it.
-/

namespace NetLowering.CommandLine

open Session (Step)

/-- Of the tensors, only those of integers do not take their zeros. -/
theorem takesValue_zeros_iff (options : Options) {type : OperandType}
    (htensor : type.code.isTensor = true) :
    type.TakesValue (options.zeros type) ↔ type.code ≠ .tensorInt32 := by
  rw [OperandType.takesValue_iff, Options.zeros, Buffer.elemType_zeros, Buffer.size_zeros,
    and_iff_left rfl]
  cases hcode : type.code with
  | float32 | int32 | uint32 =>
      rw [hcode] at htensor
      cases htensor
  | tensorFloat32 | tensorInt32 | tensorQuant8Asymm | tensorQuant8SymmPerChannel
  | tensorQuant8AsymmSigned => cases options.signed <;> decide

/-- The input of a net takes its zeros, whatever the command is asked for. -/
theorem takesValue_zeros_of_input (options : Options) {lowering : LoweringOptions}
    {type : OperandType}
    (hcode : type.code = if lowering.quantized then lowering.quantCode else .tensorFloat32) :
    type.TakesValue (options.zeros type) := by
  have hvalue : type.code.isTensor = true ∧ type.code ≠ .tensorInt32 := by
    rw [hcode, LoweringOptions.quantCode]
    split
    · split <;> decide
    · decide
  exact (takesValue_zeros_iff options hvalue.1).mpr hvalue.2

theorem buffers_of_end (options : Options) {graph : Graph} {ids : List OperandId}
    {operand : Operand} (hend : ids.map graph.operand? = [some operand]) :
    options.buffers graph ids = [options.zeros operand.type] := by
  obtain ⟨id, rfl, hoperand⟩ := List.map_eq_singleton_iff.mp hend
  simp [Options.buffers, hoperand]

/-- The command computes on its zeros unless the output holds integers, and then prints the zeros
that it has made for the output. -/
structure Options.ComputesZeros (options : Options) (state : Session.State) (graph : Graph)
    (output : Operand) : Prop where
  status : (Session.compute state (options.buffers graph graph.inputs)
    (options.buffers graph graph.outputs)).1.status = .ok () ↔ output.type.code ≠ .tensorInt32
  printed : output.type.code ≠ .tensorInt32 → options.compute state graph =
    ⟨0, Options.summary state graph ++ Options.renderOutputs [options.zeros output.type]⟩

theorem computesZeros_of_computes {options : Options} {state : Session.State} {graph : Graph}
    {input output : Operand}
    (hcomputes : state.Computes graph input output)
    (hinput : input.type.TakesValue (options.zeros input.type))
    (houtput : output.type.code.isTensor = true) :
    options.ComputesZeros state graph output := by
  have hinputs := buffers_of_end options hcomputes.ends.inputs
  have houtputs := buffers_of_end options hcomputes.ends.outputs
  have hstatus : (Session.compute state (options.buffers graph graph.inputs)
      (options.buffers graph graph.outputs)).1.status = .ok () ↔
        output.type.code ≠ .tensorInt32 := by
    rw [hinputs, houtputs, hcomputes.status, ← takesValue_zeros_iff options houtput]
    constructor
    · rintro ⟨_, _, -, hlast, -, hasked⟩
      cases hlast
      exact hasked
    · exact fun hasked => ⟨_, _, rfl, rfl, hinput, hasked⟩
  refine ⟨hstatus, fun hcode => ?_⟩
  have hasked := (takesValue_zeros_iff options houtput).mpr hcode
  have hzeros : (Session.compute state (options.buffers graph graph.inputs)
      (options.buffers graph graph.outputs)).1.outputs = [options.zeros output.type] := by
    rw [hinputs, houtputs, hcomputes.zeros _ _ hinput hasked, Options.zeros, Buffer.elemType_zeros]
  simp only [Options.compute, hstatus.mpr hcode, hzeros]

/-- A command that computes with floats and skips nothing. -/
def plainRun : Options where
  predict := "predict_net.pb"
  init := none
  inputSize := [2, 1, 1]
  quantized := false
  signed := false
  emitSoftmax := true
  run := true

end NetLowering.CommandLine

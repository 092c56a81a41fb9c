import NetLowering.Proofs.Lowering.Operations

/-!
# The integers that an operation reads

Besides tensors an operation reads integers, each bound to an operand of its own.
They are those that the operator has made of its arguments, in the same order.  An
operand with the code of an integer is no tensor (`FlatNet.intsAreScalars_of_lower`), so
what is read as an image, as a filter or as a bias is never taken for one.
-/

namespace NetLowering

open Checked

/-- The number that a value is for an operand that is an integer and no tensor. -/
def OperandType.int? (type : OperandType) (value : Buffer) : Option Int32 :=
  if type = .scalar .int32 then (Value.numbers value).int? else none

namespace OperandType

variable {type : OperandType}

theorem int?_of_code (hcode : type.code ≠ .int32) (value : Buffer) : type.int? value = none := by
  rw [int?, if_neg]
  rintro rfl
  exact hcode rfl

theorem int?_of_dims (hdims : type.dims ≠ []) (value : Buffer) : type.int? value = none := by
  rw [int?, if_neg]
  rintro rfl
  exact hdims rfl

end OperandType

/-- What a parameter is among the integers that an operation reads. -/
def Param.int? (param : Param) : Option Int32 := param.type.int? param.value

theorem Param.int?_of_code {param : Param} (hcode : param.type.code ≠ .int32) :
    param.int? = none := OperandType.int?_of_code hcode _

theorem Param.filterMap_int?_ints (numbers : List Int32) :
    (numbers.map Param.int).filterMap Param.int? = numbers := by
  rw [List.filterMap_map]
  exact List.filterMap_some

namespace Graph

/-- The number bound to an operand that is an integer and no tensor. -/
def int? (graph : Graph) (id : OperandId) : Option Int32 := do
  let operand ← graph.operand? id
  operand.type.int? (← graph.values.find? id)

/-- The integers among what an operation reads, in order. -/
def ints (graph : Graph) (operation : Operation) : List Int32 :=
  operation.inputs.filterMap graph.int?

variable {graph next before : Graph} {layer : Layer} {operation : Operation}

theorem Holds.int? {id : OperandId} {param : Param} (hholds : graph.Holds id param) :
    graph.int? id = param.int? := by
  simp [Graph.int?, hholds.operand, hholds.value, Param.operand, Param.int?]

theorem filterMap_int?_of_holds {ids : List OperandId} {params : List Param}
    (hholds : List.Forall₂ graph.Holds ids params) :
    ids.filterMap graph.int? = params.filterMap Param.int? := by
  induction hholds with
  | nil => rfl
  | cons hfirst _ ih => rw [List.filterMap_cons, List.filterMap_cons, hfirst.int?, ih]

/-- On an image, an operation reads the integers among the parameters of its layer. -/
theorem Keeps.ints (hkeeps : graph.Keeps operation before layer) {tensor : Tensor} {feed : Feed}
    (hfeed : before.feed tensor = .ok feed) (hinput : layer.input = feed.id) :
    graph.ints operation = layer.params.filterMap Param.int? := by
  obtain ⟨-, ⟨operand, hoperand, htype⟩, haxes⟩ := feed_eq_ok_iff.mp hfeed
  rw [Axes.ofDims_eq_ok_iff, ← htype] at haxes
  have himage : graph.int? layer.input = none := by
    rw [hinput, Graph.int?, hkeeps.extends.operand? hoperand]
    simp [OperandType.int?_of_dims, haxes, Axes.toList]
  have hinputs : operation.inputs = layer.input :: operation.inputs.tail := by
    rw [hkeeps.operation]
    rfl
  rw [Graph.ints, hinputs, List.filterMap_cons_none himage]
  exact filterMap_int?_of_holds hkeeps.holds

/-! ## Integers are no tensors -/

/-- An operand with the code of an integer is no tensor. -/
def IntsAreScalars (graph : Graph) : Prop :=
  ∀ operand ∈ graph.operands, operand.type.code = .int32 → operand.type.dims = []

theorem IntsAreScalars.of_extends (hextends : graph.Extends next) (hnext : next.IntsAreScalars) :
    graph.IntsAreScalars :=
  fun operand hoperand => hnext operand (hextends.operands.subset hoperand)

theorem IntsAreScalars.addLayer (hbefore : graph.IntsAreScalars)
    (hadded : graph.addLayer layer = .ok next)
    (hparams : ∀ param ∈ layer.params, param.type.code = .int32 → param.type.dims = [])
    (houtput : ∀ name type, layer.output = .ok (name, type) → type.code = .int32 →
      type.dims = []) : next.IntsAreScalars := by
  obtain ⟨_, name, type, -, hwritten, -⟩ := addLayer_eq_ok_iff.mp hadded
  intro operand hoperand
  rw [operands_of_addLayer hadded hwritten] at hoperand
  simp only [List.mem_append, List.mem_map, List.mem_singleton] at hoperand
  rcases hoperand with (hearlier | ⟨param, hparam, rfl⟩) | rfl
  · exact hbefore operand hearlier
  · exact hparams param hparam
  · exact houtput name type hwritten

/-- What is read as an image has four dimensions, so it has not the code of an integer. -/
theorem IntsAreScalars.code_of_feed {tensor : Tensor} {feed : Feed} (hints : graph.IntsAreScalars)
    (hfeed : graph.feed tensor = .ok feed) : feed.type.code ≠ .int32 := by
  obtain ⟨-, ⟨operand, hoperand, htype⟩, haxes⟩ := feed_eq_ok_iff.mp hfeed
  intro hcode
  have hdims := hints operand (mem_of_operand? hoperand) (htype ▸ hcode)
  rw [Axes.ofDims_eq_ok_iff, ← htype, hdims] at haxes
  cases haxes

end Graph

variable {options : LoweringOptions} {operator : FlatOp} {graph next before : Graph}
  {operation : Operation}

theorem Convolution.code_of_weights {convolution : Convolution}
    (hread : ofOperator options graph operator = .ok convolution)
    (himage : convolution.input.type.code ≠ .int32) :
    convolution.filter.type.code ≠ .int32 ∧ convolution.bias.param.type.code ≠ .int32 := by
  obtain ⟨_, _, _, filter, -, -, -, -, hfilter, hparam, hbias, -⟩ := ofOperator_eq_ok hread
  rw [(Filter.filterOf_param hfilter hparam).code, (Bias.biasOf_param hbias).code]
  constructor
  · split
    · decide
    · exact himage
  · split <;> decide

theorem FlatOp.Grows.intsAreScalars (hgrows : operator.Grows options graph next)
    (hbefore : graph.IntsAreScalars) : next.IntsAreScalars := by
  have hscalars (numbers : List Int32) :
      ∀ param ∈ numbers.map Param.int, param.type.code = .int32 → param.type.dims = [] := by
    intro param hparam _
    obtain ⟨number, -, rfl⟩ := List.mem_map.mp hparam
    rfl
  cases hgrows with
  | convolution convolution htype hread hadded =>
      obtain ⟨_, -, hfeed⟩ := Convolution.input_of_ofOperator hread
      have himage := hbefore.code_of_feed hfeed
      obtain ⟨hfilter, hbias⟩ := Convolution.code_of_weights hread himage
      refine hbefore.addLayer hadded ?_ fun name type houtput hcode => ?_
      · simp only [Convolution.layer, Convolution.params, List.forall_mem_cons]
        exact ⟨fun hcode => absurd hcode hfilter, fun hcode => absurd hcode hbias, hscalars _⟩
      · rw [(Convolution.takesAfter hread houtput).code] at hcode
        exact absurd hcode himage
  | pooling pooling htype hread hadded =>
      obtain ⟨_, -, hfeed⟩ := Pooling.input_of_ofOperator hread
      refine hbefore.addLayer hadded (hscalars _) fun name type houtput hcode => ?_
      rw [(Pooling.takesAfter hread houtput).code] at hcode
      exact absurd hcode (hbefore.code_of_feed hfeed)
  | skipped _ _ _ _ _ _ _ _ hnamed =>
      obtain ⟨-, rfl⟩ := Graph.nameAs_eq_ok_iff.mp hnamed
      exact hbefore
  | softmax source name input image _ _ _ _ _ htyped hadded =>
      obtain ⟨operand, hoperand, rfl⟩ := Graph.typeOf_eq_ok_iff.mp htyped
      refine hbefore.addLayer hadded (by simp [Softmax.layer, Param.single, OperandType.scalar,
        OperandType.plain]) fun written type houtput hcode => ?_
      simp only [Softmax.layer, bind_eq_ok_iff, pure_eq_ok_iff, Prod.mk.injEq] at houtput
      obtain ⟨_, houtput, -, rfl⟩ := houtput
      obtain ⟨hsame, hdims, -⟩ := FlatOp.outputType_eq_ok houtput
      rw [hdims]
      exact hbefore operand (Graph.mem_of_operand? hoperand) (hsame ▸ hcode)

/-- The input has the code that the options ask for. -/
theorem LoweringOptions.code_of_inputType {first : FlatOp} {type : OperandType}
    (htype : options.inputType first = .ok type) :
    type.code = if options.quantized then options.quantCode else .tensorFloat32 := by
  obtain ⟨dims, -, htype⟩ := bind_eq_ok_iff.mp htype
  split at htype
  · rename_i hquantized
    rw [if_pos hquantized]
    obtain ⟨_, -, htype⟩ := bind_eq_ok_iff.mp htype
    obtain ⟨_, -, htype⟩ := bind_eq_ok_iff.mp htype
    split at htype
    all_goals
      simp only [bind_eq_ok_iff, pure_eq_ok_iff] at htype
      obtain ⟨_, -, htype⟩ := htype
    · exact congrArg OperandType.code htype
    · obtain ⟨_, -, rfl⟩ := htype
      rfl
  · rename_i hfloat
    rw [if_neg hfloat, pure_eq_ok_iff.mp htype]
    rfl

theorem FlatNet.intsAreScalars_of_lower {net : FlatNet} (hlower : net.lower options = .ok graph) :
    graph.IntsAreScalars := by
  obtain ⟨grown, _, _, hints, -, rfl⟩ :=
    lower_preserves_from_input Graph.IntsAreScalars hlower
      (fun _ _ type htype operand hoperand hcode => by
        cases List.mem_singleton.mp hoperand
        rw [LoweringOptions.code_of_inputType htype, LoweringOptions.quantCode] at hcode
        split_ifs at hcode)
      fun _ _ _ _ hbefore hgrows => hgrows.intsAreScalars hbefore
  exact hints

/-! ## Convolutions and poolings -/

theorem Convolution.ints_of_keeps {convolution : Convolution}
    (hread : ofOperator options before operator = .ok convolution)
    (hkeeps : graph.Keeps operation before (convolution.layer options operator))
    (hints : graph.IntsAreScalars) :
    graph.ints operation = convolution.window.placement ++
      (if convolution.depthwise then [1] else []) ++ [convolution.activation.number] := by
  obtain ⟨_, -, hfeed⟩ := input_of_ofOperator hread
  have himage := (hints.of_extends hkeeps.extends).code_of_feed hfeed
  obtain ⟨hfilter, hbias⟩ := code_of_weights hread himage
  have hparams : (convolution.layer options operator).params = convolution.params := rfl
  rw [hkeeps.ints hfeed rfl, hparams, params, List.filterMap_cons_none (Param.int?_of_code hfilter),
    List.filterMap_cons_none (Param.int?_of_code hbias), Param.filterMap_int?_ints]

theorem Pooling.ints_of_keeps {pooling : Pooling}
    (hread : ofOperator before operator = .ok pooling)
    (hkeeps : graph.Keeps operation before (pooling.layer options operator)) :
    graph.ints operation = pooling.window.placement ++
      [pooling.window.kernel.width, pooling.window.kernel.height] ++
      [pooling.activation.number] := by
  obtain ⟨_, -, hfeed⟩ := input_of_ofOperator hread
  rw [hkeeps.ints hfeed rfl, layer, params, Param.filterMap_int?_ints]

end NetLowering

import Mathlib.Logic.Relation
import NetLowering.Proofs.Lowering.Ends
import NetLowering.Proofs.Lowering.FloatGraphs
import NetLowering.Proofs.Lowering.Windows

/-!
# How images are quantized

In a graph that is quantized every operation writes an operand with a scale and a zero
point.  Its operator may state either of them, and what it does not state is usual for the
operation: for a pooling, what its image has.  The code of an image is handed on whatever
the operator is.  `FlatNet.lower_quantized` says so of one operation, and of what is reached
from an image by any number of them; without quantization nothing has a scale or a zero
point.
-/

namespace NetLowering

open Checked

/-! ## What operators state -/

/-- The argument of this name is read as the content or, if there is none, the content is the
usual one. -/
inductive FlatOp.StatesOr {α : Type} (operator : FlatOp) (name : String) (read : Value → Option α)
    (usual : α) : α → Prop where
  | stated {value : Value} {content : α} (found : operator.arguments.find? name = some value)
      (reads : read value = some content) : StatesOr operator name read usual content
  | usual (missing : operator.arguments.find? name = none) : StatesOr operator name read usual usual

/-- The scale and the zero point that the output of an operation on such an image usually has. -/
def OperationCode.usualQuant (options : LoweringOptions) (image : OperandType) :
    OperationCode → Single × Int32
  | .conv2d | .depthwiseConv2d => (.one, 0)
  | .averagePool2d => (image.scale.getD .one, image.zeroPoint.getD 0)
  | .softmax => (Softmax.scale, if options.signedRemap then -128 else 0)

/-- The usual scales are 1 and 1 / 256. -/
example : Single.one.bits.toNat = BinaryFormat.single.nearest 1 0 ∧
    Softmax.scale.bits.toNat = BinaryFormat.single.nearest 1 (-8) := by
  decide

/-- The type has the scale and the zero point that the operator states, each of them or the usual
one. -/
structure FlatOp.Quantizes (operator : FlatOp) (usual : Single × Int32) (type : OperandType) :
    Prop where
  scale : ∃ scale, type.scale = some scale ∧
    operator.StatesOr "Y_scale" Value.single? usual.1 scale
  zeroPoint : ∃ zeroPoint, type.zeroPoint = some zeroPoint ∧
    operator.StatesOr "Y_zero_point" Value.int? usual.2 zeroPoint

namespace FlatOp

variable {operator : FlatOp} {options : LoweringOptions}

theorem StatesOr.of_optional {α : Type} {name : String} {read : Value → Option α}
    {fault : Value → ArgumentFault} {found : Option α} (usual : α)
    (hread : operator.optional name read fault = .ok found) :
    operator.StatesOr name read usual (found.getD usual) := by
  cases found with
  | none => exact .usual (optional_eq_none_iff.mp hread)
  | some content =>
      obtain ⟨value, hfound, hreads⟩ := optional_eq_some_iff.mp hread
      exact .stated hfound hreads

theorem StatesOr.eq_usual {α : Type} {name : String} {read : Value → Option α} {usual content : α}
    (hstates : operator.StatesOr name read usual content)
    (hmissing : operator.arguments.find? name = none) : content = usual := by
  cases hstates with
  | stated found _ => cases hmissing.symm.trans found
  | usual _ => rfl

theorem Quantizes.eq_usual {usual : Single × Int32} {type : OperandType}
    (hquantizes : operator.Quantizes usual type)
    (hnoScale : operator.arguments.find? "Y_scale" = none)
    (hnoZeroPoint : operator.arguments.find? "Y_zero_point" = none) :
    type.scale = some usual.1 ∧ type.zeroPoint = some usual.2 := by
  obtain ⟨⟨scale, hscale, hstatesScale⟩, zeroPoint, hzeroPoint, hstatesZeroPoint⟩ := hquantizes
  cases hstatesScale.eq_usual hnoScale
  cases hstatesZeroPoint.eq_usual hnoZeroPoint
  exact ⟨hscale, hzeroPoint⟩

theorem quantizes_of_outputType {code : OperandCode} {dims : List UInt32} {scale : Single}
    {zeroPoint : Int32} {type : OperandType} (hquantized : options.quantized = true)
    (htype : operator.outputType options code dims scale zeroPoint = .ok type) :
    operator.Quantizes (scale, zeroPoint) type := by
  simp only [outputType, hquantized, if_true, outputQuant, bind_eq_ok_iff, pure_eq_ok_iff] at htype
  obtain ⟨_, ⟨_, hscale, _, hzeroPoint, rfl⟩, rfl⟩ := htype
  exact ⟨⟨_, rfl, .of_optional scale hscale⟩, ⟨_, rfl, .of_optional zeroPoint hzeroPoint⟩⟩

end FlatOp

/-! ## Layers -/

section Layers

variable {options : LoweringOptions} {operator : FlatOp} {graph next later : Graph}

theorem Convolution.quantizes {convolution : Convolution} {name : String} {type : OperandType}
    (hquantized : options.quantized = true) (image : OperandType)
    (houtput : (convolution.layer options operator).output = .ok (name, type)) :
    operator.Quantizes ((convolution.layer options operator).code.usualQuant options image)
      type := by
  have husual : (convolution.layer options operator).code.usualQuant options image = (.one, 0) := by
    rw [layer]
    cases convolution.depthwise <;> rfl
  simp only [layer, bind_eq_ok_iff, pure_eq_ok_iff, Prod.mk.injEq] at houtput
  obtain ⟨_, -, _, htype, _, -, -, rfl⟩ := houtput
  rw [husual]
  exact FlatOp.quantizes_of_outputType hquantized htype

theorem Pooling.quantizes {pooling : Pooling} {name : String} {type : OperandType}
    (hquantized : options.quantized = true)
    (houtput : (pooling.layer options operator).output = .ok (name, type)) :
    operator.Quantizes (OperationCode.averagePool2d.usualQuant options pooling.input.type)
      type := by
  simp only [layer, bind_eq_ok_iff, pure_eq_ok_iff, Prod.mk.injEq] at houtput
  obtain ⟨_, -, _, htype, _, -, -, rfl⟩ := houtput
  exact FlatOp.quantizes_of_outputType hquantized htype

theorem Softmax.quantizes {name written : String} {input : OperandId} {image type : OperandType}
    (hquantized : options.quantized = true)
    (houtput : (Softmax.layer options operator name input image).output = .ok (written, type)) :
    operator.Quantizes (OperationCode.softmax.usualQuant options image) type := by
  simp only [layer, bind_eq_ok_iff, pure_eq_ok_iff, Prod.mk.injEq] at houtput
  obtain ⟨_, htype, -, rfl⟩ := houtput
  exact FlatOp.quantizes_of_outputType hquantized htype

namespace FlatOp

/-- An operator quantizes the output of its layer, if it lays one. -/
theorem Grows.quantizes (hgrows : operator.Grows options graph next)
    (hquantized : options.quantized = true) :
    (∃ layer, operator.Makes options graph layer ∧ graph.addLayer layer = .ok next ∧
      ∀ image name type, graph.operand? layer.input = some image →
        layer.output = .ok (name, type) →
        operator.Quantizes (layer.code.usualQuant options image.type) type) ∨
      next.operations = graph.operations := by
  cases hgrows with
  | convolution convolution htype hread hadded =>
      refine .inl ⟨_, makes_convolution htype hread, hadded, fun image _ _ _ houtput => ?_⟩
      exact Convolution.quantizes hquantized image.type houtput
  | pooling pooling _ hread hadded =>
      refine .inl ⟨_, makes_pooling hread, hadded, fun image _ _ himage houtput => ?_⟩
      obtain ⟨_, -, hfeed⟩ := Pooling.input_of_ofOperator hread
      obtain ⟨-, ⟨operand, hoperand, htype⟩, -⟩ := Graph.feed_eq_ok_iff.mp hfeed
      cases hoperand.symm.trans himage
      rw [htype]
      exact Pooling.quantizes hquantized houtput
  | skipped _ _ _ _ _ _ _ _ hnamed =>
      obtain ⟨-, rfl⟩ := Graph.nameAs_eq_ok_iff.mp hnamed
      exact .inr rfl
  | softmax _ _ _ _ _ _ _ _ _ htyped hadded =>
      refine .inl ⟨_, makes_softmax htyped, hadded, fun image _ _ himage houtput => ?_⟩
      obtain ⟨operand, hoperand, rfl⟩ := Graph.typeOf_eq_ok_iff.mp htyped
      cases hoperand.symm.trans himage
      exact Softmax.quantizes hquantized houtput

/-- What a layer reads and what it writes have one code. -/
theorem Makes.code {layer : Layer} (hmakes : operator.Makes options graph layer)
    (hadded : graph.addLayer layer = .ok next) (hextends : next.Extends later) :
    ∃ image output name, graph.operand? layer.input = some image ∧
      layer.output = .ok (name, output.type) ∧
      later.operandAt? (layer.operation graph) 0 = some image ∧
      later.output? (layer.operation graph) = some output ∧
      output.type.code = image.type.code := by
  obtain ⟨_, name, type, -, houtput, -⟩ := Graph.addLayer_eq_ok_iff.mp hadded
  obtain ⟨image, himage, htakesAfter⟩ := hmakes.image
  exact ⟨image, ⟨some name, type⟩, name, himage, houtput,
    ((Graph.extends_addLayer hadded).trans hextends).operand? himage,
    hextends.operand? (Graph.operand?_output_of_addLayer hadded houtput),
    (htakesAfter name type houtput).code⟩

/-- The output of the operation has the code of its image, and the scale and the zero point that
the operator states or that are usual. -/
def QuantizedBy (operator : FlatOp) (options : LoweringOptions) (graph : Graph)
    (operation : Operation) : Prop :=
  ∃ image output, graph.operandAt? operation 0 = some image ∧
    graph.output? operation = some output ∧ operator.AsksFor operation.code ∧
    output.type.code = image.type.code ∧
    operator.Quantizes (operation.code.usualQuant options image.type) output.type

theorem Becomes.quantizedBy {operation : Operation}
    (hbecomes : operator.Becomes options graph operation) (hquantized : options.quantized = true) :
    operator.QuantizedBy options graph operation := by
  obtain ⟨before, after, hlower, hextends, hoperations, -⟩ := hbecomes.created
  rcases (grows_of_lower hlower).quantizes hquantized with
    ⟨layer, hmakes, hadded, hquantizes⟩ | hsame
  · rw [Graph.operations_of_addLayer hadded] at hoperations
    simp only [List.append_cancel_left_eq, List.cons.injEq, and_true] at hoperations
    obtain ⟨image, output, name, hread, hwritten, himage, houtput, hcode⟩ :=
      hmakes.code hadded hextends
    subst hoperations
    exact ⟨image, output, himage, houtput, hbecomes.code, hcode,
      hquantizes image name output.type hread hwritten⟩
  · rw [hsame] at hoperations
    simp at hoperations

end FlatOp

end Layers

/-! ## Chains -/

/-- The operator hands on the quantization of its image: it is a pooling that states none, or a
softmax that is skipped. -/
def FlatOp.HandsOn (operator : FlatOp) (options : LoweringOptions) : Prop :=
  operator.IsSkipped options ∨ operator.type = "Int8AveragePool" ∧
    operator.arguments.find? "Y_scale" = none ∧ operator.arguments.find? "Y_zero_point" = none

/-- An operator of the net hands the quantization of the one name on to the other. -/
def FlatNet.HandsOn (net : FlatNet) (options : LoweringOptions) (source name : String) : Prop :=
  ∃ operator ∈ net.operators, operator.HandsOn options ∧
    (∃ tensor, operator.inputs.head? = some tensor ∧ tensor.name = source) ∧
    operator.outputs.head? = some name

namespace Graph

/-- The name leads to an operand with this scale and this zero point. -/
def Carries (graph : Graph) (name : String) (quant : Single × Int32) : Prop :=
  ∃ id operand, graph.tensorIds.find? name = some id ∧ graph.operand? id = some operand ∧
    operand.type.scale = some quant.1 ∧ operand.type.zeroPoint = some quant.2

/-- An operation of the graph reads the one operand as its image and writes the other. -/
def Images (graph : Graph) (image output : OperandId) : Prop :=
  ∃ operation ∈ graph.operations, operation.inputs.head? = some image ∧
    output ∈ operation.outputs

/-- Both operands are there and have one code. -/
def SameCode (graph : Graph) (first second : OperandId) : Prop :=
  ∃ operand other, graph.operand? first = some operand ∧ graph.operand? second = some other ∧
    other.type.code = operand.type.code

end Graph

namespace FlatNet

variable {options : LoweringOptions} {net : FlatNet} {operator : FlatOp} {graph : Graph}

theorem carries_of_skipped {tensor : Tensor} {name : String} {quant : Single × Int32}
    {before after : Graph} (hgrows : operator.Grows options before after)
    (hextends : after.Extends graph) (hskipped : operator.IsSkipped options)
    (hread : operator.inputs.head? = some tensor) (hwritten : operator.outputs.head? = some name)
    (hcarries : graph.Carries tensor.name quant) : graph.Carries name quant := by
  obtain ⟨id, operand, hnamed, hquant⟩ := hcarries
  cases hgrows.contributes with
  | layer hkept => exact absurd hskipped hkept
  | name _ _ _ _ hsource hgiven hfound hnew =>
      cases hread.symm.trans hsource
      cases hwritten.symm.trans hgiven
      cases hnamed.symm.trans ((hgrows.extends.trans hextends).named _ _ hfound)
      obtain ⟨-, rfl⟩ := Graph.nameAs_eq_ok_iff.mp hnew
      exact ⟨id, operand, hextends.named _ _ (by simp), hquant⟩

theorem carries_of_pooling {tensor : Tensor} {name : String} {quant : Single × Int32}
    {before after : Graph} {pooling : Pooling} (hquantized : options.quantized = true)
    (htype : operator.type = "Int8AveragePool")
    (hpooling : Pooling.ofOperator before operator = .ok pooling)
    (hadded : before.addLayer (pooling.layer options operator) = .ok after)
    (hextends : after.Extends graph) (hnoScale : operator.arguments.find? "Y_scale" = none)
    (hnoZeroPoint : operator.arguments.find? "Y_zero_point" = none)
    (hread : operator.inputs.head? = some tensor) (hwritten : operator.outputs.head? = some name)
    (hcarries : graph.Carries tensor.name quant) : graph.Carries name quant := by
  obtain ⟨id, operand, hnamed, hoperand, hscale, hzeroPoint⟩ := hcarries
  have hgrown := (Graph.extends_addLayer hadded).trans hextends
  have hlays : operator.Lays before (pooling.layer options operator) :=
    FlatOp.lays_pooling htype hpooling
  obtain ⟨_, output, type, -, houtput, -⟩ := Graph.addLayer_eq_ok_iff.mp hadded
  cases hwritten.symm.trans (hlays.output output type houtput)
  -- What the pooling has read in its moment is the operand that the name leads to.
  obtain ⟨_, hsource, hfound⟩ := hlays.input
  cases hread.symm.trans hsource
  cases hnamed.symm.trans (hgrown.named _ _ hfound)
  obtain ⟨_, -, hfeed⟩ := Pooling.input_of_ofOperator hpooling
  obtain ⟨-, ⟨image, himage, hsame⟩, -⟩ := Graph.feed_eq_ok_iff.mp hfeed
  cases hoperand.symm.trans (hgrown.operand? himage)
  have husual : OperationCode.averagePool2d.usualQuant options pooling.input.type = quant := by
    rw [OperationCode.usualQuant, ← hsame, hscale, hzeroPoint]
    rfl
  have hquant := (Pooling.quantizes hquantized houtput).eq_usual hnoScale hnoZeroPoint
  rw [husual] at hquant
  exact ⟨_, _, hextends.named _ _ (Graph.find?_output_of_addLayer hadded houtput),
    hextends.operand? (Graph.operand?_output_of_addLayer hadded houtput), hquant⟩

theorem carries_of_handsOn {source name : String} {quant : Single × Int32}
    (hlower : net.lower options = .ok graph) (hquantized : options.quantized = true)
    (hstep : net.HandsOn options source name) (hcarries : graph.Carries source quant) :
    graph.Carries name quant := by
  obtain ⟨operator, hoperator, hkind, ⟨tensor, hread, rfl⟩, hwritten⟩ := hstep
  obtain ⟨before, after, hgrows, hextends⟩ := exists_growth hlower operator hoperator
  rcases hkind with hskipped | ⟨htype, hnoScale, hnoZeroPoint⟩
  · exact carries_of_skipped hgrows hextends hskipped hread hwritten hcarries
  · obtain ⟨pooling, hpooling, hadded⟩ := hgrows.pooling_of_type htype
    exact carries_of_pooling hquantized htype hpooling hadded hextends hnoScale hnoZeroPoint hread
      hwritten hcarries

theorem sameCode_of_images {first image output : OperandId} (hlower : net.lower options = .ok graph)
    (hstep : graph.Images image output) (hsame : graph.SameCode first image) :
    graph.SameCode first output := by
  obtain ⟨operation, hoperation, hread, hwritten⟩ := hstep
  obtain ⟨operator, -, before, layer, after, hmakes, hadded, hextends, rfl⟩ :=
    stems_of_lower hlower operation hoperation
  obtain ⟨operand, other, hfirst, hother, hcode⟩ := hsame
  obtain ⟨read, written, _, -, -, himage, houtput, hhandedOn⟩ := hmakes.code hadded hextends
  cases hread
  cases List.mem_singleton.mp hwritten
  cases hother.symm.trans himage
  exact ⟨operand, written, hfirst, houtput, hhandedOn.trans hcode⟩

theorem sameCode_input (hlower : net.lower options = .ok graph) :
    ∀ input ∈ graph.inputs, graph.SameCode input input := by
  obtain ⟨operand, _, hends, -⟩ := ends_of_lower hlower
  obtain ⟨id, hinputs, hoperand⟩ := List.map_eq_singleton_iff.mp hends.inputs
  rw [hinputs]
  intro input hinput
  cases List.mem_singleton.mp hinput
  exact ⟨operand, operand, hoperand, hoperand, rfl⟩

/-- What operators do not state of their outputs they have from their images or by default, and the
codes of their images they hand on.  Without quantization they say nothing of their outputs. -/
theorem lower_quantized (hlower : net.lower options = .ok graph) :
    (options.quantized = true →
      List.Forall₂ (fun operator operation => operator.QuantizedBy options graph operation)
        (net.operators.filter fun operator => ¬operator.IsSkipped options) graph.operations ∧
      (∀ first last, Relation.ReflTransGen (net.HandsOn options) first last →
        ∀ quant, graph.Carries first quant → graph.Carries last quant) ∧
      ∀ input ∈ graph.inputs, ∀ id, Relation.ReflTransGen graph.Images input id →
        graph.SameCode input id) ∧
    (options.quantized = false → ∀ operand ∈ graph.operands, operand.type.Unscaled) := by
  refine ⟨fun hquantized => ⟨?_, ?_, ?_⟩, fun hfloat operand hoperand => ?_⟩
  · exact (becomes_of_lower hlower).imp fun _ _ hbecomes => hbecomes.quantizedBy hquantized
  · intro first last hchain quant hcarries
    induction hchain with
    | refl => exact hcarries
    | tail _ hstep ih => exact carries_of_handsOn hlower hquantized hstep ih
  · intro input hinput id hchain
    induction hchain with
    | refl => exact sameCode_input hlower input hinput
    | tail _ hstep ih => exact sameCode_of_images hlower hstep ih
  · exact ((floatIn_of_lower hlower hfloat).types operand hoperand).unscaled

/-- Two poolings with a softmax between them, of which the second states its zero point. -/
def pooledTwice : FlatNet where
  operators := [
    { type := "Int8AveragePool"
      inputs := [.named "image"]
      outputs := ["pooled"]
      arguments := .ofList [("X_scale", .numbers (.float32 #[⟨0x3f000000⟩])),
        ("X_zero_point", .numbers (.int32 #[3])), ("kernel", .numbers (.int32 #[2]))] },
    { type := "Softmax", inputs := [.named "pooled"], outputs := ["likelihoods"] },
    { type := "Int8AveragePool"
      inputs := [.named "likelihoods"]
      outputs := ["shifted"]
      arguments := .ofList [("kernel", .numbers (.int32 #[1])),
        ("Y_zero_point", .numbers (.int32 #[7]))] }]

theorem lower_quantized_pooledTwice :
    (∃ graph first second,
      pooledTwice.lower { quantized := true, inputSize := [2, 2, 1] } = .ok graph ∧
      graph.operations = [first, second] ∧
      (graph.output? second).map (·.type) =
        some (.quantized .tensorQuant8Asymm [1, 1, 1, 1] ⟨0x3f000000⟩ 7) ∧
      (∃ operator, pooledTwice.operators[2]? = some operator ∧
        operator.QuantizedBy { quantized := true, inputSize := [2, 2, 1] } graph second) ∧
      graph.Carries "image" (⟨0x3f000000⟩, 3) ∧ graph.Carries "likelihoods" (⟨0x3f000000⟩, 3)) ∧
    ∃ graph, pooledTwice.lower { inputSize := [2, 2, 1] } = .ok graph ∧
      graph.operands.length = 21 ∧ ∀ operand ∈ graph.operands, operand.type.Unscaled := by
  constructor
  · have hread : (fun graph : Graph => (graph.operations.map fun operation =>
          (graph.output? operation).map (·.type), graph.tensorIds.find? "image",
          graph.operand? (.own 0))) <$>
        pooledTwice.lower { quantized := true, inputSize := [2, 2, 1] } =
          .ok ([some (.quantized .tensorQuant8Asymm [1, 1, 1, 1] ⟨0x3f000000⟩ 3),
            some (.quantized .tensorQuant8Asymm [1, 1, 1, 1] ⟨0x3f000000⟩ 7)], some (.own 0),
            some ⟨some "image", .quantized .tensorQuant8Asymm [1, 2, 2, 1] ⟨0x3f000000⟩ 3⟩) := by
      decide +kernel
    obtain ⟨graph, hlower, hgraph⟩ := map_eq_ok_iff.mp hread
    simp only [Prod.mk.injEq] at hgraph
    obtain ⟨houtputs, himage, hoperand⟩ := hgraph
    obtain ⟨hoperators, hchains, -⟩ := (lower_quantized hlower).1 rfl
    obtain ⟨first, second, hoperations⟩ : ∃ first second, graph.operations = [first, second] := by
      have hlength := congrArg List.length houtputs
      rw [List.length_map] at hlength
      exact List.length_eq_two.mp hlength
    rw [hoperations] at houtputs hoperators
    simp only [List.map_cons, List.map_nil, List.cons.injEq, and_true] at houtputs
    have hcarries : graph.Carries "image" (⟨0x3f000000⟩, 3) := ⟨_, _, himage, hoperand, rfl, rfl⟩
    refine ⟨graph, first, second, hlower, hoperations, houtputs.2, ⟨_, rfl, ?_⟩, hcarries, ?_⟩
    · obtain ⟨-, hrest⟩ := List.forall₂_cons.mp hoperators
      exact (List.forall₂_cons.mp hrest).1
    · refine hchains "image" "likelihoods" ?_ _ hcarries
      refine .tail (.single (b := "pooled") ?_) ?_
      · exact ⟨_, .head _, .inr ⟨rfl, rfl, rfl⟩, ⟨_, rfl, rfl⟩, rfl⟩
      · exact ⟨_, .tail _ (.head _), .inl ⟨rfl, rfl⟩, ⟨_, rfl, rfl⟩, rfl⟩
  · have hread : (fun graph : Graph => graph.operands.length) <$>
        pooledTwice.lower { inputSize := [2, 2, 1] } = .ok 21 := by
      decide +kernel
    obtain ⟨graph, hlower, hlength⟩ := map_eq_ok_iff.mp hread
    exact ⟨graph, hlower, hlength, (lower_quantized hlower).2 rfl⟩

end FlatNet

end NetLowering

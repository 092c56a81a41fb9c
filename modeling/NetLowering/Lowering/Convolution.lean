import NetLowering.Lowering.Feed

/-!
# Convolutions

A convolution takes a filter and a bias from the initializer net.  With as many
groups as input channels it is depthwise, and its filter `(N, H, W, 1)` is
repacked as `(1, H, W, N)`.  A filter with more than one scale is quantized per
channel, whatever the rest of the graph is.
-/

namespace NetLowering

namespace Tensor

def requireDims (tensor : Tensor) : Except LoweringError (List UInt32) :=
  match tensor.dims?, tensor.shape with
  | some dims, _ => .ok dims
  | none, some shape => .error (.invalidShape tensor.name (.notDims shape))
  | none, none => .error (.missingFact tensor.name "shape")

def requireData (tensor : Tensor) : Except LoweringError Buffer :=
  match tensor.data? with
  | some buffer => .ok buffer
  | none => .error (.missingFact tensor.name "values")

def requireScale (tensor : Tensor) : Except LoweringError Single :=
  match (tensor.scales?.getD []).head? with
  | some scale => .ok scale
  | none => .error (.missingFact tensor.name "Y_scale")

def requireZeroPoint (tensor : Tensor) : Except LoweringError Int32 :=
  match tensor.zeroPoint? with
  | some zeroPoint => .ok zeroPoint
  | none => .error (.missingFact tensor.name "Y_zero_point")

def isPerChannel (tensor : Tensor) : Bool := 1 < (tensor.scales?.getD []).length

end Tensor

/-- How many groups the channels are split into; 1 unless the operator says. -/
def FlatOp.group (operator : FlatOp) : Except LoweringError Int32 := do
  let group := (← operator.int? "group").getD 1
  if group < 0 then throw (operator.invalid "group" (.negative group))
  return group

/-- The dimensions and values of a filter as the operation takes them. -/
structure Filter where
  depthwise : Bool
  dims : List UInt32
  values : Buffer
deriving DecidableEq

namespace Filter

/-- Repacks a filter `(N, H, W, 1)` for `group` channels. -/
def repack (tensor : String) (group : Int32) (dims : List UInt32) (values : Buffer) :
    Except LoweringError Filter := do
  let axes ← Axes.ofDims tensor dims
  let (n, h, w) := (axes.n.toNat, axes.h.toNat, axes.w.toNat)
  if axes.c ≠ 1 ∨ values.size ≠ wordSpan [n, h, w] then
    throw (.invalidShape tensor (.depthwise dims values.size))
  let repacked ← (values.rearrange (planesToChannels n h w)).mapError fun error =>
    .invalidShape tensor (.layout error)
  return { depthwise := true, dims := [1, axes.h, axes.w, group.toUInt32], values := repacked }

def ofTensor (operator : FlatOp) (tensor : Tensor) (channels : UInt32) :
    Except LoweringError Filter := do
  let dims ← tensor.requireDims
  let values ← tensor.requireData
  let group ← operator.group
  if 1 < group then
    if group.toUInt32 ≠ channels then
      throw (.unsupportedGrouping operator.name group channels)
    repack tensor.name group dims values
  else return { depthwise := false, dims, values }

/-- The dimension along which the scales of a filter are listed: that of its output channels. -/
def channelDim (filter : Filter) : UInt32 := if filter.depthwise then 3 else 0

def type (filter : Filter) (options : LoweringOptions) (tensor : Tensor) (input : OperandCode) :
    Except LoweringError OperandType := do
  if tensor.isPerChannel then return .plain .tensorQuant8SymmPerChannel filter.dims
  else if options.quantized then
    let scale ← tensor.requireScale
    let zeroPoint ← tensor.requireZeroPoint
    return .quantized input filter.dims scale zeroPoint
  else return .plain input filter.dims

def channelQuant (filter : Filter) (tensor : Tensor) : Option ChannelQuant :=
  if tensor.isPerChannel then some ⟨filter.channelDim, tensor.scales?.getD []⟩ else none

def param (filter : Filter) (options : LoweringOptions) (tensor : Tensor) (input : OperandCode) :
    Except LoweringError Param := do
  return {
    name := some tensor.name
    type := ← filter.type options tensor input
    value := filter.values
    channelQuant := filter.channelQuant tensor }

end Filter

structure Bias where
  channels : UInt32
  param : Param
deriving DecidableEq

namespace Bias

/-- The bias of a filter that is quantized per channel takes its scales from there. -/
def type (options : LoweringOptions) (tensor filter : Tensor) (dims : List UInt32) :
    Except LoweringError OperandType := do
  if !options.quantized then return .plain .tensorFloat32 dims
  else if filter.isPerChannel then return .plain .tensorInt32 dims
  else
    let scale ← tensor.requireScale
    return .quantized .tensorInt32 dims scale (tensor.zeroPoint?.getD 0)

def ofTensor (options : LoweringOptions) (tensor filter : Tensor) :
    Except LoweringError Bias := do
  let dims ← tensor.requireDims
  let values ← tensor.requireData
  let some channels := dims.head? | throw (.invalidShape tensor.name .noDims)
  let type ← type options tensor filter dims
  return { channels, param := ⟨some tensor.name, type, values, none⟩ }

end Bias

structure Convolution where
  input : Feed
  depthwise : Bool
  window : Window
  activation : Activation
  filter : Param
  bias : Bias
deriving DecidableEq

namespace Convolution

def ofOperator (options : LoweringOptions) (graph : Graph) (operator : FlatOp) :
    Except LoweringError Convolution := do
  let source ← operator.input 0
  let filterTensor ← operator.input 1
  let biasTensor ← operator.input 2
  let input ← graph.feed source
  let filter ← Filter.ofTensor operator filterTensor input.axes.c
  let window ← Window.ofOperator operator none
  let activation ← operator.activation
  let filterParam ← filter.param options filterTensor input.type.code
  let bias ← Bias.ofTensor options biasTensor filterTensor
  return { input, depthwise := filter.depthwise, window, activation, filter := filterParam, bias }

/-- Filter, bias and the scalars; a depthwise convolution has the depth multiplier 1 among them. -/
def params (convolution : Convolution) : List Param :=
  let multiplier := if convolution.depthwise then [1] else []
  convolution.filter :: convolution.bias.param ::
    (convolution.window.placement ++ multiplier ++ [convolution.activation.number]).map .int

def layer (options : LoweringOptions) (operator : FlatOp) (convolution : Convolution) : Layer where
  code := if convolution.depthwise then .depthwiseConv2d else .conv2d
  input := convolution.input.id
  params := convolution.params
  output := do
    let axes ← convolution.window.outputAxes operator convolution.input.axes
      convolution.bias.channels
    let type ← operator.outputType options convolution.input.type.code axes.toList .one 0
    return (← operator.outputName, type)

end Convolution

end NetLowering

import NetLowering.Lowering.Feed

/-!
# Average pooling

Pooling keeps the channels, the code and, unless the operator says otherwise,
the quantization of its input.  Global pooling has a window as large as the
input plane, whatever kernel the operator states.
-/

namespace NetLowering

structure Pooling where
  input : Feed
  window : Window
  activation : Activation
deriving DecidableEq

namespace Pooling

def plane (axes : Axes) : Extent := ⟨axes.h.toInt32, axes.w.toInt32⟩

def isGlobal (operator : FlatOp) : Except LoweringError Bool := do
  return (← operator.int? "global_pooling").getD 0 != 0

def ofOperator (graph : Graph) (operator : FlatOp) : Except LoweringError Pooling := do
  let source ← operator.input 0
  let input ← graph.feed source
  let isGlobal ← isGlobal operator
  let globalKernel := if isGlobal then some (plane input.axes) else none
  let window ← Window.ofOperator operator globalKernel
  let activation ← operator.activation
  return { input, window := { window with kernel := globalKernel.getD window.kernel }, activation }

def params (pooling : Pooling) : List Param :=
  let kernel := [pooling.window.kernel.width, pooling.window.kernel.height]
  (pooling.window.placement ++ kernel ++ [pooling.activation.number]).map .int

def layer (options : LoweringOptions) (operator : FlatOp) (pooling : Pooling) : Layer where
  code := .averagePool2d
  input := pooling.input.id
  params := pooling.params
  output := do
    let input := pooling.input
    let axes ← pooling.window.outputAxes operator input.axes input.axes.c
    let type ← operator.outputType options input.type.code axes.toList
      (input.type.scale.getD .one) (input.type.zeroPoint.getD 0)
    return (← operator.outputName, type)

end Pooling

end NetLowering

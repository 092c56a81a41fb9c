import NetLowering.Layout
import NetLowering.Tensor

/-!
# Initializers

Every operator of an initializer net states the facts of one tensor, its only
output.  A quantized net may ask for signed weights, and a channel-first net
has its four-axis tensors brought into channel-last order.
-/

namespace NetLowering

structure LoadOptions where
  quantized : Bool := false
  /-- Whether unsigned weights around 128 become signed weights around 0; only
  quantized nets have such weights. -/
  signedRemap : Bool := false
deriving DecidableEq, Repr

namespace Tensor

/-- The facts as the operator's arguments state them, later ones over earlier ones. -/
def stated (operator : NetOperator) : Except LoadError Tensor :=
  match operator.outputs with
  | [name] =>
    operator.arguments.foldlM (fun tensor argument => do
      let value ← argument.value
      return tensor.learn argument.label value) (.named name)
  | outputs => .error (.invalidInitializer (",".intercalate outputs) .outputCount)

def axis (size : Int32) : Except InitializerFault Nat :=
  if 0 ≤ size.toInt then .ok size.toInt.toNat else .error (.negativeDim size)

/-- Brings the values of a `(N, C, H, W)` tensor into the order `(N, H, W, C)`. -/
def valuesToChannelLast (n c h w : Int32) (values : Value) : Except InitializerFault Buffer := do
  let images ← axis n
  let channels ← axis c
  let rows ← axis h
  let columns ← axis w
  let some buffer := values.buffer? | throw .notNumeric
  (buffer.rearrange (toChannelLast images channels rows columns)).mapError .shape

/-- A tensor without values or without four axes has no layout and stays as it is. -/
def channelLast (tensor : Tensor) : Except InitializerFault Tensor :=
  match tensor.shape.bind Value.ints?, tensor.values with
  | some #[n, c, h, w], some values => do
    let rearranged ← valuesToChannelLast n c h w values
    return { tensor with
      shape := some (.numbers (.int32 (channelsLast #[n, c, h, w])))
      values := some (.numbers rearranged) }
  | _, _ => .ok tensor

def ofInitializer (options : LoadOptions) (layout : Layout) (operator : NetOperator) :
    Except LoadError Tensor := do
  let facts ← stated operator
  let tensor := if options.quantized && options.signedRemap then facts.remapSigned else facts
  match layout with
  | .channelFirst => tensor.channelLast.mapError (.invalidInitializer tensor.name)
  | .channelLast => return tensor

end Tensor

end NetLowering

import NetLowering.Lowering.Arguments

/-!
# Sliding windows

A window of some size moves over a padded plane in steps of its stride.  Along
one axis it stands at as many places as `windowCount` says; sizes, strides and
paddings are given per axis or as one number for all.
-/

namespace NetLowering

/-- How often a window of size `kernel` fits when it moves by `stride`, if it
fits at all and the count fits 32 bits. -/
def windowCount (extent : UInt32) (kernel padBegin padEnd stride : Int32) : Option UInt32 :=
  if stride ≤ 0 ∨ kernel ≤ 0 then none
  else
    let span := extent.toUInt64.toInt64 - kernel.toInt64 + padBegin.toInt64 + padEnd.toInt64
    if span < 0 then none
    else
      let count := span / stride.toInt64 + 1
      if count.toInt < UInt32.size then some (.ofNat count.toInt.toNat) else none

structure Axes where
  n : UInt32
  h : UInt32
  w : UInt32
  c : UInt32
deriving DecidableEq, Repr

namespace Axes

def toList (axes : Axes) : List UInt32 := [axes.n, axes.h, axes.w, axes.c]

def ofDims (tensor : String) (dims : List UInt32) : Except LoweringError Axes :=
  match dims with
  | [n, h, w, c] => .ok ⟨n, h, w, c⟩
  | _ => .error (.invalidShape tensor (.rank dims))

end Axes

structure Extent where
  height : Int32
  width : Int32
deriving DecidableEq, Repr

namespace Extent

def square (side : Int32) : Extent := ⟨side, side⟩

def toList (extent : Extent) : List Int32 := [extent.height, extent.width]

/-- The pair given by `name`, or by `sideName` for both axes. -/
def ofOperator? (operator : FlatOp) (name sideName : String) :
    Except LoweringError (Option Extent) := do
  let pair ← operator.optional name (fun value =>
    match value.ints? with
    | some #[height, width] => some (Extent.mk height width)
    | _ => none) (.expectedInts 2)
  match pair with
  | some extent => return some extent
  | none => return (← operator.int? sideName).map square

def checkPositive (extent : Extent) (operator : FlatOp) (name : String) :
    Except LoweringError Unit :=
  match extent.toList.find? fun number => number ≤ 0 with
  | some number => .error (operator.invalid name (.notPositive number))
  | none => .ok ()

end Extent

structure Pads where
  top : Int32
  left : Int32
  bottom : Int32
  right : Int32
deriving DecidableEq, Repr

namespace Pads

def around (size : Int32) : Pads := ⟨size, size, size, size⟩

def toList (pads : Pads) : List Int32 := [pads.top, pads.left, pads.bottom, pads.right]

/-- The four offsets of `pads`, or `pad` on every side, or none. -/
def given (operator : FlatOp) : Except LoweringError Pads := do
  let sides ← operator.optional "pads" (fun value =>
    match value.ints? with
    | some #[top, left, bottom, right] => some (Pads.mk top left bottom right)
    | _ => none) (.expectedInts 4)
  match sides with
  | some pads => return pads
  | none => return around ((← operator.int? "pad").getD 0)

def ofOperator (operator : FlatOp) : Except LoweringError Pads := do
  let pads ← given operator
  match pads.toList.find? fun number => number < 0 with
  | some number => throw (operator.invalid "pads" (.negative number))
  | none => return pads

end Pads

structure Window where
  kernel : Extent
  stride : Extent
  pads : Pads
deriving DecidableEq, Repr

namespace Window

/-- The window that an operator states; a kernel it does not state is the default one. -/
def ofOperator (operator : FlatOp) (defaultKernel : Option Extent) :
    Except LoweringError Window := do
  let givenKernel ← Extent.ofOperator? operator "kernels" "kernel"
  let kernel ← operator.required "kernels" (givenKernel.or defaultKernel)
  let stride := (← Extent.ofOperator? operator "strides" "stride").getD (.square 1)
  let pads ← Pads.ofOperator operator
  kernel.checkPositive operator "kernels"
  stride.checkPositive operator "strides"
  return ⟨kernel, stride, pads⟩

def outputAxes (window : Window) (operator : FlatOp) (input : Axes) (channels : UInt32) :
    Except LoweringError Axes :=
  let rows := windowCount input.h window.kernel.height window.pads.top window.pads.bottom
    window.stride.height
  let columns := windowCount input.w window.kernel.width window.pads.left window.pads.right
    window.stride.width
  match rows, columns with
  | some h, some w =>
    if 0 < h ∧ 0 < w then .ok ⟨input.n, h, w, channels⟩
    else .error (.invalidOutputShape operator.name)
  | _, _ => .error (.invalidOutputShape operator.name)

/-- Paddings and strides in the order in which operations take them. -/
def placement (window : Window) : List Int32 :=
  [window.pads.left, window.pads.right, window.pads.top, window.pads.bottom,
    window.stride.width, window.stride.height]

end Window

end NetLowering

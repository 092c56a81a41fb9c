import NetLowering.FlatNet
import NetLowering.Lowering.Error
import NetLowering.Operation

/-!
# Arguments of an operator

An argument that is there has to be of its kind; one that is missing has a
default or is an error, as the caller sees fit.
-/

namespace NetLowering.FlatOp

def invalid (operator : FlatOp) (name : String) (fault : ArgumentFault) : LoweringError :=
  .invalidArgument operator.name name fault

/-- The argument as `read` understands it; `fault` says what it should have been. -/
def optional (operator : FlatOp) (name : String) (read : Value → Option α)
    (fault : Value → ArgumentFault) : Except LoweringError (Option α) :=
  match operator.arguments.find? name with
  | none => .ok none
  | some value =>
    match read value with
    | some content => .ok (some content)
    | none => .error (operator.invalid name (fault value))

def int? (operator : FlatOp) (name : String) : Except LoweringError (Option Int32) :=
  operator.optional name Value.int? .expectedInt

def single? (operator : FlatOp) (name : String) : Except LoweringError (Option Single) :=
  operator.optional name Value.single? .expectedNumber

def required (operator : FlatOp) (name : String) (found : Option α) : Except LoweringError α :=
  match found with
  | some content => .ok content
  | none => .error (.missingArgument operator.name name)

def input (operator : FlatOp) (index : Nat) : Except LoweringError Tensor :=
  match operator.inputs[index]? with
  | some tensor => .ok tensor
  | none => .error (.missingInput operator.name index)

def outputName (operator : FlatOp) : Except LoweringError String :=
  match operator.outputs.head? with
  | some name => .ok name
  | none => .error (.missingInput operator.name 0)

/-- The activation with the bounds `bound_max` and `bound_min`; one bound alone is none. -/
def activation (operator : FlatOp) : Except LoweringError Activation := do
  let max ← operator.single? "bound_max"
  let min ← operator.single? "bound_min"
  match max, min with
  | some max, some min => return .ofBounds max min
  | _, _ => return .ofBounds .zero .zero

/-- How the output is quantized, each half given by the operator or by default. -/
def outputQuant (operator : FlatOp) (scale : Single) (zeroPoint : Int32) :
    Except LoweringError (Single × Int32) := do
  let givenScale ← operator.single? "Y_scale"
  let givenZeroPoint ← operator.int? "Y_zero_point"
  return (givenScale.getD scale, givenZeroPoint.getD zeroPoint)

end NetLowering.FlatOp

import NetLowering.LoadError
import NetLowering.Operand

/-!
# Why a flat net cannot be lowered

Every cause has a constructor with what its message needs.  Faults of one
argument or of one shape are causes of their own.
-/

namespace NetLowering

inductive ArgumentFault where
  | expectedInts (count : Nat) (got : Value)
  | expectedInt (got : Value)
  | expectedNumber (got : Value)
  | notPositive (number : Int32)
  | negative (number : Int32)
deriving DecidableEq

def ArgumentFault.message : ArgumentFault → String
  | .expectedInts count got => s!"expected {count} ints, got {got.render}"
  | .expectedInt got => s!"expected an int, got {got.render}"
  | .expectedNumber got => s!"expected a number, got {got.render}"
  | .notPositive number => s!"{number.toInt} is not positive"
  | .negative number => s!"{number.toInt} is negative"

inductive ShapeFault where
  | rank (dims : List UInt32)
  | notDims (shape : Value)
  | depthwise (dims : List UInt32) (values : Nat)
  | layout (error : ShapeError)
  | noDims
  | valueCount (values : Nat) (dims : List UInt32)
deriving DecidableEq

def ShapeFault.message : ShapeFault → String
  | .rank dims => s!"expected 4 dimensions, got {renderDims dims}"
  | .notDims shape => s!"{shape.render} is not a list of dimensions"
  | .depthwise dims values =>
    s!"depthwise filter {renderDims dims} with {values} values is not (N, H, W, 1)"
  | .layout error => error.message
  | .noDims => "bias has no dimensions"
  | .valueCount values dims => s!"{values} values for dimensions {renderDims dims}"

inductive LoweringError where
  | unresolvedTensor (name : String)
  | unsupportedOperator (type : String)
  | unsupportedGrouping (operator : String) (group : Int32) (channels : UInt32)
  | missingArgument (operator : String) (name : String)
  | invalidArgument (operator : String) (name : String) (fault : ArgumentFault)
  | missingInput (operator : String) (index : Nat)
  | missingFact (tensor : String) (fact : String)
  | invalidShape (tensor : String) (fault : ShapeFault)
  | invalidOutputShape (operator : String)
  | invalidInputSize (size : List UInt32)
  | emptyModel
  | duplicateTensor (name : String)
  | duplicateValue (index : Nat)
  | unknownOperand (index : Nat)
deriving DecidableEq

def LoweringError.message : LoweringError → String
  | .unresolvedTensor name => s!"Tensor '{name}' is not found"
  | .unsupportedOperator type => s!"Operator '{type}' is not supported"
  | .unsupportedGrouping operator group channels =>
    s!"Operator '{operator}': group {group.toInt} is neither 1 nor the input depth {channels.toNat}"
  | .missingArgument operator name =>
    s!"Operator '{operator}': argument '{name}' is not specified"
  | .invalidArgument operator name fault =>
    s!"Operator '{operator}': argument '{name}' is invalid: {fault.message}"
  | .missingInput operator index => s!"Operator '{operator}': input #{index} is not specified"
  | .missingFact tensor fact => s!"Tensor '{tensor}' has no '{fact}' in the initializer net"
  | .invalidShape tensor fault => s!"Tensor '{tensor}' has an invalid shape: {fault.message}"
  | .invalidOutputShape operator =>
    s!"Operator '{operator}': the window does not fit in the input"
  | .invalidInputSize size => s!"Input size {renderDims size} is invalid"
  | .emptyModel => "Model contains no operators"
  | .duplicateTensor name => s!"Tensor '{name}' is defined more than once"
  | .duplicateValue index => s!"Operand {index} already has a value"
  | .unknownOperand index => s!"Operand {index} does not exist"

end NetLowering

import NetLowering.Operand

/-!
# Operations

An operation reads operands and writes operands.  Its activation is the bound
that is applied to the result before it is written.
-/

namespace NetLowering

inductive OperationCode where
  | averagePool2d
  | conv2d
  | depthwiseConv2d
  | softmax
deriving DecidableEq, Repr

namespace OperationCode

/-- All codes, in ascending order of their numbers. -/
def all : List OperationCode := [.averagePool2d, .conv2d, .depthwiseConv2d, .softmax]

def number : OperationCode → Nat
  | .averagePool2d => 1
  | .conv2d => 3
  | .depthwiseConv2d => 4
  | .softmax => 25

def name : OperationCode → String
  | .averagePool2d => "AVERAGE_POOL_2D"
  | .conv2d => "CONV_2D"
  | .depthwiseConv2d => "DEPTHWISE_CONV_2D"
  | .softmax => "SOFTMAX"

/-- The short name that lists of codes use. -/
def label : OperationCode → String
  | .averagePool2d => "AveragePool2d"
  | .conv2d => "Conv2d"
  | .depthwiseConv2d => "DepthwiseConv2d"
  | .softmax => "Softmax"

def renderList (codes : List OperationCode) : String := Text.bracketed (codes.map label)

end OperationCode

inductive Activation where
  | none
  | relu
  | relu1
  | relu6
deriving DecidableEq, Repr

namespace Activation

def number : Activation → Int32
  | .none => 0
  | .relu => 1
  | .relu1 => 2
  | .relu6 => 3

private def six : Single := ⟨0x40c00000⟩

private def minusOne : Single := ⟨0xbf800000⟩

/-- The activation with these bounds; bounds that no activation has count as none. -/
def ofBounds (max min : Single) : Activation :=
  if max.sameNumber six && min.sameNumber .zero then .relu6
  else if max.sameNumber .one && min.sameNumber minusOne then .relu1
  else .none

end Activation

structure Operation where
  code : OperationCode
  inputs : List OperandId
  outputs : List OperandId
deriving DecidableEq, Repr

def renderIds (ids : List OperandId) : String :=
  Text.bracketed (ids.map fun id => toString id.index)

def Operation.render (operation : Operation) : String :=
  s!"{operation.code.name} {renderIds operation.inputs} -> {renderIds operation.outputs}"

end NetLowering

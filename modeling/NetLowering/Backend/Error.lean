import NetLowering.Operation

/-!
# Why a backend refuses a call

Every cause has a constructor with what its message needs.
-/

namespace NetLowering

inductive OperandFault where
  | valueType (type : ElemType) (code : OperandCode)
  | valueCount (values : Nat) (dims : List UInt32)
  | valueTwice
  | notPerChannel (code : OperandCode)
  | scaleCount (scales : Nat) (channelDim : UInt32) (dims : List UInt32)
  | bufferType (type : ElemType) (operand : OperandType)
deriving DecidableEq, Repr

def OperandFault.message : OperandFault → String
  | .valueType type code => s!"{type.name} value for {code.name}"
  | .valueCount values dims => s!"{values} values for {renderDims dims}"
  | .valueTwice => "value is already set"
  | .notPerChannel code => s!"{code.name} is not per-channel quantized"
  | .scaleCount scales channelDim dims =>
    s!"{scales} scales along dimension {channelDim.toNat} of {renderDims dims}"
  | .bufferType type operand => s!"buffer {type.name} does not fit {operand.render}"

inductive BackendError where
  | unknownOperand (index : UInt32)
  | invalidOperand (index : UInt32) (fault : OperandFault)
  | unsupportedOperation (code : OperationCode)
  | alreadyFinished
  | notFinished
  | badIndex (index : UInt32)
  | inputNotSet (index : Nat)
  | outputNotSet (index : Nat)
deriving DecidableEq, Repr

def BackendError.message : BackendError → String
  | .unknownOperand index => s!"Operand {index} does not exist"
  | .invalidOperand index fault => s!"Operand {index}: {fault.message}"
  | .unsupportedOperation code => s!"Operation {code.name} is not supported"
  | .alreadyFinished => "Model is already finished"
  | .notFinished => "Model or compilation is not finished"
  | .badIndex index => s!"No input/output #{index}"
  | .inputNotSet index => s!"input {index} is not set"
  | .outputNotSet index => s!"output {index} is not set"

end NetLowering

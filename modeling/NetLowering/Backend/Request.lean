import NetLowering.Backend.Error

/-!
# Populating a model

A backend's model is filled by requests, which name operands by indices of 32
bits.  How it answers them is its own affair: a respondent may refuse any
request and may change either way, and only for a new operand does its answer
say something, the operand's index.
-/

namespace NetLowering

inductive Request where
  | addOperand (type : OperandType)
  | setValue (index : UInt32) (value : Buffer)
  | setChannelQuant (index : UInt32) (quant : ChannelQuant)
  | addOperation (code : OperationCode) (inputs outputs : List UInt32)
  | identify (inputs outputs : List UInt32)
deriving DecidableEq

def Request.Answer : Request → Type
  | .addOperand _ => UInt32
  | _ => Unit

/-- A model with states `σ`, as seen by whoever fills it. -/
abbrev Respondent (σ : Type) :=
  (request : Request) → σ → Except BackendError request.Answer × σ

structure ModelOptions where
  /-- Operations run one by one as they are added. -/
  eager : Bool := false
  /-- The operations that may be added; any, if none is listed. -/
  supported : List OperationCode := []
deriving DecidableEq, Repr

inductive Preference where
  | lowPower
  | fastSingleAnswer
  | sustainedSpeed
deriving DecidableEq, Repr, Inhabited

namespace Preference

def all : List Preference := [.lowPower, .fastSingleAnswer, .sustainedSpeed]

def number : Preference → Nat
  | .lowPower => 0
  | .fastSingleAnswer => 1
  | .sustainedSpeed => 2

def label : Preference → String
  | .lowPower => "LowPower"
  | .fastSingleAnswer => "FastSingleAnswer"
  | .sustainedSpeed => "SustainedSpeed"

end Preference

end NetLowering

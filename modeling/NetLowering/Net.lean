import NetLowering.Value

/-!
# Nets

A net is a list of operators that read and write named tensors.  The schema
gives an argument one field for every kind of payload; which of them are filled
is for the reader of the argument to judge.  Nested tensors and nets are kept
as bytes.
-/

namespace NetLowering

structure Argument where
  name : Option String := none
  float : Option Single := none
  int : Option Int64 := none
  bytes : Option Bytes := none
  tensor : Option Bytes := none
  net : Option Bytes := none
  floats : List Single := []
  ints : List Int64 := []
  strings : List Bytes := []
  tensors : List Bytes := []
  nets : List Bytes := []
  qtensors : List Bytes := []
deriving DecidableEq, Repr, Inhabited

structure NetOperator where
  inputs : List String := []
  outputs : List String := []
  name : Option String := none
  type : Option String := none
  arguments : List Argument := []
  engine : Option String := none
deriving DecidableEq, Repr, Inhabited

structure Net where
  name : Option String := none
  operators : List NetOperator := []
  type : Option String := none
  arguments : List Argument := []
  externalInputs : List String := []
  externalOutputs : List String := []
deriving DecidableEq, Repr, Inhabited

/-! ## Payloads -/

inductive PayloadKind where
  | int
  | float
  | bytes
  | ints
  | floats
  | strings
  | tensor
  | net
  | tensors
  | nets
  | qtensors
deriving DecidableEq, Repr

namespace PayloadKind

def all : List PayloadKind :=
  [.int, .float, .bytes, .ints, .floats, .strings, .tensor, .net, .tensors, .nets, .qtensors]

def field : PayloadKind → String
  | .int => "i"
  | .float => "f"
  | .bytes => "s"
  | .ints => "ints"
  | .floats => "floats"
  | .strings => "strings"
  | .tensor => "t"
  | .net => "n"
  | .tensors => "tensors"
  | .nets => "nets"
  | .qtensors => "qtensors"

end PayloadKind

namespace Argument

/-- A missing name counts as the empty one. -/
def label (argument : Argument) : String := argument.name.getD ""

/-- Whether a payload of this kind is there: an optional field once it is
present, even if empty, and a repeated one once it has an element. -/
def holds (argument : Argument) : PayloadKind → Bool
  | .int => argument.int.isSome
  | .float => argument.float.isSome
  | .bytes => argument.bytes.isSome
  | .ints => !argument.ints.isEmpty
  | .floats => !argument.floats.isEmpty
  | .strings => !argument.strings.isEmpty
  | .tensor => argument.tensor.isSome
  | .net => argument.net.isSome
  | .tensors => !argument.tensors.isEmpty
  | .nets => !argument.nets.isEmpty
  | .qtensors => !argument.qtensors.isEmpty

def populated (argument : Argument) : List PayloadKind :=
  PayloadKind.all.filter argument.holds

theorem mem_populated {argument : Argument} {kind : PayloadKind} :
    kind ∈ argument.populated ↔ argument.holds kind := by
  cases kind <;> simp [populated, PayloadKind.all]

end Argument

end NetLowering

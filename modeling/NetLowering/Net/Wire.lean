import NetLowering.Wire.Field

/-!
# Nets on the wire

A message collects its fields one after the other: a repeated field adds to its
list, any other takes the place of what was there, and tags that the schema
does not know are passed over.  A known tag with a payload of the wrong form is
an error.
-/

namespace NetLowering

open Wire

def Argument.collect (argument : Argument) (field : Field) : Option Argument :=
  let payload := field.payload
  match field.tag with
  | 1 => payload.text?.map fun name => { argument with name := some name }
  | 2 => payload.single?.map fun float => { argument with float := some float }
  | 3 => payload.int?.map fun int => { argument with int := some int }
  | 4 => payload.bytes?.map fun bytes => { argument with bytes := some bytes }
  | 5 => payload.singles?.map fun floats => { argument with floats := argument.floats ++ floats }
  | 6 => payload.ints?.map fun ints => { argument with ints := argument.ints ++ ints }
  | 7 => payload.bytes?.map fun bytes => { argument with strings := argument.strings ++ [bytes] }
  | 8 => payload.bytes?.map fun bytes => { argument with net := some bytes }
  | 9 => payload.bytes?.map fun bytes => { argument with nets := argument.nets ++ [bytes] }
  | 10 => payload.bytes?.map fun bytes => { argument with tensor := some bytes }
  | 11 => payload.bytes?.map fun bytes => { argument with tensors := argument.tensors ++ [bytes] }
  | 12 => payload.bytes?.map fun bytes => { argument with qtensors := argument.qtensors ++ [bytes] }
  | _ => some argument

def Argument.ofBytes (budget : Nat) (bytes : Bytes) : Option Argument := do
  (← fields budget bytes).foldlM collect {}

def NetOperator.collect (budget : Nat) (operator : NetOperator) (field : Field) :
    Option NetOperator :=
  let payload := field.payload
  match field.tag with
  | 1 => payload.text?.map fun name => { operator with inputs := operator.inputs ++ [name] }
  | 2 => payload.text?.map fun name => { operator with outputs := operator.outputs ++ [name] }
  | 3 => payload.text?.map fun name => { operator with name := some name }
  | 4 => payload.text?.map fun type => { operator with type := some type }
  | 5 => do
    let argument ← Argument.ofBytes (budget - 1) (← payload.bytes?)
    return { operator with arguments := operator.arguments ++ [argument] }
  | 7 => payload.text?.map fun engine => { operator with engine := some engine }
  | _ => some operator

def NetOperator.ofBytes (budget : Nat) (bytes : Bytes) : Option NetOperator := do
  (← fields budget bytes).foldlM (collect budget) {}

def Net.collect (budget : Nat) (net : Net) (field : Field) : Option Net :=
  let payload := field.payload
  match field.tag with
  | 1 => payload.text?.map fun name => { net with name := some name }
  | 2 => do
    let operator ← NetOperator.ofBytes (budget - 1) (← payload.bytes?)
    return { net with operators := net.operators ++ [operator] }
  | 3 => payload.text?.map fun type => { net with type := some type }
  | 6 => do
    let argument ← Argument.ofBytes (budget - 1) (← payload.bytes?)
    return { net with arguments := net.arguments ++ [argument] }
  | 7 => payload.text?.map fun name => { net with externalInputs := net.externalInputs ++ [name] }
  | 8 => payload.text?.map fun name => { net with externalOutputs := net.externalOutputs ++ [name] }
  | _ => some net

/-- How deep messages and groups may nest. -/
def nestingBudget : Nat := 100

def Net.ofBytes (bytes : Bytes) : Option Net := do
  (← fields nestingBudget bytes).foldlM (collect nestingBudget) {}

end NetLowering

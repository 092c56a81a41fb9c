import NetLowering.LoadError

/-!
# Reading arguments

An argument has a value exactly if one payload is filled, that payload is
numeric or bytes, and its integers fit 32 bits.  A scalar reads as an array of
size 1, bytes as one element per byte.
-/

namespace NetLowering.Argument

def narrow (argument : Argument) (value : Int64) : Except LoadError Int32 :=
  if Int32.minValue.toInt ≤ value.toInt ∧ value.toInt ≤ Int32.maxValue.toInt then
    .ok value.toInt32
  else .error (.integerOverflow argument.label value)

def narrowAll (argument : Argument) (values : List Int64) : Except LoadError Buffer := do
  let narrowed ← values.mapM argument.narrow
  return .int32 narrowed.toArray

def payload (argument : Argument) : PayloadKind → Except LoadError Buffer
  | .int => argument.narrowAll argument.int.toList
  | .ints => argument.narrowAll argument.ints
  | .float => .ok (.float32 argument.float.toList.toArray)
  | .floats => .ok (.float32 argument.floats.toArray)
  | .bytes => .ok (.uint8 (argument.bytes.getD []).toArray)
  | kind => .error (.unsupportedPayload argument.label kind)

def value (argument : Argument) : Except LoadError Value :=
  match argument.populated with
  | [kind] => Value.numbers <$> argument.payload kind
  | kinds => .error (.malformedArgument argument.label kinds.length)

end NetLowering.Argument

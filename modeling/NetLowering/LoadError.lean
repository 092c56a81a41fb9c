import NetLowering.Net
import NetLowering.PathName

/-!
# Why nets fail to load

Every cause has a constructor with what its message needs.
-/

namespace NetLowering

/-- A buffer does not have the shape it is said to have. -/
inductive ShapeError where
  /-- The number of elements is not the product of the axes. -/
  | incompatible
  /-- The product of the axes that are not empty is beyond every address. -/
  | overflow
deriving DecidableEq, Repr

def ShapeError.message : ShapeError → String
  | .incompatible => "ShapeError/IncompatibleShape: incompatible shapes"
  | .overflow => "ShapeError/Overflow: arithmetic overflow"

inductive InitializerFault where
  | outputCount
  | negativeDim (dim : Int32)
  | notNumeric
  | shape (error : ShapeError)
deriving DecidableEq, Repr

def InitializerFault.message : InitializerFault → String
  | .outputCount => "an initializer must have exactly one output"
  | .negativeDim dim => s!"negative dimension {dim.toInt}"
  | .notNumeric => "values are not numeric"
  | .shape error => error.message

inductive LoadError where
  | unreadable (path : Path)
  | invalidModel
  | malformedArgument (name : String) (populated : Nat)
  | unsupportedPayload (name : String) (kind : PayloadKind)
  | integerOverflow (name : String) (value : Int64)
  | duplicateTensor (name : String)
  | invalidInitializer (tensor : String) (fault : InitializerFault)
  | noInitPath (path : Path)
deriving DecidableEq, Repr

def LoadError.message : LoadError → String
  | .unreadable path => s!"Cannot read {Text.quotedBytes path}"
  | .invalidModel => "Model is invalid"
  | .malformedArgument name populated =>
    s!"Argument '{name}' must have exactly one populated field, found {populated}"
  | .unsupportedPayload name kind =>
    s!"Argument '{name}' has unsupported kind '{kind.field}'"
  | .integerOverflow name value =>
    s!"Argument '{name}' holds {value.toInt}, which does not fit in int32"
  | .duplicateTensor name => s!"Tensor '{name}' is produced by more than one initializer"
  | .invalidInitializer tensor fault => s!"Initializer '{tensor}' is invalid: {fault.message}"
  | .noInitPath path => s!"Cannot derive the initializer path from {Text.quotedBytes path}"

end NetLowering

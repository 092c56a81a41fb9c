import NetLowering.FlatNet
import NetLowering.Net.Wire
import NetLowering.PathName

/-!
# Loading nets

Nets are loaded from bytes or from files, and files are opened by a reader in some
monad.  The predict net is read before the initializer net, and a path for the
latter is derived before either is read.
-/

namespace NetLowering

/-- What opening a path gives in the monad `m`: its bytes, if it can be read. -/
abbrev Reader (m : Type → Type) := Path → m (Option Bytes)

/-- Files whose paths are text. -/
abbrev Files := String → Option Bytes

def Files.reader (files : Files) : Reader Id := fun path => (Text.ofBytes? path).bind files

variable {m : Type → Type} [Monad m]

namespace Net

def decode (bytes : Bytes) : Except LoadError Net :=
  match ofBytes bytes with
  | some net => .ok net
  | none => .error .invalidModel

theorem decode_eq_ok_iff {bytes : Bytes} {net : Net} :
    decode bytes = .ok net ↔ ofBytes bytes = some net := by
  rw [decode]
  split <;> simp_all

def load (reader : Reader m) (path : Path) : ExceptT LoadError m Net := do
  match ← reader path with
  | some bytes => decode bytes
  | none => throw (.unreadable path)

def read (files : Files) (path : String) : Except LoadError Net :=
  (load files.reader (Text.bytes path)).run

end Net

namespace FlatNet

def ofBytes (options : LoadOptions) (predict init : Bytes) : Except LoadError FlatNet := do
  let predictNet ← Net.decode predict
  let initNet ← Net.decode init
  join options predictNet initNet

def load (options : LoadOptions) (reader : Reader m) (predict init : Path) :
    ExceptT LoadError m FlatNet := do
  let predictNet ← Net.load reader predict
  let initNet ← Net.load reader init
  join options predictNet initNet

/-- Takes the initializer net that lies beside the predict net. -/
def loadPair (options : LoadOptions) (reader : Reader m) (predict : Path) :
    ExceptT LoadError m FlatNet :=
  match PathName.initOf? predict with
  | some init => load options reader predict init
  | none => throw (.noInitPath predict)

/-! ## Paths that are text -/

def ofFiles (options : LoadOptions) (files : Files) (predict init : String) :
    Except LoadError FlatNet :=
  (load options files.reader (Text.bytes predict) (Text.bytes init)).run

def ofPair (options : LoadOptions) (files : Files) (predict : String) : Except LoadError FlatNet :=
  (loadPair options files.reader (Text.bytes predict)).run

end FlatNet

end NetLowering

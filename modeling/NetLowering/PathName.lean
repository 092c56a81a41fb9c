import NetLowering.Text.Utf8

/-!
# Path names

A path names a file by segments between slashes.  Its last segment is the file
name; slashes and single dots after it do not count, and `..` is no file name.
What stands before it is kept as it is written.  A path is made of bytes, and
only a file name that is text can be taken for another one.
-/

namespace NetLowering

/-- A path as a file system has it. -/
abbrev Path := Bytes

namespace PathName

def slash : UInt8 := 0x2f

def dot : UInt8 := 0x2e

def join (segments : List Bytes) : Bytes := [slash].intercalate segments

/-- The part before the first segment: the root, or the directory at hand. -/
def anchor (path : Path) : Bytes :=
  if path.head? = some slash then [slash]
  else if path = [dot] ∨ [dot, slash] <+: path then [dot]
  else []

def isBlank (segment : Bytes) : Bool := segment == [] || segment == [dot]

def trimEnd (segments : List Bytes) : List Bytes :=
  (segments.reverse.dropWhile isBlank).reverse

/-- The segments after the anchor, without blank ones at the end. -/
def segments (path : Path) : List Bytes :=
  trimEnd ((path.drop (anchor path).length).splitOn slash)

def fileName? (path : Path) : Option Bytes :=
  (segments path).getLast?.filter (· ≠ [dot, dot])

/-- The path of the directory that holds the file, as it is written. -/
def parent (path : Path) : Path :=
  anchor path ++ join (trimEnd (segments path).dropLast)

def child (directory : Path) (name : Bytes) : Path :=
  if directory = [] ∨ directory.getLast? = some slash then directory ++ name
  else directory ++ slash :: name

/-! ## Initializer paths -/

/-- Puts `replacement` in the place of the last occurrence of `pattern`. -/
def replaceLast? (pattern replacement : List Char) : List Char → Option (List Char)
  | [] => none
  | char :: rest =>
    match replaceLast? pattern replacement rest with
    | some replaced => some (char :: replaced)
    | none =>
      if pattern.isPrefixOf (char :: rest) then
        some (replacement ++ (char :: rest).drop pattern.length)
      else none

/-- The initializer net of a predict net lies beside it, with `init` for the
last `predict` in its name. -/
def initOf? (predict : Path) : Option Path := do
  let name ← Text.ofBytes? (← fileName? predict)
  let initName ← replaceLast? "predict".toList "init".toList name.toList
  return child (parent predict) (Text.bytes (String.ofList initName))

/-- The same for a path that is text. -/
def initPath? (predict : String) : Option String :=
  (initOf? (Text.bytes predict)).bind Text.ofBytes?

end PathName

end NetLowering

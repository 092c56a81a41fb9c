/-!
# Command-line arguments

Options and paths are read from left to right.  An unknown option or a second
path refuses the command at once, and a question about the command itself is
answered at once; whether the rest makes a command is judged at the end.
-/

namespace NetLowering.CommandLine

structure Options where
  predict : String
  init : Option String
  inputSize : List UInt32
  quantized : Bool
  signed : Bool
  emitSoftmax : Bool
  run : Bool
deriving DecidableEq, Repr

inductive Flag where
  | quantized
  | signed
  | emitSoftmax
  | run
deriving DecidableEq, Repr

inductive Setting where
  | init
  | inputSize
deriving DecidableEq, Repr

inductive Inquiry where
  | help
  | version
deriving DecidableEq, Repr

def Inquiry.ofLetter? : Char → Option Inquiry
  | 'h' => some .help
  | 'V' => some .version
  | _ => none

inductive OptionKind where
  | flag (flag : Flag)
  | setting (setting : Setting)
  | inquiry (inquiry : Inquiry)
deriving DecidableEq, Repr

def OptionKind.ofName? : String → Option OptionKind
  | "quantized" => some (.flag .quantized)
  | "signed" => some (.flag .signed)
  | "emit-softmax" => some (.flag .emitSoftmax)
  | "run" => some (.flag .run)
  | "init" => some (.setting .init)
  | "input-size" => some (.setting .inputSize)
  | "help" => some (.inquiry .help)
  | "version" => some (.inquiry .version)
  | _ => none

/-- Why the arguments name nothing to compile. -/
inductive Stop where
  | refused
  | inquiry (inquiry : Inquiry)
deriving DecidableEq, Repr

/-! ## Sorting the arguments -/

/-- What the arguments hold, each as often and in the order it is given. -/
structure Given where
  paths : List String := []
  flags : List Flag := []
  /-- The path is missing where `--init` stands without one. -/
  inits : List (Option String) := []
  sizes : List String := []
deriving DecidableEq, Repr

/-- Numbers of a size are separated by commas; one more comma may end them. -/
def sizeParts (text : String) : List String :=
  let separated :=
    match text.toList.reverse with
    | ',' :: rest => rest.reverse
    | _ => text.toList
  (separated.splitOn ',').map String.ofList

def Given.set (given : Given) (setting : Setting) (text : String) : Given :=
  match setting with
  | .init => { given with inits := given.inits ++ [some text] }
  | .inputSize => { given with sizes := given.sizes ++ sizeParts text }

/-- Whether the argument is an option and not a path or the value of an option. -/
def isOption (argument : String) : Bool :=
  match argument.toList with
  | '-' :: _ :: _ => true
  | _ => false

/-- The name of a long option and the text after its first equals signs. -/
def splitOption (option : List Char) : String × Option String :=
  let bare := option.dropWhile (· == '-')
  let name := String.ofList (bare.takeWhile (· != '='))
  match bare.dropWhile (· != '=') with
  | _ :: text => (name, some (String.ofList (text.dropWhile (· == '='))))
  | [] => (name, none)

inductive Expected where
  | path
  | init
  /-- Sizes may follow each other until one argument lists several. -/
  | size
deriving DecidableEq, Repr

/-- An option or the end comes instead of what was expected. -/
def Given.disappoint (given : Given) : Expected → Given
  | .init => { given with inits := given.inits ++ [none] }
  | .path | .size => given

def Given.takeOption (given : Given) (option : String) : Except Stop (Given × Expected) :=
  match option.toList with
  | '-' :: '-' :: name =>
    let (name, text) := splitOption name
    match OptionKind.ofName? name, text with
    | none, _ => .error .refused
    | some (.inquiry inquiry), _ => .error (.inquiry inquiry)
    | some (.flag flag), _ => .ok ({ given with flags := given.flags ++ [flag] }, .path)
    | some (.setting setting), some text => .ok (given.set setting text, .path)
    | some (.setting .init), none => .ok (given, .init)
    | some (.setting .inputSize), none => .ok (given, .size)
  | _ :: letter :: _ =>
    match Inquiry.ofLetter? letter with
    | some inquiry => .error (.inquiry inquiry)
    | none => .error .refused
  | _ => .error .refused

/-- Sorts the arguments; after two dashes everything is a path. -/
def sort (given : Given) (expected : Expected) : List String → Except Stop Given
  | [] => .ok (given.disappoint expected)
  | argument :: rest =>
    if argument = "--" then
      let given := given.disappoint expected
      .ok { given with paths := given.paths ++ rest }
    else if isOption argument then
      match (given.disappoint expected).takeOption argument with
      | .ok (given, expected) => sort given expected rest
      | .error stop => .error stop
    else
      match expected with
      | .path =>
        if given.paths.isEmpty then sort { given with paths := [argument] } .path rest
        else .error .refused
      | .init => sort (given.set .init argument) .path rest
      | .size =>
        sort (given.set .inputSize argument)
          (if ',' ∈ argument.toList then .path else .size) rest

/-! ## Judging them -/

def digits? (text : List Char) : Option Nat :=
  if text.isEmpty || !text.all Char.isDigit then none
  else some (text.foldl (fun number digit => 10 * number + (digit.toNat - 48)) 0)

/-- An unsigned number of 32 bits, perhaps with a plus sign. -/
def unsigned? (text : String) : Option UInt32 := do
  let number ←
    match text.toList with
    | '+' :: rest => digits? rest
    | plain => digits? plain
  if number < UInt32.size then some (.ofNat number) else none

def defaultSize : List UInt32 := [224, 224, 3]

namespace Given

/-- At most one `--init` may stand, and with its path. -/
def init? (given : Given) : Option (Option String) :=
  match given.inits with
  | [] => some none
  | [some path] => some (some path)
  | _ => none

/-- The options, if there is one path and nothing but sizes is given twice. -/
def options? (given : Given) : Option Options := do
  let [predict] := given.paths | none
  let init ← given.init?
  if !given.flags.Nodup then none
  let sizes ← given.sizes.mapM unsigned?
  return {
    predict
    init
    inputSize := if sizes.isEmpty then defaultSize else sizes
    quantized := given.flags.contains .quantized
    signed := given.flags.contains .signed
    emitSoftmax := given.flags.contains .emitSoftmax
    run := given.flags.contains .run }

end Given

def parse (arguments : List String) : Except Stop Options :=
  match sort {} .path arguments with
  | .error stop => .error stop
  | .ok given =>
    match given.options? with
    | some options => .ok options
    | none => .error .refused

end NetLowering.CommandLine

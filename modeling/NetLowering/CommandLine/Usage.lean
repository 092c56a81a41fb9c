import NetLowering.CommandLine.Arguments

/-!
# What the command says of itself
-/

namespace NetLowering.CommandLine

def title : String := "compile 0.1.0"

def usage : List String :=
  ["USAGE:",
    "    compile [FLAGS] [OPTIONS] <predict>",
    "",
    "FLAGS:",
    "        --emit-softmax    Emit SOFTMAX instead of aliasing it",
    "    -h, --help            Prints help information",
    "        --quantized       Build a quantized graph",
    "        --run             Run one computation on a zero input",
    "        --signed          Remap uint8 weights to int8",
    "    -V, --version         Prints version information",
    "",
    "OPTIONS:",
    "        --init <init>                   Path to the init net. " ++
      "Derived from the predict net path if omitted",
    "        --input-size <input-size>...    Input size as H,W,C [default: 224,224,3]",
    "",
    "ARGS:",
    "    <predict>    Path to the predict net (*predict*.pb)"]

def Inquiry.answer : Inquiry → List String
  | .help => title :: "" :: usage
  | .version => [title]

end NetLowering.CommandLine

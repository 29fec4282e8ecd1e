/-!
# Arguments of a run

Arguments are read from left to right, and the first one that settles the request
does so whatever follows it.  An argument that begins with a dash and is longer
than a dash is an option, until `--` makes all the rest inputs.  Short options
may be given in one cluster.
-/

namespace Calculator.CommandLine

inductive Flag where
  | file
  | strictDivision
  | verbose
  | help
  | version
  deriving DecidableEq, Repr

namespace Flag

def ofLong? : String → Option Flag
  | "file" => some file
  | "strict-division" => some strictDivision
  | "verbose" => some verbose
  | "help" => some help
  | "version" => some version
  | _ => none

def ofShort? : Char → Option Flag
  | 'f' => some file
  | 'v' => some verbose
  | 'h' => some help
  | 'V' => some version
  | _ => none

end Flag

structure Arguments where
  readsFiles : Bool
  strictDivision : Bool
  verbosity : Nat
  inputs : List String
  deriving DecidableEq, Repr

inductive Request where
  | evaluate (arguments : Arguments)
  | help
  | version
  | misuse
  deriving DecidableEq, Repr

namespace Arguments

def initial : Arguments := ⟨false, false, 0, []⟩

def withInputs (arguments : Arguments) (inputs : List String) : Arguments :=
  { arguments with inputs := arguments.inputs ++ inputs }

/-- Take one flag, or settle the request.  Only the verbosity may be raised repeatedly. -/
def take (arguments : Arguments) : Flag → Except Request Arguments
  | .file =>
      if arguments.readsFiles then .error .misuse
      else .ok { arguments with readsFiles := true }
  | .strictDivision =>
      if arguments.strictDivision then .error .misuse
      else .ok { arguments with strictDivision := true }
  | .verbose => .ok { arguments with verbosity := arguments.verbosity + 1 }
  | .help => .error .help
  | .version => .error .version

def takeLong (arguments : Arguments) (name : List Char) : Except Request Arguments :=
  match Flag.ofLong? (String.ofList name) with
  | some flag => arguments.take flag
  | none => .error .misuse

def takeCluster (arguments : Arguments) : List Char → Except Request Arguments
  | [] => .ok arguments
  | c :: cluster =>
      match Flag.ofShort? c with
      | some flag =>
          match arguments.take flag with
          | .ok taken => taken.takeCluster cluster
          | .error request => .error request
      | none => .error .misuse

end Arguments

namespace Request

def resume (given : Arguments) : List String → Request
  | [] => evaluate given
  | argument :: rest =>
      match argument.toList with
      | ['-', '-'] => evaluate (given.withInputs rest)
      | '-' :: '-' :: name =>
          match given.takeLong name with
          | .ok taken => resume taken rest
          | .error request => request
      | '-' :: c :: cluster =>
          match given.takeCluster (c :: cluster) with
          | .ok taken => resume taken rest
          | .error request => request
      | _ => resume (given.withInputs [argument]) rest

def ofArguments (arguments : List String) : Request := resume .initial arguments

def paths : Request → List String
  | evaluate arguments => if arguments.readsFiles then arguments.inputs else []
  | _ => []

end Request

end Calculator.CommandLine

import Deployment.Decimal.Digits
import Deployment.Text.Split

namespace Deployment.CommandLine

inductive OutputFormat where
  | summary
  | json
  | yaml
  deriving DecidableEq

inductive Shell where
  | bash
  | elvish
  | fish
  | powershell
  | zsh
  deriving DecidableEq

inductive Request where
  | parse (manifest : String) (format : OutputFormat)
  | render (manifest job : String) (index : UInt64) (source target : String)
  | completions (shell : Shell)
  deriving DecidableEq

structure Invocation where
  config : Option String := none
  verbose : Bool := false
  trace : Bool := false
  request : Request
  deriving DecidableEq

inductive Refusal where
  | help
  | version
  | misuse
  deriving DecidableEq

namespace Arguments

inductive Level where
  | top
  | parse
  | render
  | completions
  deriving DecidableEq

inductive ValueOption where
  | config
  | format
  | job
  | index
  deriving DecidableEq

inductive Flag where
  | verbose
  | trace
  | help
  | version
  deriving DecidableEq

def Level.operandCount : Level → Nat
  | .top => 0
  | .parse => 1
  | .render => 3
  | .completions => 1

def Level.ofName? (name : String) : Option Level :=
  match name with
  | "parse" => some .parse
  | "render" => some .render
  | "completions" => some .completions
  | _ => none

def valueOption? (level : Level) (name : String) : Option ValueOption :=
  match level, name with
  | _, "config" => some .config
  | .parse, "format" => some .format
  | .render, "job" => some .job
  | .render, "index" => some .index
  | _, _ => none

def longFlag? (level : Level) (name : String) : Option Flag :=
  match level, name with
  | _, "verbose" => some .verbose
  | _, "trace" => some .trace
  | _, "help" => some .help
  | .top, "version" => some .version
  | _, _ => none

def shortFlag? (level : Level) (c : Char) : Option Flag :=
  match level, c with
  | _, 'v' => some .verbose
  | _, 'h' => some .help
  | .top, 'V' => some .version
  | _, _ => none

structure Given where
  config : Option String := none
  verbose : Bool := false
  trace : Bool := false
  format : Option OutputFormat := none
  job : Option String := none
  index : Option UInt64 := none
  operands : List String := []

def format? (name : String) : Option OutputFormat :=
  match name with
  | "summary" => some .summary
  | "json" => some .json
  | "yaml" => some .yaml
  | _ => none

def shell? (name : String) : Option Shell :=
  match name with
  | "bash" => some .bash
  | "elvish" => some .elvish
  | "fish" => some .fish
  | "powershell" => some .powershell
  | "zsh" => some .zsh
  | _ => none

/-- The index that digits spell, with or without a plus sign, below 2^64. -/
def index? (text : String) : Option UInt64 :=
  let digits := match text.toList with
    | '+' :: rest => rest
    | cs => cs
  ((Decimal.read 10 digits).filter (· < 0x10000000000000000)).map UInt64.ofNat

/-- What is given, with the value of an option. It must suit the option, which must not have a
value yet. -/
def Given.setOption (g : Given) (option : ValueOption) (value : String) : Except Refusal Given :=
  match option with
  | .config =>
    if value = "" || g.config.isSome then .error .misuse else .ok { g with config := some value }
  | .format =>
    match format? value, g.format with
    | some f, none => .ok { g with format := some f }
    | _, _ => .error .misuse
  | .job => if g.job.isSome then .error .misuse else .ok { g with job := some value }
  | .index =>
    match index? value, g.index with
    | some i, none => .ok { g with index := some i }
    | _, _ => .error .misuse

/-- What is given, with one more operand. A path must not be empty, and a shell must be known. -/
def Given.addOperand (g : Given) (level : Level) (value : String) : Except Refusal Given :=
  let suits := match level with
    | .completions => (shell? value).isSome
    | _ => value ≠ ""
  if suits then .ok { g with operands := g.operands ++ [value] } else .error .misuse

def Given.setFlag (g : Given) : Flag → Except Refusal Given
  | .help => .error .help
  | .version => .error .version
  | .verbose => if g.verbose then .error .misuse else .ok { g with verbose := true }
  | .trace => if g.trace then .error .misuse else .ok { g with trace := true }

/-- What is not checked yet: nothing, an option whose value is still to come, an option with its
value, or an operand. -/
inductive Pending where
  | nothing
  | awaiting (option : ValueOption)
  | option (option : ValueOption) (value : String)
  | operand (value : String)
  deriving DecidableEq

/-- Where the reader of one level stands. After `--` every argument is an operand. -/
structure ReadState where
  given : Given := {}
  pending : Pending := .nothing
  operandsOnly : Bool := false

def ReadState.settle (s : ReadState) (level : Level) : Except Refusal ReadState :=
  match s.pending with
  | .nothing => .ok s
  | .awaiting _ => .error .misuse
  | .option o value =>
    (s.given.setOption o value).map fun g => { s with given := g, pending := .nothing }
  | .operand value =>
    (s.given.addOperand level value).map fun g => { s with given := g, pending := .nothing }

def ReadState.operandCount (s : ReadState) : Nat :=
  match s.pending with
  | .operand _ => s.given.operands.length + 1
  | _ => s.given.operands.length

def ReadState.operand (s : ReadState) (level : Level) (arg : String) :
    Except Refusal ReadState :=
  if level.operandCount ≤ s.operandCount then .error .misuse
  else (s.settle level).map fun s => { s with pending := .operand arg }

def ReadState.flag (s : ReadState) (level : Level) (f : Flag) : Except Refusal ReadState :=
  (s.settle level).bind fun s => (s.given.setFlag f).map fun g => { s with given := g }

def ReadState.cluster (level : Level) (s : ReadState) : List Char → Except Refusal ReadState
  | [] => .ok s
  | c :: rest =>
    match shortFlag? level c with
    | some f => (s.flag level f).bind fun s => cluster level s rest
    | none => .error .misuse

def ReadState.longOption (s : ReadState) (level : Level) (name : String) (value : Option String) :
    Except Refusal ReadState :=
  match valueOption? level name, longFlag? level name, value with
  | some o, _, some value =>
    (s.settle level).bind fun s =>
      (s.given.setOption o value).map fun g => { s with given := g }
  | some o, _, none => (s.settle level).map fun s => { s with pending := .awaiting o }
  | none, some f, none => s.flag level f
  | none, _, _ => .error .misuse

/-- The effect of one argument that is not the name of a command. -/
def ReadState.argument (s : ReadState) (level : Level) (arg : String) : Except Refusal ReadState :=
  if s.operandsOnly then s.operand level arg
  else
    match arg.toList, s.pending with
    | ['-', '-'], _ => .ok { s with operandsOnly := true }
    | '-' :: '-' :: long, _ =>
      let (name, value) := Text.splitFirst '=' long
      s.longOption level (String.ofList name) (value.map String.ofList)
    | '-' :: c :: rest, _ => s.cluster level (c :: rest)
    | _, .awaiting o => .ok { s with pending := .option o arg }
    | _, _ => s.operand level arg

def request? (level : Level) (g : Given) : Option Request :=
  match level, g.operands with
  | .parse, [manifest] => some (.parse manifest (g.format.getD .summary))
  | .render, [manifest, source, target] =>
    g.job.map fun job => .render manifest job (g.index.getD 0) source target
  | .completions, [name] => (shell? name).map .completions
  | _, _ => none

def readCommand (level : Level) (s : ReadState) : List String → Except Refusal Given
  | [] => (s.settle level).map (·.given)
  | arg :: rest => (s.argument level arg).bind fun s => readCommand level s rest

def readHelp : List String → Refusal
  | [] => .help
  | [topic] => if topic = "help" || (Level.ofName? topic).isSome then .help else .misuse
  | _ => .misuse

/-- The invocation of what is given before and after the name of a command. What is given after it
takes precedence. -/
def combine (level : Level) (top sub : Given) : Except Refusal Invocation :=
  match request? level sub with
  | some request =>
    .ok {
      config := sub.config <|> top.config
      verbose := top.verbose || sub.verbose
      trace := top.trace || sub.trace
      request }
  | none => .error .misuse

/-- Whether an argument may be the name of a command here: it is not the value of an option, and
no `--` stands before it. -/
def ReadState.mayName (s : ReadState) : Bool :=
  match s.pending with
  | .awaiting _ => false
  | _ => !s.operandsOnly

def readTop (s : ReadState) : List String → Except Refusal Invocation
  | [] => .error .misuse
  | arg :: rest =>
    match s.mayName, arg, Level.ofName? arg with
    | true, "help", _ => .error (readHelp rest)
    | true, _, some level =>
      (readCommand level {} rest).bind fun sub =>
        (s.settle .top).bind fun s => combine level s.given sub
    | _, _, _ => (s.argument .top arg).bind fun s => readTop s rest

end Arguments

def Invocation.ofArguments (args : List String) : Except Refusal Invocation :=
  Arguments.readTop {} args

end Deployment.CommandLine

import Deployment.Manifest.Parse
import Deployment.Text.Quoted
import Deployment.Text.Split

namespace Deployment.CommandLine

def levelName : LogLevel → String
  | .error => "ERROR"
  | .warn => "WARN"
  | .info => "INFO"
  | .debug => "DEBUG"
  | .trace => "TRACE"

def verbosity : Option LogLevel → Nat
  | none => 0
  | some .error => 1
  | some .warn => 2
  | some .info => 3
  | some .debug => 4
  | some .trace => 5

structure LogLine where
  target : String
  level : LogLevel
  text : String

namespace LogLine

/-- A character as it is shown: the controls that a terminal would obey are spelled out. -/
def shownChar (c : Char) : List Char :=
  let n := c.toNat
  if n = 7 || n = 8 || n = 12 || n = 27 || n = 127 then
    ['\\', 'x'] ++ Text.hexPadded 2 n
  else if 0x80 ≤ n && n ≤ 0x9F then
    ['\\', 'u', '\x7b'] ++ Text.hexDigits n ++ ['\x7d']
  else [c]

def shown (l : LogLine) : String :=
  let name := (levelName l.level).toList
  String.ofList (List.replicate (5 - name.length) ' ' ++ name ++
    ' ' :: l.text.toList.flatMap shownChar ++ ['\n'])

end LogLine

structure Directive where
  target : String := ""
  level : Option LogLevel
  deriving DecidableEq

inductive DirectiveError where
  | form
  | level
  deriving DecidableEq

def DirectiveError.message : DirectiveError → String
  | .form => "invalid filter directive"
  | .level =>
    "error parsing level filter: expected one of \"off\", \"error\", \"warn\", \"info\", " ++
      "\"debug\", \"trace\", or a number 0-5"

namespace Directive

def numbered? : Nat → Option (Option LogLevel)
  | 0 => some none
  | 1 => some (some .error)
  | 2 => some (some .warn)
  | 3 => some (some .info)
  | 4 => some (some .debug)
  | 5 => some (some .trace)
  | _ => none

def unsigned : List Char → List Char
  | '+' :: rest => rest
  | cs => cs

/-- The level that a name in any case or a number stands for, where `off` stands for none. -/
def level? (cs : List Char) : Option (Option LogLevel) :=
  match (String.ofList cs).toLower with
  | "off" => some none
  | "error" => some (some .error)
  | "warn" => some (some .warn)
  | "info" => some (some .info)
  | "debug" => some (some .debug)
  | "trace" => some (some .trace)
  | _ => (Decimal.read 10 (unsigned cs)).bind numbered?

def mayBegin (c : Char) : Bool :=
  c = '-' || c = ':' || c = '_' || c = '[' || c.isAlphanum || 0x80 ≤ c.toNat

/-- The level after an equals sign, everything if it is empty. -/
def assigned (cs : List Char) : Except DirectiveError (Option LogLevel) :=
  if cs.isEmpty then .ok (some .trace)
  else
    match level? cs with
    | some level => .ok level
    | none => .error .level

def afterSpan (cs : List Char) : Except DirectiveError Unit :=
  match (cs.dropWhile (· ≠ ']')) with
  | [']'] => .ok ()
  | ']' :: '=' :: rest => (assigned rest).map fun _ => ()
  | _ => .error .form

/-- Reads a directive: the name of a level, a target, or a target and a level. A directive that
describes a span concerns no line and gives nothing. -/
def read (cs : List Char) : Except DirectiveError (Option Directive) :=
  match cs.dropWhile Text.isBlank with
  | [] => .error .form
  | first :: _ =>
    if !mayBegin first then .error .form
    else
      let target := cs.takeWhile fun c => c ≠ '=' && c ≠ '['
      match cs.drop target.length with
      | [] =>
        match level? cs with
        | some level => .ok (some { level })
        | none => .ok (some { target := String.ofList cs, level := some .trace })
      | '=' :: rest =>
        if Text.isBlank (cs.headD ' ') then .error .level
        else (assigned rest).map fun level => some { target := String.ofList target, level }
      | _ :: rest => (afterSpan rest).map fun _ => none

end Directive

structure LogFilter where
  directives : List Directive

namespace LogFilter

/-- The directives in a text, between commas. Empty ones do not count. -/
def parts (text : String) : List (List Char) :=
  (Text.splitAt ',' text.toList).filter fun cs => !cs.isEmpty

def ofText? (text : String) : Option LogFilter :=
  (((parts text).mapM Directive.read).toOption).map fun ds => ⟨ds.filterMap id⟩

/-- The filter of the well-formed directives in a text, and a complaint about each other one. -/
def ofTextLossy (text : String) : LogFilter × List String :=
  (parts text).foldr (fun cs (filter, complaints) =>
    match Directive.read cs with
    | .ok (some d) => (⟨d :: filter.directives⟩, complaints)
    | .ok none => (filter, complaints)
    | .error e =>
      (filter, ("ignoring \x60" ++ String.ofList cs ++ "\x60: " ++ e.message) :: complaints))
    (⟨[]⟩, [])

/-- The directive that decides about a target: the last of the longest ones that it begins with. -/
def deciding? (f : LogFilter) (target : String) : Option Directive :=
  f.directives.foldl (fun best d =>
    if d.target.toList.isPrefixOf target.toList then
      match best with
      | some b => if d.target.utf8ByteSize < b.target.utf8ByteSize then best else some d
      | none => some d
    else best) none

/-- Whether a line is shown. Without any directive errors alone are. -/
def shows (f : LogFilter) (l : LogLine) : Bool :=
  let limit := if f.directives.isEmpty then some .error else (f.deciding? l.target).bind (·.level)
  verbosity (some l.level) ≤ verbosity limit

end LogFilter

end Deployment.CommandLine

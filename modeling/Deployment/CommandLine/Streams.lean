/-!
The two streams of a run. A stream may refuse a text, and a run that prints to such a stream panics
and is over.
-/

namespace Deployment.CommandLine

inductive Stream where
  | stdout
  | stderr
  deriving DecidableEq

def Stream.name : Stream → String
  | .stdout => "stdout"
  | .stderr => "stderr"

structure WriteError where
  message : String
  debug : String
  deriving DecidableEq

structure Cut where
  taken : Nat
  error : WriteError

/-- Where a stream leads. It answers a text in the light of what was taken before, with nothing if
it takes all of it. -/
structure Outlet where
  answer : String → String → Option Cut

def Outlet.unlimited : Outlet :=
  ⟨fun _ _ => none⟩

/-- What an outlet holds after a text, and why that is not the whole text. -/
def Outlet.take (o : Outlet) (before text : String) : String × Option WriteError :=
  match o.answer before text with
  | none => (before ++ text, none)
  | some cut => (before ++ String.ofList (text.toList.take cut.taken), some cut.error)

structure Streams where
  stdout : Outlet := .unlimited
  stderr : Outlet := .unlimited

structure Written where
  stdout : String := ""
  stderr : String := ""
  deriving DecidableEq

def Streams.take (s : Streams) (w : Written) (stream : Stream) (text : String) :
    Written × Option WriteError :=
  match stream with
  | .stdout =>
    let (held, error) := s.stdout.take w.stdout text
    ({ w with stdout := held }, error)
  | .stderr =>
    let (held, error) := s.stderr.take w.stderr text
    ({ w with stderr := held }, error)

inductive Manner where
  | print (stream : Stream)
  | log
  | script
  deriving DecidableEq

inductive Panic where
  | printing (stream : Stream) (error : WriteError)
  | completing (error : WriteError)
  deriving DecidableEq

namespace Panic

def message : Panic → String
  | .printing stream e => "failed printing to " ++ stream.name ++ ": " ++ e.message
  | .completing e => "failed to write completion file: " ++ e.debug

def occursIn (word : List Char) : List Char → Bool
  | [] => word.isEmpty
  | c :: rest => word.isPrefixOf (c :: rest) || occursIn word rest

/-- The words by which the hook for panics knows that nobody reads the output any more. -/
def quietWords : List String :=
  -- The last of these is in every message about the output, whatever the error is.
  ["Broken pipe", "broken pipe", "os error 32", "failed printing to stdout"]

/-- Whether the hook ends the process on the spot and without complaint. -/
def isQuiet (p : Panic) : Bool :=
  quietWords.any fun word => occursIn word.toList p.message.toList

def code (p : Panic) : UInt8 :=
  if p.isQuiet then 0 else 101

end Panic

def unloggedLine (e : WriteError) : String :=
  "[tracing-subscriber] Unable to write an event to the Subscriber for this Layer! Error: " ++
    e.message ++ "\n\n"

/-- Writes a text. A line of the log may be refused, if the stream takes the complaint about it. -/
def Streams.write (s : Streams) (w : Written) (manner : Manner) (text : String) :
    Written × Option Panic :=
  match manner with
  | .print stream =>
    let (w, error) := s.take w stream text
    (w, error.map (.printing stream))
  | .log =>
    match s.take w .stderr text with
    | (w, none) => (w, none)
    | (w, some e) =>
      let (w, error) := s.take w .stderr (unloggedLine e)
      (w, error.map (.printing .stderr))
  | .script =>
    let (w, error) := s.take w .stdout text
    (w, error.map .completing)

end Deployment.CommandLine

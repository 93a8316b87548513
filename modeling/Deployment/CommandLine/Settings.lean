import Deployment.Decimal.Digits

namespace Deployment.CommandLine

structure Settings where
  ruby : String := "ruby"
  log : Option String := none
  deriving DecidableEq

namespace Settings

/-- The text with one character for every line break. -/
def joinBreaks : List Char → List Char
  | '\r' :: '\n' :: rest => '\n' :: joinBreaks rest
  | c :: rest => c :: joinBreaks rest
  | [] => []

def isText (c : Char) : Bool :=
  c = '\t' || (0x20 ≤ c.toNat && c.toNat ≠ 0x7F)

def isGap (c : Char) : Bool :=
  c = ' ' || c = '\t'

def skipGaps (cs : List Char) : List Char :=
  cs.dropWhile isGap

def simpleEscape (c : Char) : Option Char :=
  if c = 'b' then some (Char.ofNat 8)
  else if c = 't' then some '\t'
  else if c = 'n' then some '\n'
  else if c = 'f' then some (Char.ofNat 12)
  else if c = 'r' then some '\r'
  else if c = '"' then some '"'
  else if c = '\\' then some '\\'
  else none

def character? (n : Nat) : Option Char :=
  if n.isValidChar then some (Char.ofNat n) else none

/-- Inside a string in double quotes: after a number of quotes that may begin its end, after a
backslash, among the digits of a code point, after a backslash and gaps, or past the line break
that ends such a line. -/
inductive QuotedState where
  | text (quotes : Nat)
  | escape
  | digits (left value : Nat)
  | gaps
  | continuation

def keptQuotes (quote : Char) (n : Nat) : List Char :=
  List.replicate n quote

/-- The end of a text in triple quotes: up to two more quotes belong to the text. -/
def closeTriple (quote : Char) (rest : List Char) : List Char × List Char :=
  let more := min 2 (rest.takeWhile (· == quote)).length
  (keptQuotes quote more, rest.drop more)

def quotedStep (triple : Bool) : QuotedState → Char → Option (List Char × QuotedState)
  | .text _, c =>
    if c = '\\' then some ([], .escape)
    else if isText c || (triple && c = '\n') then some ([c], .text 0)
    else none
  | .escape, c =>
    if c = 'u' then some ([], .digits 4 0)
    else if c = 'U' then some ([], .digits 8 0)
    else if triple && isGap c then some ([], .gaps)
    else if triple && c = '\n' then some ([], .continuation)
    else (simpleEscape c).map fun d => ([d], .text 0)
  | .digits left value, c =>
    (Decimal.digitIn 16 c).bind fun d =>
      if left ≤ 1 then (character? (value * 16 + d)).map fun c => ([c], .text 0)
      else some ([], .digits (left - 1) (value * 16 + d))
  | .gaps, c =>
    if isGap c then some ([], .gaps) else if c = '\n' then some ([], .continuation) else none
  | .continuation, c =>
    if isGap c || c = '\n' then some ([], .continuation)
    else if c = '\\' then some ([], .escape)
    else if isText c then some ([c], .text 0)
    else none

def readQuoted (triple : Bool) : QuotedState → List Char → Option (List Char × List Char)
  | _, [] => none
  | state, c :: rest =>
    let proceed : Option (List Char × List Char) :=
      (quotedStep triple state c).bind fun (found, next) =>
        (readQuoted triple next rest).map fun (text, rest) => (found ++ text, rest)
    match state, c with
    | .text quotes, '"' =>
      if !triple then some ([], rest)
      else if quotes < 2 then readQuoted triple (.text (quotes + 1)) rest
      else some (closeTriple '"' rest)
    | .continuation, '"' => readQuoted triple (.text 1) rest
    | .text quotes, _ => proceed.map fun (text, rest) => (keptQuotes '"' quotes ++ text, rest)
    | _, _ => proceed

def readLiteralBlock (quotes : Nat) : List Char → Option (List Char × List Char)
  | [] => none
  | c :: rest =>
    if c = '\'' then
      if quotes < 2 then readLiteralBlock (quotes + 1) rest else some (closeTriple '\'' rest)
    else if isText c || c = '\n' then
      (readLiteralBlock 0 rest).map fun (text, rest) =>
        (keptQuotes '\'' quotes ++ c :: text, rest)
    else none

def readLiteral (cs : List Char) : Option (List Char × List Char) :=
  let inside (c : Char) : Bool := isText c && c ≠ '\''
  match cs.dropWhile inside with
  | '\'' :: rest => some (cs.takeWhile inside, rest)
  | _ => none

def skipFirstBreak : List Char → List Char
  | '\n' :: rest => rest
  | cs => cs

def readString (cs : List Char) : Option (List Char × List Char) :=
  match cs with
  | '"' :: '"' :: '"' :: rest => readQuoted true (.text 0) (skipFirstBreak rest)
  | '"' :: rest => readQuoted false (.text 0) rest
  | '\'' :: '\'' :: '\'' :: rest => readLiteralBlock 0 (skipFirstBreak rest)
  | '\'' :: rest => readLiteral rest
  | _ => none

def readKey (cs : List Char) : Option (List Char × List Char) :=
  let bare (c : Char) : Bool := c.isAlphanum || c = '-' || c = '_'
  match cs with
  | '"' :: rest => readQuoted false (.text 0) rest
  | '\'' :: rest => readLiteral rest
  | _ => if cs.takeWhile bare = [] then none else some (cs.takeWhile bare, cs.dropWhile bare)

/-- What follows the end of a line, gaps and a comment before it aside. -/
def endLine (cs : List Char) : Option (List Char) :=
  let cs := match skipGaps cs with
    | '#' :: rest => rest.dropWhile isText
    | cs => cs
  match cs with
  | [] => some []
  | '\n' :: rest => some rest
  | _ => none

structure Given where
  ruby : Option String := none
  log : Option String := none

/-- One setting more. It must be known and must not be given yet. -/
def Given.put (g : Given) (key value : String) : Option Given :=
  if key == "ruby" && g.ruby.isNone then some { g with ruby := some value }
  else if key == "log" && g.log.isNone then some { g with log := some value }
  else none

def readSetting (cs : List Char) : Option ((String × String) × List Char) :=
  (readKey cs).bind fun (key, rest) =>
    match skipGaps rest with
    | '=' :: rest =>
      (readString (skipGaps rest)).map fun (value, rest) =>
        ((String.ofList key, String.ofList value), rest)
    | _ => none

def readLines : Nat → Given → List Char → Option Given
  | 0, _, _ => none
  | fuel + 1, g, cs =>
    match skipGaps cs with
    | [] => some g
    | c :: rest =>
      if c = '#' || c = '\n' then (endLine (c :: rest)).bind (readLines fuel g)
      else
        (readSetting (c :: rest)).bind fun ((key, value), rest) =>
          (g.put key value).bind fun g => (endLine rest).bind (readLines fuel g)

/-- The settings that a document gives, the others as they are by default. A byte order mark at
the beginning is skipped. -/
def ofText (text : String) : Option Settings :=
  let cs := match text.toList with
    | '\ufeff' :: rest => rest
    | cs => cs
  let cs := joinBreaks cs
  (readLines (cs.length + 1) {} cs).map fun g => ⟨g.ruby.getD "ruby", g.log⟩

end Settings

end Deployment.CommandLine

import Deployment.Text.Utf8
import Deployment.Decimal.Digits
import Deployment.Yaml.Cursor

namespace Deployment.Yaml.Lexeme

def fail {α : Type} (problem : Problem) (c : Cursor) : Except Fault α :=
  .error ⟨problem, c.position⟩

/-! ### Gaps between the words of a scalar -/

/-- White space inside a flow scalar: blanks within a line, or line breaks with the blanks around
them dropped. -/
structure Gap where
  blanks : List Char := []
  broken : Bool := false
  first : List Char := []
  more : List Char := []

/-- What a gap contributes to the scalar: its blanks, or its line breaks folded. A single line
feed becomes a space; of several, the first is dropped. -/
def Gap.text (g : Gap) : List Char :=
  if !g.broken then g.blanks
  else if g.first == ['\n'] then (if g.more.isEmpty then [' '] else g.more)
  else g.first ++ g.more

/-- Extends a gap to the next character that is neither blank nor break. In a plain scalar a tab
may not stand before column `indent` of a later line. -/
def extendGap (indent : Nat) : Nat → Gap → Cursor → Except Fault (Gap × Cursor)
  | 0, g, c => .ok (g, c)
  | fuel + 1, g, c =>
    match c.rest with
    | [] => .ok (g, c)
    | x :: _ =>
      if isGap x then
        if g.broken && x == '\t' && c.column < indent then fail .plainTab c
        else
          extendGap indent fuel (if g.broken then g else { g with blanks := g.blanks ++ [x] })
            (c.skip 1)
      else
        match c.lineBreak? with
        | none => .ok (g, c)
        | some (b, next) =>
          extendGap indent fuel
            (if g.broken then { g with more := g.more ++ [b] }
             else { blanks := [], broken := true, first := [b], more := [] })
            next

def scanGap (indent : Nat) (start : Gap) (c : Cursor) : Except Fault (Gap × Cursor) :=
  extendGap indent c.rest.length start c

/-! ### Plain scalars -/

inductive WordEnd where
  | gap
  | indicator
  | badColon
  deriving DecidableEq

def isFlowIndicator (c : Char) : Bool :=
  c = ',' || c = '[' || c = ']' || c = '\x7b' || c = '\x7d'

/-- The next word of a plain scalar. A colon ends it before white space; inside brackets, so do
commas and brackets, and a colon right before one of those or a question mark is refused. -/
def plainWord (flow : Bool) : List Char → List Char × WordEnd
  | [] => ([], .gap)
  | c :: rest =>
    if isGap c || isBreak c then ([], .gap)
    else if flow && c == ':' && rest.head?.any (fun d => isFlowIndicator d || d == '?') then
      ([], .badColon)
    else if (c == ':' && endsWord rest) || (flow && isFlowIndicator c) then ([], .indicator)
    else
      let (word, ending) := plainWord flow rest
      (c :: word, ending)

structure Plain where
  text : List Char
  broken : Bool

/-- Continues a plain scalar after `text` and a gap, word by word. Outside brackets it ends where
a line starts left of column `indent`. -/
def plainWords (flow : Bool) (indent : Nat) :
    Nat → List Char → Gap → Cursor → Except Fault (Plain × Cursor)
  | 0, text, gap, c => .ok (⟨text, gap.broken⟩, c)
  | fuel + 1, text, gap, c =>
    if c.atDocumentMarker || c.rest.head? == some '#' then .ok (⟨text, gap.broken⟩, c)
    else
      let (word, ending) := plainWord flow c.rest
      let text := if word.isEmpty then text else text ++ gap.text ++ word
      let gap := if word.isEmpty then gap else {}
      let c := c.skip word.length
      match ending with
      | .badColon => fail .plainColon c
      | .indicator => .ok (⟨text, gap.broken⟩, c)
      | .gap =>
        if c.rest.isEmpty then .ok (⟨text, gap.broken⟩, c)
        else do
          let (gap, c) ← scanGap indent gap c
          if !flow && c.column < indent then .ok (⟨text, gap.broken⟩, c)
          else plainWords flow indent fuel text gap c

def plain (flow : Bool) (indent : Nat) (c : Cursor) : Except Fault (Plain × Cursor) :=
  plainWords flow indent (c.rest.length + 1) [] {} c

/-! ### Quoted scalars -/

inductive QuotedEnd where
  | quote
  | gap
  | hiddenBreak

def shortEscape (c : Char) : Option Char :=
  match c with
  | '0' => some '\x00'
  | 'a' => some '\x07'
  | 'b' => some '\x08'
  | 't' => some '\t'
  | '\t' => some '\t'
  | 'n' => some '\n'
  | 'v' => some '\x0b'
  | 'f' => some '\x0c'
  | 'r' => some '\r'
  | 'e' => some '\x1b'
  | ' ' => some ' '
  | '"' => some '"'
  | '/' => some '/'
  | '\\' => some '\\'
  | 'N' => some '\u0085'
  | '_' => some '\u00a0'
  | 'L' => some '\u2028'
  | 'P' => some '\u2029'
  | _ => none

def escapeWidth (c : Char) : Option Nat :=
  match c with
  | 'x' => some 2
  | 'u' => some 4
  | 'U' => some 8
  | _ => none

def escape (c : Cursor) : Except Fault (Char × Cursor) :=
  match c.rest.drop 1 with
  | [] => fail .unknownEscape c
  | letter :: rest =>
    match shortEscape letter, escapeWidth letter with
    | some x, _ => .ok (x, c.skip 2)
    | none, none => fail .unknownEscape c
    | none, some width =>
      let ds := rest.take width
      match if ds.length = width then Decimal.read 16 ds else none with
      | none => fail .escapeDigits c
      | some code =>
        if (0xD800 ≤ code ∧ code ≤ 0xDFFF) ∨ 0x10FFFF < code then fail .escapeCode c
        else .ok (Char.ofNat code, c.skip (2 + width))

/-- The next word of a quoted scalar, up to the closing quote, white space, or a line break that
is hidden by a backslash. -/
def quotedWord (single : Bool) :
    Nat → List Char → Cursor → Except Fault ((List Char × QuotedEnd) × Cursor)
  | 0, word, c => .ok ((word, .gap), c)
  | fuel + 1, word, c =>
    let quote := if single then '\'' else '"'
    match c.rest with
    | [] => .ok ((word, .gap), c)
    | x :: rest =>
      if isGap x || isBreak x then .ok ((word, .gap), c)
      else if single && x == '\'' && rest.head? == some '\'' then
        quotedWord single fuel (word ++ ['\'']) (c.skip 2)
      else if x == quote then .ok ((word, .quote), c)
      else if !single && x == '\\' then
        if rest.head?.any isBreak then .ok ((word, .hiddenBreak), (c.skip 1).skipBreak)
        else do
          let (found, c) ← escape c
          quotedWord single fuel (word ++ [found]) c
      else quotedWord single fuel (word ++ [x]) (c.skip 1)

def quotedWords (single : Bool) : Nat → List Char → Cursor → Except Fault (List Char × Cursor)
  | 0, _, c => fail .quotedEnd c
  | fuel + 1, text, c =>
    if c.atDocumentMarker then fail .quotedIndicator c
    else if c.rest.isEmpty then fail .quotedEnd c
    else do
      let ((word, ending), c) ← quotedWord single c.rest.length [] c
      match ending with
      | .quote => .ok (text ++ word, c.skip 1)
      | .gap =>
        let (gap, c) ← scanGap 0 {} c
        quotedWords single fuel (text ++ word ++ gap.text) c
      | .hiddenBreak =>
        let (gap, c) ← scanGap 0 { broken := true } c
        quotedWords single fuel (text ++ word ++ gap.text) c

def quoted (single : Bool) (c : Cursor) : Except Fault (List Char × Cursor) :=
  quotedWords single (c.rest.length + 1) [] (c.skip 1)

/-! ### Block scalars -/

inductive Chomping where
  | strip
  | clip
  | keep

def blockHeader (c : Cursor) : Except Fault ((Chomping × Option Nat) × Cursor) := do
  let chomping? (c : Cursor) : Option (Chomping × Cursor) :=
    match c.rest.head? with
    | some '+' => some (.keep, c.skip 1)
    | some '-' => some (.strip, c.skip 1)
    | _ => none
  let indentation? (c : Cursor) : Except Fault (Option Nat × Cursor) :=
    match c.rest.head? with
    | some d =>
      if d == '0' then fail .blockHeader c
      else if Decimal.isDigit d then .ok (some (d.toNat - 48), c.skip 1)
      else .ok (none, c)
    | none => .ok (none, c)
  match chomping? c with
  | some (chomping, c) =>
    let (indentation, c) ← indentation? c
    return ((chomping, indentation), c)
  | none =>
    let (indentation, c) ← indentation? c
    match indentation, chomping? c with
    | some _, some (chomping, c) => return ((chomping, indentation), c)
    | _, _ => return ((.clip, indentation), c)

def finishLine (problem : Problem) (c : Cursor) : Except Fault Cursor :=
  let c := c.skipWhile isGap
  let c := if c.rest.head? == some '#' then c.skipWhile (!isBreak ·) else c
  if endsLine c.rest then .ok c.skipBreak else fail problem c

/-- The empty lines before a line of a block scalar, and the deepest indentation met. With no
indentation known yet (`indent = 0`) all leading spaces are taken. -/
def blockGap (indent : Nat) :
    Nat → Nat → List Char → Cursor → Except Fault ((Nat × List Char) × Cursor)
  | 0, deepest, breaks, c => .ok ((deepest, breaks), c)
  | fuel + 1, deepest, breaks, c =>
    let spaces := (c.rest.takeWhile (· == ' ')).length
    let c := c.skip (if indent = 0 then spaces else min spaces (indent - c.column))
    let deepest := max deepest c.column
    if (indent = 0 ∨ c.column < indent) ∧ c.rest.head? = some '\t' then fail .blockTab c
    else
      match c.lineBreak? with
      | none => .ok ((deepest, breaks), c)
      | some (b, next) => blockGap indent fuel deepest (breaks ++ [b]) next

/-- A block scalar in the making: the text so far, the break that ends its last line, the breaks
of the empty lines after it, and whether the last line began with white space. -/
structure Block where
  text : List Char := []
  ending : List Char := []
  breaks : List Char := []
  blankStart : Bool := false

/-- Appends the lines of a block scalar while they start at column `indent`. In a folded scalar
one line feed between two lines that start with text becomes a space. -/
def blockLines (literal : Bool) (indent : Nat) :
    Nat → Block → Cursor → Except Fault (Block × Cursor)
  | 0, b, c => .ok (b, c)
  | fuel + 1, b, c =>
    if c.column ≠ indent ∨ c.rest.isEmpty then .ok (b, c)
    else do
      let blank := c.rest.head?.any isGap
      let joint :=
        if !literal && b.ending == ['\n'] && !b.blankStart && !blank then
          (if b.breaks.isEmpty then [' '] else [])
        else b.ending
      let (line, c) := c.takeWhile (!isBreak ·)
      let (ending, c) := match c.lineBreak? with
        | some (x, next) => ([x], next)
        | none => ([], c)
      let text := b.text ++ joint ++ b.breaks ++ line
      let ((_, breaks), c) ← blockGap indent c.rest.length 0 [] c
      blockLines literal indent fuel ⟨text, ending, breaks, blank⟩ c

def block (literal : Bool) (outer : Int) (c : Cursor) : Except Fault (List Char × Cursor) := do
  let ((chomping, indentation), c) ← blockHeader (c.skip 1)
  let c ← finishLine .blockHeader c
  let known := match indentation with
    | some n => (max outer 0).toNat + n
    | none => 0
  let ((deepest, breaks), c) ← blockGap known (c.rest.length + 1) 0 [] c
  let indent := if known = 0 then max deepest (max (outer + 1) 1).toNat else known
  let (b, c) ← blockLines literal indent (c.rest.length + 1) { breaks } c
  let tail := match chomping with
    | .strip => []
    | .clip => b.ending
    | .keep => b.ending ++ b.breaks
  return (b.text ++ tail, c)

/-! ### Anchors, tags and directives -/

def anchorName (c : Cursor) : Except Fault (List Char × Cursor) :=
  let (name, next) := (c.skip 1).takeWhile isWord
  let closed := endsWord next.rest ||
    next.rest.head?.any fun d =>
      d == '?' || d == ':' || d == ',' || d == ']' || d == '\x7d' || d == '%' || d == '@' ||
        d == '\x60'
  if name.isEmpty || !closed then fail .anchorName c else .ok (name, next)

def isAddress (verbatim : Bool) (c : Char) : Bool :=
  isWord c || ";/?:@&=+$.%!~*'()".toList.contains c || (verbatim && ",[]".toList.contains c)

def addressOctets : List Char → Option (List UInt8)
  | [] => some []
  | '%' :: a :: b :: rest =>
    match Decimal.read 16 [a, b], addressOctets rest with
    | some n, some octets => some (n.toUInt8 :: octets)
    | _, _ => none
  | '%' :: _ => none
  | c :: rest => (addressOctets rest).map ((String.singleton c).toUTF8.toList ++ ·)

def address (verbatim : Bool) (c : Cursor) : Except Fault (List Char × Cursor) :=
  let (found, next) := c.takeWhile (isAddress verbatim)
  match (addressOctets found).bind Text.Utf8.decode with
  | some text => .ok (text, next)
  | none => fail .tagEscape c

def handle (c : Cursor) : Except Fault (List Char × Cursor) :=
  if c.rest.head? == some '!' then
    let (word, next) := (c.skip 1).takeWhile isWord
    if next.rest.head? == some '!' then .ok ('!' :: word ++ ['!'], next.skip 1)
    else .ok ('!' :: word, next)
  else fail .tagHandle c

/-- The tag at the cursor, as a handle and the rest of the tag. A verbatim tag has no handle, and
neither has a lone exclamation mark. -/
def tag (inBrackets : Bool) (c : Cursor) : Except Fault ((List Char × List Char) × Cursor) := do
  let (parts, c) ←
    if c.rest.drop 1 |>.head? |> (· == some '<') then do
      let (suffix, next) ← address true (c.skip 2)
      if suffix.isEmpty then fail .tagAddress c
      else if next.rest.head? == some '>' then pure (([], suffix), next.skip 1)
      else fail .tagEnd next
    else do
      let (h, next) ← handle c
      if 1 < h.length && h.getLast? == some '!' then do
        let (suffix, next) ← address false next
        if suffix.isEmpty then fail .tagAddress c else pure ((h, suffix), next)
      else do
        let (suffix, next) ← address false (c.skip 1)
        if suffix.isEmpty then pure (([], ['!']), next) else pure ((['!'], suffix), next)
  if endsWord c.rest || (inBrackets && c.rest.head? == some ',') then return (parts, c)
  else fail .tagEnd c

inductive Directive where
  | version (major minor : Nat)
  | tagHandle (handle address : List Char)

def versionNumber (c : Cursor) : Except Fault (Nat × Cursor) :=
  let (ds, next) := c.takeWhile Decimal.isDigit
  if ds.isEmpty || 9 < ds.length then fail .versionNumber c else .ok (Decimal.value ds, next)

def directiveValue (name : List Char) (c : Cursor) : Except Fault (Directive × Cursor) := do
  let c := c.skipWhile isGap
  if name == "YAML".toList then
    let (major, c) ← versionNumber c
    if c.rest.head? == some '.' then
      let (minor, c) ← versionNumber (c.skip 1)
      return (.version major minor, c)
    else fail .versionNumber c
  else if name == "TAG".toList then
    let (h, c) ← handle c
    if h != ['!'] && h.getLast? != some '!' then fail .tagHandle c
    else if !c.rest.head?.any isGap then fail .tagEnd c
    else
      let (found, c) ← address true (c.skipWhile isGap)
      if found.isEmpty then fail .tagAddress c
      else if endsWord c.rest then return (.tagHandle h found, c)
      else fail .tagEnd c
  else fail .unknownDirective c

def directive (c : Cursor) : Except Fault (Directive × Cursor) := do
  let (name, c) := (c.skip 1).takeWhile isWord
  if name.isEmpty || !endsWord c.rest then fail .directiveName c
  else
    let (found, c) ← directiveValue name c
    let c ← finishLine .directiveEnd c
    return (found, c)

end Deployment.Yaml.Lexeme

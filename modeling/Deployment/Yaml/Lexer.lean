import Deployment.Yaml.Lexeme
import Deployment.Yaml.Token

/-!
From characters to tokens. A mapping key is recognised only by the colon after it, so wherever a
key may begin the lexer leaves an empty group of tokens and remembers it as a candidate; the
colon fills the group. A candidate must lie on one line and within 1024 characters.
-/

namespace Deployment.Yaml

/-- A place where a mapping key may have begun: the group of tokens left free for it, and whether
the indentation admits nothing but a key there. -/
structure Candidate where
  group : Nat
  index : Nat
  position : Position
  required : Bool

/-- The lexer between two tokens. Brackets open a level of their own; `candidates` has one place
for each level, the innermost first. -/
structure Lexer where
  cursor : Cursor
  groups : Array (List Token)
  level : Nat
  indent : Int
  outerIndents : List Int
  keyAllowed : Bool
  candidates : List (Option Candidate)

namespace Lexer

def start (text : List Char) : Lexer where
  cursor := ⟨text, 0, 0, 0⟩
  groups := #[]
  level := 0
  indent := -1
  outerIndents := []
  keyAllowed := true
  candidates := [none]

def emit (l : Lexer) (kind : Token.Kind) (position : Position) : Lexer :=
  { l with groups := l.groups.push [⟨kind, position⟩] }

def fail {α : Type} (l : Lexer) (problem : Problem) : Except Fault α :=
  .error ⟨problem, l.cursor.position⟩

def emitIndicator (l : Lexer) (kind : Token.Kind) (width : Nat) : Lexer :=
  { l.emit kind l.cursor.position with cursor := l.cursor.skip width }

/-- Drops the candidates that are out of reach: on an earlier line or too far back. A required
one must not be dropped. -/
def dropStale (l : Lexer) : Except Fault Lexer := do
  let candidates ← l.candidates.mapM fun
    | none => .ok none
    | some k =>
      if k.position.line < l.cursor.line ∨ k.index + 1024 < l.cursor.index then
        if k.required then .error ⟨.keyWithoutColon, k.position⟩ else .ok none
      else .ok (some k)
  return { l with candidates }

def dropCandidate (l : Lexer) : Except Fault Lexer :=
  match l.candidates with
  | [] => .ok l
  | some k :: outer =>
    if k.required then .error ⟨.keyWithoutColon, k.position⟩
    else .ok { l with candidates := none :: outer }
  | none :: _ => .ok l

def addCandidate (l : Lexer) : Except Fault Lexer :=
  if l.keyAllowed then do
    let l ← l.dropCandidate
    let k : Candidate :=
      { group := l.groups.size
        index := l.cursor.index
        position := l.cursor.position
        required := l.level = 0 ∧ l.indent = l.cursor.column }
    return { l with groups := l.groups.push [], candidates := some k :: l.candidates.tail }
  else .ok l

def opensBlock (l : Lexer) (column : Nat) : Bool :=
  l.level = 0 && l.indent < column

def enterBlock (l : Lexer) (column : Nat) : Lexer :=
  { l with outerIndents := l.indent :: l.outerIndents, indent := column }

def openBlock (l : Lexer) (kind : Token.Kind) : Lexer :=
  if l.opensBlock l.cursor.column then
    (l.emit kind l.cursor.position).enterBlock l.cursor.column
  else l

def closeBlocksIn (column : Int) : List Int → Lexer → Lexer
  | [], l => l
  | outer :: rest, l =>
    if column < l.indent then
      closeBlocksIn column rest
        { l.emit .blockEnd l.cursor.position with indent := outer, outerIndents := rest }
    else l

def closeBlocks (l : Lexer) (column : Int) : Lexer :=
  if l.level = 0 then closeBlocksIn column l.outerIndents l else l

/-- Past white space, comments and line breaks. Outside brackets a new line may begin a key, and
a tab only separates where no key may begin. A byte order mark may begin a line. -/
def skipToToken : Nat → Lexer → Lexer
  | 0, l => l
  | fuel + 1, l =>
    let c := l.cursor
    let c := if c.column = 0 ∧ c.rest.head? = some '\ufeff' then c.skip 1 else c
    let tabs := 0 < l.level || !l.keyAllowed
    let c := c.skipWhile fun x => x == ' ' || (tabs && x == '\t')
    let c := if c.rest.head? == some '#' then c.skipWhile (!isBreak ·) else c
    match c.lineBreak? with
    | none => { l with cursor := c }
    | some (_, next) =>
      skipToToken fuel { l with cursor := next, keyAllowed := l.keyAllowed || l.level = 0 }

def documentMarker (l : Lexer) (kind : Token.Kind) : Except Fault Lexer := do
  let l ← (l.closeBlocks (-1)).dropCandidate
  return { l.emitIndicator kind 3 with keyAllowed := false }

def directive (l : Lexer) : Except Fault Lexer := do
  let l ← (l.closeBlocks (-1)).dropCandidate
  let (found, c) ← Lexeme.directive l.cursor
  let kind : Token.Kind := match found with
    | .version major minor => .version major minor
    | .tagHandle handle address => .tagHandle handle address
  return { l.emit kind l.cursor.position with cursor := c, keyAllowed := false }

def openBracket (l : Lexer) (kind : Token.Kind) : Except Fault Lexer := do
  let l ← l.addCandidate
  return { l.emitIndicator kind 1 with
    keyAllowed := true, level := l.level + 1, candidates := none :: l.candidates }

def closeBracket (l : Lexer) (kind : Token.Kind) : Except Fault Lexer := do
  let l ← l.dropCandidate
  let candidates := if l.level = 0 then l.candidates else l.candidates.tail
  return { l.emitIndicator kind 1 with keyAllowed := false, level := l.level - 1, candidates }

def separator (l : Lexer) : Except Fault Lexer := do
  let l ← l.dropCandidate
  return { l.emitIndicator .separator 1 with keyAllowed := true }

def entry (l : Lexer) : Except Fault Lexer := do
  if l.level = 0 && !l.keyAllowed then l.fail .misplacedEntry
  else
    let l ← (l.openBlock .sequenceStart).dropCandidate
    return { l.emitIndicator .entry 1 with keyAllowed := true }

def explicitKey (l : Lexer) : Except Fault Lexer := do
  if l.level = 0 && !l.keyAllowed then l.fail .misplacedKey
  else
    let l ← (l.openBlock .mappingStart).dropCandidate
    return { l.emitIndicator .key 1 with keyAllowed := l.level = 0 }

/-- A colon. It turns the candidate of the level into a key, which may begin a block mapping. -/
def colon (l : Lexer) : Except Fault Lexer :=
  match l.candidates with
  | some k :: outer =>
    let opens := l.opensBlock k.position.column
    let group : List Token :=
      (if opens then [⟨.mappingStart, k.position⟩] else []) ++ [⟨.key, k.position⟩]
    let l := { l with groups := l.groups.setIfInBounds k.group group, candidates := none :: outer }
    let l := if opens then l.enterBlock k.position.column else l
    .ok { l.emitIndicator .value 1 with keyAllowed := false }
  | _ =>
    if l.level = 0 && !l.keyAllowed then l.fail .misplacedValue
    else
      .ok { (l.openBlock .mappingStart).emitIndicator .value 1 with keyAllowed := l.level = 0 }

def nodePart (l : Lexer) (read : Cursor → Except Fault (Token.Kind × Cursor)) :
    Except Fault Lexer := do
  let l ← l.addCandidate
  let (kind, c) ← read l.cursor
  return { l.emit kind l.cursor.position with cursor := c, keyAllowed := false }

def plain (l : Lexer) : Except Fault Lexer := do
  let l ← l.addCandidate
  let (found, c) ← Lexeme.plain (0 < l.level) (l.indent + 1).toNat l.cursor
  return { l.emit (.scalar found.text true) l.cursor.position with
    cursor := c, keyAllowed := found.broken }

def block (l : Lexer) (literal : Bool) : Except Fault Lexer := do
  let l ← l.dropCandidate
  let (text, c) ← Lexeme.block literal l.indent l.cursor
  return { l.emit (.scalar text false) l.cursor.position with cursor := c, keyAllowed := true }

def beginsPlain (inBrackets : Bool) (c : Char) (rest : List Char) : Bool :=
  let indicators := "-?:,[]\x7b\x7d#&*!|>'\"%@`".toList
  !(isGap c || isBreak c || indicators.contains c) ||
    (c == '-' && !rest.head?.any isGap) ||
    (!inBrackets && (c == '?' || c == ':') && !endsWord rest)

def token (l : Lexer) (c : Char) (rest : List Char) : Except Fault Lexer :=
  let inBrackets := 0 < l.level
  if l.cursor.column == 0 && c == '%' then l.directive
  else if l.cursor.atMarker '-' then l.documentMarker .documentStart
  else if l.cursor.atMarker '.' then l.documentMarker .documentEnd
  else if c == '[' then l.openBracket .flowSequenceStart
  else if c == '\x7b' then l.openBracket .flowMappingStart
  else if c == ']' then l.closeBracket .flowSequenceEnd
  else if c == '\x7d' then l.closeBracket .flowMappingEnd
  else if c == ',' then l.separator
  else if c == '-' && endsWord rest then l.entry
  else if c == '?' && (inBrackets || endsWord rest) then l.explicitKey
  else if c == ':' && (inBrackets || endsWord rest) then l.colon
  else if c == '*' then
    l.nodePart fun c => (Lexeme.anchorName c).map fun (name, c) => (.alias name, c)
  else if c == '&' then
    l.nodePart fun c => (Lexeme.anchorName c).map fun (name, c) => (.anchor name, c)
  else if c == '!' then
    l.nodePart fun c => (Lexeme.tag inBrackets c).map fun ((h, s), c) => (.tag h s, c)
  else if c == '|' && !inBrackets then l.block true
  else if c == '>' && !inBrackets then l.block false
  else if c == '\'' then
    l.nodePart fun c => (Lexeme.quoted true c).map fun (text, c) => (.scalar text false, c)
  else if c == '"' then
    l.nodePart fun c => (Lexeme.quoted false c).map fun (text, c) => (.scalar text false, c)
  else if beginsPlain inBrackets c rest then l.plain
  else l.fail .strayCharacter

def finish (l : Lexer) : Except Fault Lexer := do
  let c := l.cursor
  let c := if c.column = 0 then c else { c with line := c.line + 1, column := 0 }
  let l ← ({ l with cursor := c }.closeBlocks (-1)).dropCandidate
  let l ← l.dropStale
  return l.emit .streamEnd c.position

/-- The tokens that can be told for certain: those before the first open candidate. -/
def settled (l : Lexer) : List Token :=
  let open? := l.candidates.filterMap (·.map (·.group))
  (l.groups.toList.take (open?.foldl min l.groups.size)).flatten

def run : Nat → Lexer → List Token × Option Fault
  | 0, l => (l.settled, none)
  | fuel + 1, l =>
    let l := skipToToken (l.cursor.rest.length + 1) l
    match l.dropStale with
    | .error fault => (l.settled, some fault)
    | .ok l =>
      let l := l.closeBlocks l.cursor.column
      match l.cursor.rest with
      | [] =>
        match l.finish with
        | .error fault => (l.settled, some fault)
        | .ok l => (l.groups.toList.flatten, none)
      | c :: rest =>
        match l.token c rest with
        | .error fault => (l.settled, some fault)
        | .ok l => run fuel l

end Lexer

def Token.ofText (text : List Char) : List Token × Option Fault :=
  Lexer.run (text.length + 1) (Lexer.start text)

end Deployment.Yaml

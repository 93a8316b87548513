import Deployment.Yaml.Lexer

namespace Deployment.Yaml

inductive Event.Kind where
  | streamEnd
  | documentStart
  | documentEnd
  | alias (name : List Char)
  | scalar (anchor tag : Option (List Char)) (text : List Char) (plain : Bool)
  | sequenceStart (anchor tag : Option (List Char))
  | sequenceEnd
  | mappingStart (anchor tag : Option (List Char))
  | mappingEnd

structure Event where
  kind : Event.Kind
  position : Position

namespace Event

inductive Expected where
  | firstDocument
  | document
  | documentContent
  | documentEnd
  | blockNode
  | firstBlockEntry
  | blockEntry
  | plainEntry
  | firstBlockKey
  | blockKey
  | blockValue
  | firstFlowEntry
  | flowEntry
  | pairKey
  | pairValue
  | pairEnd
  | firstFlowKey
  | flowKey
  | flowValue
  | absentFlowValue
  | nothing

/-- Between two events: the remaining tokens, what is expected now and after the open
collections, and the tag handles of the document. -/
structure Parser where
  tokens : List Token
  expected : Expected
  pending : List Expected
  handles : List (List Char × List Char)

def standardHandles : List (List Char × List Char) :=
  [(['!'], ['!']), ("!!".toList, "tag:yaml.org,2002:".toList)]

namespace Parser

/-- An event and the state after it; without an event, the tokens ran out. -/
abbrev Step := Except (Option Fault) (Event × Parser)

def fail {α : Type} (problem : Problem) (t : Token) : Except (Option Fault) α :=
  .error (some ⟨problem, t.position⟩)

def peek (p : Parser) : Except (Option Fault) Token :=
  match p.tokens with
  | t :: _ => .ok t
  | [] => .error none

def next? (p : Parser) : Option Token.Kind :=
  p.tokens.head?.map (·.kind)

def advance (p : Parser) : Parser :=
  { p with tokens := p.tokens.tail }

def expect (p : Parser) (expected : Expected) : Parser :=
  { p with expected }

def resume (p : Parser) : Parser :=
  { p with expected := p.pending.headD .nothing, pending := p.pending.tail }

def postpone (p : Parser) (after : Expected) : Parser :=
  { p with pending := after :: p.pending }

def emptyScalar (position : Position) (p : Parser) : Step :=
  .ok (⟨.scalar none none [] true, position⟩, p)

structure Decoration where
  anchor : Option (List Char) := none
  tag : Option (List Char × List Char) := none

def decoration (p : Parser) : Except (Option Fault) (Decoration × Parser) := do
  match (← p.peek).kind with
  | .anchor name =>
    let p := p.advance
    match (← p.peek).kind with
    | .tag h s => return (⟨some name, some (h, s)⟩, p.advance)
    | _ => return (⟨some name, none⟩, p)
  | .tag h s =>
    let p := p.advance
    match (← p.peek).kind with
    | .anchor name => return (⟨some name, some (h, s)⟩, p.advance)
    | _ => return (⟨none, some (h, s)⟩, p)
  | _ => return ({}, p)

def fullTag (p : Parser) (h s : List Char) : Option (List Char) :=
  if h.isEmpty then some s
  else (p.handles.find? (·.1 == h)).map (·.2 ++ s)

/-- A node. Collections that the indentation opens are admitted where `inBlock` says so, and the
entries of a sequence without an indentation of its own where `unindented` does. -/
def node (p : Parser) (inBlock unindented : Bool) : Step := do
  let first ← p.peek
  let position := first.position
  match first.kind with
  | .alias name => return (⟨.alias name, position⟩, p.advance.resume)
  | _ =>
    let (d, p) ← p.decoration
    let tag ← match d.tag with
      | none => pure none
      | some (h, s) =>
        match p.fullTag h s with
        | some tag => pure (some tag)
        | none => fail .undefinedTagHandle first
    let t ← p.peek
    let collection (kind : Event.Kind) (expected : Expected) : Step :=
      .ok (⟨kind, position⟩, p.expect expected)
    match t.kind with
    | .scalar text plain =>
      let tag := if tag == some ['!'] then none else tag
      return (⟨.scalar d.anchor tag text plain, position⟩, p.advance.resume)
    | .flowSequenceStart => collection (.sequenceStart d.anchor tag) .firstFlowEntry
    | .flowMappingStart => collection (.mappingStart d.anchor tag) .firstFlowKey
    | kind =>
      if unindented && kind == .entry then collection (.sequenceStart d.anchor tag) .plainEntry
      else if inBlock && kind == .sequenceStart then
        collection (.sequenceStart d.anchor tag) .firstBlockEntry
      else if inBlock && kind == .mappingStart then
        collection (.mappingStart d.anchor tag) .firstBlockKey
      else if d.anchor.isSome || tag.isSome then
        return (⟨.scalar d.anchor tag [] true, position⟩, p.resume)
      else fail .nodeContent t

def nodeUnless (p : Parser) (ends : List Token.Kind) (inBlock unindented : Bool)
    (after : Expected) (absent : Position) : Step := do
  let t ← p.peek
  if ends.contains t.kind then emptyScalar absent (p.expect after)
  else (p.postpone after).node inBlock unindented

def directives (sawVersion : Bool) (handles : List (List Char × List Char)) :
    List Token → Except (Option Fault) (List (List Char × List Char) × List Token)
  | [] => .error none
  | t :: rest =>
    match t.kind with
    | .version major minor =>
      if sawVersion then fail .repeatedVersion t
      else if major = 1 ∧ (minor = 1 ∨ minor = 2) then directives true handles rest
      else fail .foreignVersion t
    | .tagHandle h address =>
      if handles.any (·.1 == h) then fail .repeatedTagHandle t
      else directives sawVersion (handles ++ [(h, address)]) rest
    | _ => .ok (handles, t :: rest)

def explicitDocument (p : Parser) : Step := do
  let t ← p.peek
  if t.kind == .streamEnd then
    return (⟨.streamEnd, t.position⟩, { p.advance with expected := .nothing })
  else
    let (handles, tokens) ← directives false [] p.tokens
    let p := { p with tokens, handles := handles ++ standardHandles }
    let marker ← p.peek
    if marker.kind == .documentStart then
      return (⟨.documentStart, t.position⟩,
        (p.advance.postpone .documentEnd).expect .documentContent)
    else fail .documentStart marker

def firstDocument (p : Parser) : Step := do
  let t ← p.peek
  match t.kind with
  | .version .. => p.explicitDocument
  | .tagHandle .. => p.explicitDocument
  | .documentStart => p.explicitDocument
  | .streamEnd => p.explicitDocument
  | _ =>
    return (⟨.documentStart, t.position⟩,
      ({ p with handles := standardHandles }.postpone .documentEnd).expect .blockNode)

def laterDocument (p : Parser) : Step :=
  { p with tokens := p.tokens.dropWhile fun t => t.kind == Token.Kind.documentEnd }.explicitDocument

def documentContent (p : Parser) : Step := do
  let t ← p.peek
  match t.kind with
  | .version .. => emptyScalar t.position p.resume
  | .tagHandle .. => emptyScalar t.position p.resume
  | .documentStart => emptyScalar t.position p.resume
  | .documentEnd => emptyScalar t.position p.resume
  | .streamEnd => emptyScalar t.position p.resume
  | _ => p.node true false

def documentEnd (p : Parser) : Step := do
  let t ← p.peek
  let p := if t.kind == .documentEnd then p.advance else p
  return (⟨.documentEnd, t.position⟩, { p with expected := .document, handles := [] })

def blockEntry (p : Parser) : Step := do
  let t ← p.peek
  match t.kind with
  | .entry => p.advance.nodeUnless [.entry, .blockEnd] true false .blockEntry t.position
  | .blockEnd => return (⟨.sequenceEnd, t.position⟩, p.advance.resume)
  | _ => fail .sequenceEntry t

def plainEntry (p : Parser) : Step := do
  let t ← p.peek
  match t.kind with
  | .entry =>
    p.advance.nodeUnless [.entry, .key, .value, .blockEnd] true false .plainEntry t.position
  | _ => return (⟨.sequenceEnd, t.position⟩, p.resume)

def blockKey (p : Parser) : Step := do
  let t ← p.peek
  match t.kind with
  | .key => p.advance.nodeUnless [.key, .value, .blockEnd] true true .blockValue t.position
  | .blockEnd => return (⟨.mappingEnd, t.position⟩, p.advance.resume)
  | _ => fail .mappingKey t

def blockValue (p : Parser) : Step := do
  let t ← p.peek
  match t.kind with
  | .value => p.advance.nodeUnless [.key, .value, .blockEnd] true true .blockKey t.position
  | _ => emptyScalar t.position (p.expect .blockKey)

def comma (p : Parser) (first : Bool) (problem : Problem) : Except (Option Fault) Parser := do
  let t ← p.peek
  if first then return p
  else if t.kind == .separator then return p.advance
  else fail problem t

def flowEntry (p : Parser) (first : Bool) : Step := do
  let t ← p.peek
  let close (t : Token) (p : Parser) : Step :=
    .ok (⟨.sequenceEnd, t.position⟩, p.advance.resume)
  if t.kind == .flowSequenceEnd then close t p
  else
    let p ← p.comma first .flowSequenceEnd
    let t ← p.peek
    match t.kind with
    | .key => return (⟨.mappingStart none none, t.position⟩, p.advance.expect .pairKey)
    | .flowSequenceEnd => close t p
    | _ => (p.postpone .flowEntry).node false false

def pairKey (p : Parser) : Step := do
  let t ← p.peek
  if [Token.Kind.value, .separator, .flowSequenceEnd].contains t.kind then
    emptyScalar t.position (p.advance.expect .pairValue)
  else (p.postpone .pairValue).node false false

def pairValue (p : Parser) : Step := do
  let t ← p.peek
  match t.kind with
  | .value => p.advance.nodeUnless [.separator, .flowSequenceEnd] false false .pairEnd t.position
  | _ => emptyScalar t.position (p.expect .pairEnd)

def pairEnd (p : Parser) : Step := do
  let t ← p.peek
  return (⟨.mappingEnd, t.position⟩, p.expect .flowEntry)

def flowKey (p : Parser) (first : Bool) : Step := do
  let t ← p.peek
  let close (t : Token) (p : Parser) : Step :=
    .ok (⟨.mappingEnd, t.position⟩, p.advance.resume)
  if t.kind == .flowMappingEnd then close t p
  else
    let p ← p.comma first .flowMappingEnd
    let t ← p.peek
    match t.kind with
    | .key =>
      p.advance.nodeUnless [.value, .separator, .flowMappingEnd] false false .flowValue t.position
    | .flowMappingEnd => close t p
    | _ => (p.postpone .absentFlowValue).node false false

def flowValue (p : Parser) : Step := do
  let t ← p.peek
  match t.kind with
  | .value => p.advance.nodeUnless [.separator, .flowMappingEnd] false false .flowKey t.position
  | _ => emptyScalar t.position (p.expect .flowKey)

def step (p : Parser) : Step :=
  match p.expected with
  | .firstDocument => p.firstDocument
  | .document => p.laterDocument
  | .documentContent => p.documentContent
  | .documentEnd => p.documentEnd
  | .blockNode => p.node true false
  | .firstBlockEntry => p.advance.blockEntry
  | .blockEntry => p.blockEntry
  | .plainEntry => p.plainEntry
  | .firstBlockKey => p.advance.blockKey
  | .blockKey => p.blockKey
  | .blockValue => p.blockValue
  | .firstFlowEntry => p.advance.flowEntry true
  | .flowEntry => p.flowEntry false
  | .pairKey => p.pairKey
  | .pairValue => p.pairValue
  | .pairEnd => p.pairEnd
  | .firstFlowKey => p.advance.flowKey true
  | .flowKey => p.flowKey false
  | .flowValue => p.flowValue
  | .absentFlowValue => do
    let t ← p.peek
    emptyScalar t.position (p.expect .flowKey)
  | .nothing => .error none

/-- Event after event. Where the tokens run out, the fault that cut them short is the fault of
the events. -/
def run (cut : Option Fault) : Nat → Parser → List Event × Option Fault
  | 0, _ => ([], cut)
  | fuel + 1, p =>
    match p.step with
    | .error fault => ([], fault <|> cut)
    | .ok (e, p) =>
      let (events, fault) := run cut fuel p
      (e :: events, fault)

end Parser

def ofText (text : List Char) : List Event × Option Fault :=
  let (tokens, cut) := Token.ofText text
  Parser.run cut (4 * tokens.length + 16) ⟨tokens, .firstDocument, [], []⟩

end Event

end Deployment.Yaml

import Deployment.Text.Utf8
import Deployment.Yaml.Event
import Deployment.Yaml.DecodeError

/-!
A document as a tree of nodes. Aliases stay in the tree as the number of the anchor they name, and
a document that is cut short ends in a node that says why.

Anchors are numbered by the count of different names before them, so a name that is used again
takes over a later number, and an alias stands for the last node that its number was given to.
-/

namespace Deployment.Yaml

structure Node.Heading where
  anchor : Option Nat
  tag : Option (List Char)
  position : Position

inductive Node where
  | scalar (heading : Node.Heading) (text : List Char) (plain : Bool)
  | sequence (heading : Node.Heading) (items : List Node)
  | mapping (heading : Node.Heading) (entries : List (Node × Node))
  | alias (anchor : Nat) (position : Position)
  | cut (error : DecodeError)

namespace Node

mutual
def anchored : Node → List (Nat × Node)
  | .scalar h text plain => (h.anchor.map (·, Node.scalar h text plain)).toList
  | .sequence h items => (h.anchor.map (·, Node.sequence h items)).toList ++ anchoredItems items
  | .mapping h es => (h.anchor.map (·, Node.mapping h es)).toList ++ anchoredEntries es
  | .alias .. => []
  | .cut _ => []

def anchoredItems : List Node → List (Nat × Node)
  | [] => []
  | n :: rest => n.anchored ++ anchoredItems rest

def anchoredEntries : List (Node × Node) → List (Nat × Node)
  | [] => []
  | (k, v) :: rest => k.anchored ++ v.anchored ++ anchoredEntries rest
end

end Node

/-- A document: its tree, the fault that ended it early, the number of its events, and whether
anything follows it. -/
structure Document where
  root : Node
  fault : Option DecodeError
  size : Nat
  followed : Bool

namespace Document

def target (d : Document) (anchor : Nat) : Option Node :=
  (d.root.anchored.reverse.find? (·.1 == anchor)).map (·.2)

inductive Frame where
  | sequence (heading : Node.Heading) (items : List Node)
  | mapping (heading : Node.Heading) (entries : List (Node × Node)) (key : Option Node)

namespace Frame

def add (n : Node) : Frame → Frame
  | .sequence h items => .sequence h (n :: items)
  | .mapping h es none => .mapping h es (some n)
  | .mapping h es (some k) => .mapping h ((k, n) :: es) none

def close : Frame → Node
  | .sequence h items => .sequence h items.reverse
  | .mapping h es _ => .mapping h es.reverse

/-- Takes a final node, as a value and, where one is due, as a key. -/
def cut (n : Node) (f : Frame) : Frame :=
  match f with
  | .mapping _ _ none => (f.add n).add n
  | _ => f.add n

end Frame

/-- A document under construction: the anchor names with their numbers, latest first, the open
collections, innermost first, the root once it is complete, and the number of events so far. -/
structure Builder where
  names : List (List Char × Nat) := []
  frames : List Frame := []
  root : Option Node := none
  size : Nat := 0

namespace Builder

def place (n : Node) (b : Builder) : Builder :=
  match b.frames with
  | f :: outer => { b with frames := f.add n :: outer }
  | [] => { b with root := some n }

def closeFrame (b : Builder) : Builder :=
  match b.frames with
  | f :: outer => { b with frames := outer }.place f.close
  | [] => b

/-- Gives the next number to an anchor name: the count of different names so far. -/
def register (anchor : Option (List Char)) (b : Builder) : Option Nat × Builder :=
  match anchor with
  | none => (none, b)
  | some name =>
    let number := (b.names.map (·.1)).eraseDups.length
    (some number, { b with names := (name, number) :: b.names })

def heading (anchor tag : Option (List Char)) (position : Position) (b : Builder) :
    Node.Heading × Builder :=
  let (number, b) := b.register anchor
  (⟨number, tag, position⟩, b)

def finish (rest : Option Event.Kind) (b : Builder) : Document where
  root := b.root.getD (.scalar ⟨none, none, ⟨0, 0⟩⟩ [] true)
  fault := none
  size := b.size
  followed := match rest with
    | some .streamEnd => false
    | _ => true

/-- The document up to a fault: the innermost open collection ends there. -/
def cutOff (error : DecodeError) (b : Builder) : Document :=
  let root := match b.frames, b.root with
    | [], root => root.getD (.cut error)
    | f :: outer, _ =>
      outer.foldl (fun n g => (g.add n).close) (f.cut (.cut error)).close
  ⟨root, some error, b.size, false⟩

def run (fault : Option Fault) : List Event → Builder → Document
  | [], b =>
    match fault with
    | some fault => b.cutOff (.malformed fault)
    | none => b.finish (some .streamEnd)
  | e :: rest, b =>
    let counted := { b with size := b.size + 1 }
    match e.kind with
    | .streamEnd => b.finish (some .streamEnd)
    | .documentStart => run fault rest b
    | .documentEnd => b.finish (rest.head?.map (·.kind))
    | .alias name =>
      match b.names.find? (·.1 == name) with
      | some (_, number) => run fault rest (counted.place (.alias number e.position))
      | none => b.cutOff (.unknownAnchor e.position)
    | .scalar anchor tag text plain =>
      let (h, b) := counted.heading anchor tag e.position
      run fault rest (b.place (.scalar h text plain))
    | .sequenceStart anchor tag =>
      let (h, b) := counted.heading anchor tag e.position
      run fault rest { b with frames := .sequence h [] :: b.frames }
    | .mappingStart anchor tag =>
      let (h, b) := counted.heading anchor tag e.position
      run fault rest { b with frames := .mapping h [] none :: b.frames }
    | .sequenceEnd => run fault rest counted.closeFrame
    | .mappingEnd => run fault rest counted.closeFrame

end Builder

def ofText (text : List Char) : Document :=
  let (events, fault) := Event.ofText text
  Builder.run fault events {}

/-- The first document in a sequence of octets, which must be UTF-8 throughout and free of control
characters. -/
def ofOctets (octets : List UInt8) : Document :=
  let refused (problem : Problem) : Document :=
    Builder.cutOff (.malformed ⟨problem, ⟨0, 0⟩⟩) {}
  match Text.Utf8.decode octets with
  | none => refused .illFormedOctets
  | some text =>
    if text.all isAllowed then ofText text
    else refused .controlCharacter

end Document

end Deployment.Yaml

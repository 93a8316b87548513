import Deployment.Json.Numeral
import Deployment.Json.Text

/-!
Property trees from JSON text. A key that comes again replaces the earlier value in its place.
Nesting is limited.
-/

namespace Deployment.Json

def depthLimit : Nat := 127

def skipBlanks (cs : List Char) : List Char :=
  cs.dropWhile fun c => c = ' ' || c = '\n' || c = '\t' || c = '\r'

def readScalar (cs : List Char) : Option (Property × List Char) :=
  match cs with
  | 'n' :: 'u' :: 'l' :: 'l' :: rest => some (.null, rest)
  | 't' :: 'r' :: 'u' :: 'e' :: rest => some (.bool true, rest)
  | 'f' :: 'a' :: 'l' :: 's' :: 'e' :: rest => some (.bool false, rest)
  | '"' :: rest =>
    (readText .text rest).map fun (text, rest) => (.string (String.ofList text), rest)
  | _ => (Numeral.read cs).bind fun (n, rest) => n.toProperty.map (·, rest)

def skipScalar (cs : List Char) : Option (List Char) :=
  match cs with
  | '"' :: rest => skipText .text rest
  | 'n' :: _ => (readScalar cs).map (·.2)
  | 't' :: _ => (readScalar cs).map (·.2)
  | 'f' :: _ => (readScalar cs).map (·.2)
  | _ => (Numeral.read cs).map (·.2)

def readParts {α : Type} (close : Char) (part : List Char → Option (α × List Char)) :
    Nat → List Char → Option (List α × List Char)
  | 0, _ => none
  | fuel + 1, cs =>
    (part cs).bind fun (x, rest) =>
      match skipBlanks rest with
      | c :: rest =>
        if c = ',' then
          (readParts close part fuel rest).map fun (xs, rest) => (x :: xs, rest)
        else if c = close then some ([x], rest)
        else none
      | [] => none

def readAll {α : Type} (close : Char) (part : List Char → Option (α × List Char))
    (cs : List Char) : Option (List α × List Char) :=
  match skipBlanks cs with
  | c :: rest => if c = close then some ([], rest) else readParts close part cs.length cs
  | [] => none

def readKey (cs : List Char) : Option (String × List Char) :=
  match skipBlanks cs with
  | '"' :: rest =>
    (readText .text rest).bind fun (key, rest) =>
      match skipBlanks rest with
      | ':' :: rest => some (String.ofList key, rest)
      | _ => none
  | _ => none

def skipKey (cs : List Char) : Option (List Char) :=
  match skipBlanks cs with
  | '"' :: rest =>
    (skipText .text rest).bind fun rest =>
      match skipBlanks rest with
      | ':' :: rest => some rest
      | _ => none
  | _ => none

/-- The map of entries in order, where later entries replace earlier ones. -/
def collect (entries : List (String × Property)) : PropertyMap :=
  entries.foldl (fun m e => m.insert e.1 e.2) []

def readTree : Nat → List Char → Option (Property × List Char)
  | 0, cs => readScalar (skipBlanks cs)
  | depth + 1, cs =>
    match skipBlanks cs with
    | '[' :: rest =>
      (readAll ']' (readTree depth) rest).map fun (items, rest) => (.list items, rest)
    | '\x7b' :: rest =>
      let entry (cs : List Char) : Option ((String × Property) × List Char) :=
        (readKey cs).bind fun (key, rest) =>
          (readTree depth rest).map fun (p, rest) => ((key, p), rest)
      (readAll '\x7d' entry rest).map fun (es, rest) => (.map (collect es), rest)
    | cs => readScalar cs

def skipTree : Nat → List Char → Option (List Char)
  | 0, cs => skipScalar (skipBlanks cs)
  | depth + 1, cs =>
    let item (cs : List Char) : Option (Unit × List Char) := (skipTree depth cs).map ((), ·)
    match skipBlanks cs with
    | '[' :: rest => (readAll ']' item rest).map (·.2)
    | '\x7b' :: rest => (readAll '\x7d' (fun cs => (skipKey cs).bind item) rest).map (·.2)
    | cs => skipScalar cs

def atEnd (cs : List Char) : Bool :=
  (skipBlanks cs).isEmpty

end Deployment.Json

namespace Deployment.Property

def ofJson (text : String) : Option Property :=
  match Json.readTree Json.depthLimit text.toList with
  | some (p, rest) => if Json.atEnd rest then some p else none
  | none => none

end Deployment.Property

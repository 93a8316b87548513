import Deployment.Yaml.Style
import Deployment.Yaml.Value

namespace Deployment.Yaml

structure Page where
  text : String := ""
  atLineStart : Bool := true

namespace Page

def write (s : String) (p : Page) : Page :=
  ⟨p.text ++ s, p.atLineStart && s.isEmpty⟩

def writeWord (s : String) (p : Page) : Page :=
  if p.atLineStart then p.write s else (p.write " ").write s

def freshLine (column : Nat) (p : Page) : Page :=
  let p := if p.atLineStart then p else ⟨p.text ++ "\n", true⟩
  ⟨p.text ++ String.ofList (List.replicate column ' '), true⟩

def writeBlock (cs : List Char) (p : Page) : Page :=
  ⟨p.text ++ String.ofList cs, (cs.getLast?.map isBreak).getD p.atLineStart⟩

end Page

namespace Printer

def escape (c : Char) : List Char :=
  let n := c.toNat
  let hex (width : Nat) : List Char := (Text.hexPadded width n).map Char.toUpper
  if Style.isPrintable c && !isBreak c && c != '"' && c != '\\' then [c]
  else if n = 0x00 then ['\\', '0']
  else if n = 0x07 then ['\\', 'a']
  else if n = 0x08 then ['\\', 'b']
  else if n = 0x09 then ['\\', 't']
  else if n = 0x0A then ['\\', 'n']
  else if n = 0x0B then ['\\', 'v']
  else if n = 0x0C then ['\\', 'f']
  else if n = 0x0D then ['\\', 'r']
  else if n = 0x1B then ['\\', 'e']
  else if c = '"' then ['\\', '"']
  else if c = '\\' then ['\\', '\\']
  else if n = 0x85 then ['\\', 'N']
  else if n = 0x2028 then ['\\', 'L']
  else if n = 0x2029 then ['\\', 'P']
  else if n ≤ 0xFF then ['\\', 'x'] ++ hex 2
  else if n ≤ 0xFFFF then ['\\', 'u'] ++ hex 4
  else ['\\', 'U'] ++ hex 8

def doubleQuoted (cs : List Char) : List Char :=
  '"' :: cs.flatMap escape ++ ['"']

/-- The lines of a text, each after the first broken one moved to a column; breaks in a row do not
move anything. -/
def indented (column : Nat) : Bool → List Char → List Char
  | _, [] => []
  | afterBreak, c :: rest =>
    if isBreak c then c :: indented column true rest
    else
      (if afterBreak then List.replicate column ' ' else []) ++ c :: indented column false rest

def singleQuoted (column : Nat) (cs : List Char) : List Char :=
  let doubled := cs.flatMap fun c => if c = '\'' then ['\'', '\''] else [c]
  '\'' :: indented column false (doubled ++ ['\''])

/-- What the header of a literal block says: the indentation where the text would hide it, and
whether its last line break is dropped or others follow it. -/
def blockHints (cs : List Char) : List Char :=
  let indentation := match cs with
    | c :: _ => if c = ' ' || isBreak c then ['2'] else []
    | [] => []
  let chomping := match cs.reverse with
    | [] => ['-']
    | c :: before =>
      if !isBreak c then ['-']
      else if (before.head?.map isBreak).getD true then ['+']
      else []
  indentation ++ chomping

def literal (column : Nat) (cs : List Char) : List Char :=
  '|' :: blockHints cs ++ '\n' :: indented column true cs

def percent (b : UInt8) : List Char :=
  '%' :: (Text.hexPadded 2 b.toNat).map Char.toUpper

def tagText (t : Tag) : String :=
  let content (cs : List Char) : List Char := cs.flatMap fun c =>
    if isWord c || ";/?:@&=+$,_.~*'()[]".toList.contains c then [c]
    else (String.singleton c).toUTF8.toList.flatMap percent
  match t.text.toList with
  | ['!'] => String.ofList ("!<".toList ++ content ['!'] ++ ['>'])
  | '!' :: rest => String.ofList ('!' :: content rest)
  | cs => String.ofList ('!' :: content cs)

def tagLength (t : Tag) : Nat :=
  if t.text.startsWith "!" then t.text.utf8ByteSize else t.text.utf8ByteSize + 1

inductive Place where
  | root
  | item
  | complex
  | simpleValue
  deriving DecidableEq

/-- Whether a value can be a key on one line: a scalar without breaks or an empty collection, of at
most 128 octets with its tag. -/
def isSimpleKey (tagged : Nat) : Value → Bool
  | .tagged t v => isSimpleKey (tagged + tagLength t) v
  | .string s => !s.toList.any isBreak && tagged + s.utf8ByteSize ≤ 128
  | .sequence items => items.isEmpty && tagged ≤ 128
  | .mapping es => es.isEmpty && tagged ≤ 128
  | .number n => tagged + n.text.utf8ByteSize ≤ 128
  | .bool b => tagged + (toString b).utf8ByteSize ≤ 128
  | .null => tagged + 4 ≤ 128

def string (column : Nat) (s : String) (p : Page) : Page :=
  let cs := s.toList
  match Style.ofText cs with
  | .plain => p.writeWord s
  | .singleQuoted => p.writeWord (String.ofList (singleQuoted column cs))
  | .doubleQuoted => p.writeWord (String.ofList (doubleQuoted cs))
  | .literal => (p.writeWord "").writeBlock (literal column cs)

def mappingColumn (place : Place) (column : Nat) : Nat :=
  if place = .root then 0 else column + 2

def sequenceColumn (place : Place) (tagged : Bool) (column : Nat) : Nat :=
  match place with
  | .root => 0
  | .item => column + 2
  | .complex => if tagged then column else column + 2
  | .simpleValue => column

/-- Goes to where an entry of a collection begins. The first entry may continue the line of the
mark before it. -/
def beginEntry (continues : Bool) (column : Nat) (p : Page) : Page :=
  if continues && !p.atLineStart then ⟨p.text ++ " ", true⟩ else p.freshLine column

def continuesLine (place : Place) (tagged : Bool) : Bool :=
  !tagged && (place = .item || place = .complex)

mutual
def node (place : Place) (column : Nat) (tagged : Bool) (v : Value) (p : Page) : Page :=
  match v with
  | .null => p.writeWord "null"
  | .bool b => p.writeWord (toString b)
  | .number n => p.writeWord n.text
  | .string s => string (column + 2) s p
  | .sequence [] => p.writeWord "[]"
  | .sequence (v :: rest) =>
    items (sequenceColumn place tagged column) (continuesLine place tagged) (v :: rest) p
  | .mapping [] => p.writeWord "\x7b\x7d"
  | .mapping (e :: rest) =>
    entries (mappingColumn place column) (continuesLine place tagged) (e :: rest) p
  | .tagged t v => node place column true v (p.writeWord (tagText t))

def items (column : Nat) (continues : Bool) : List Value → Page → Page
  | [], p => p
  | v :: rest, p =>
    let p := node .item column false v ((beginEntry continues column p).write "-")
    items column false rest p

def entries (column : Nat) (continues : Bool) : Entries → Page → Page
  | [], p => p
  | (k, v) :: rest, p =>
    let p := beginEntry continues column p
    let p :=
      if isSimpleKey 0 k then
        node .simpleValue column false v ((node .simpleValue column false k p).write ":")
      else
        let p := node .complex column false k (p.write "?")
        node .complex column false v ((p.freshLine column).write ":")
    entries column false rest p
end

mutual
/-- Whether a value can be written: no tag stands directly inside another, and no mapping without a
tag has a tagged key as its only one. -/
def isWritable : Bool → Value → Bool
  | inTag, .tagged _ v => !inTag && isWritable true v
  | _, .sequence items => areWritable items
  | inTag, .mapping es =>
    (match es with
      | [(.tagged .., _)] => inTag
      | _ => true) && haveWritable es
  | _, _ => true

def areWritable : List Value → Bool
  | [] => true
  | v :: rest => isWritable false v && areWritable rest

def haveWritable : Entries → Bool
  | [] => true
  | (k, v) :: rest => isWritable false k && isWritable false v && haveWritable rest
end

end Printer

def Value.print (v : Value) : Option String :=
  if Printer.isWritable false v then
    some ((Printer.node .root 0 false v {}).freshLine 0).text
  else none

end Deployment.Yaml

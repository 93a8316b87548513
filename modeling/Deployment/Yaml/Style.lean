import Deployment.Yaml.Cursor
import Deployment.Yaml.Scalar

namespace Deployment.Yaml

inductive Style where
  | plain
  | singleQuoted
  | doubleQuoted
  | literal
  deriving DecidableEq

namespace Style

def isPrintable (c : Char) : Bool :=
  let n := c.toNat
  n == 0x0A || (0x20 ≤ n && n ≤ 0x7E) || (0xA0 ≤ n && n ≤ 0xFFFD && n ≠ 0xFEFF) || 0x10000 ≤ n

def separates (c : Char) : Bool :=
  isGap c || isBreak c || c.toNat = 0

def wordEnds : List Char → Bool
  | [] => true
  | c :: _ => separates c

def beginsWithIndicator : List Char → Bool
  | '-' :: '-' :: '-' :: _ => true
  | '.' :: '.' :: '.' :: _ => true
  | c :: rest =>
    "#,[]\x7b\x7d&*!|>'\"%@\x60".toList.contains c || ("?:-".toList.contains c && wordEnds rest)
  | [] => false

def hasInnerIndicator : Char → List Char → Bool
  | _, [] => false
  | before, c :: rest =>
    (c == ':' && wordEnds rest) || (c == '#' && separates before) || hasInnerIndicator c rest

def hasPair (first second : Char → Bool) : List Char → Bool
  | c :: d :: rest => (first c && second d) || hasPair first second (d :: rest)
  | _ => false

/-- Whether every character appears as itself and no line would end in a space. -/
def needsNoEscape (cs : List Char) : Bool :=
  cs.all isPrintable && !hasPair (· == ' ') isBreak cs

def admitsPlain (cs : List Char) : Bool :=
  needsNoEscape cs && !cs.any isBreak && cs.head? != some ' ' && cs.getLast? != some ' ' &&
    !beginsWithIndicator cs &&
    match cs with
    | [] => true
    | c :: rest => !hasInnerIndicator c rest

def admitsSingleQuotes (cs : List Char) : Bool :=
  needsNoEscape cs && !hasPair isBreak (· == ' ') cs

def admitsBlock (cs : List Char) : Bool :=
  needsNoEscape cs && cs.getLast? != some ' '

/-- Whether a plain scalar of this text would be read as a string. -/
def readsAsString (cs : List Char) : Bool :=
  match Scalar.resolve cs with
  | .string _ => !Scalar.isPaddedDigits cs
  | _ => false

def ofText (cs : List Char) : Style :=
  if cs.contains '\n' then
    if admitsBlock cs then .literal else .doubleQuoted
  else if readsAsString cs && admitsPlain cs then .plain
  else if admitsSingleQuotes cs then .singleQuoted
  else .doubleQuoted

end Style

end Deployment.Yaml

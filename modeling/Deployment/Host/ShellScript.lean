import Deployment.Decimal.Digits

/-!
Scripts in a small part of the shell language: simple commands with quoting, parameters and
redirections, joined by line ends, semicolons, `&&` and `||`. A script that uses more than that is
not read.
-/

namespace Deployment.Host

inductive WordPart where
  | text (cs : List Char)
  | parameter (name : String) (quoted : Bool)
  deriving DecidableEq

abbrev Word := List WordPart

inductive Redirection where
  | file (stream : Nat) (append : Bool) (target : Word)
  | stream (stream target : Nat)
  deriving DecidableEq

inductive Connective where
  | always
  | onSuccess
  | onFailure
  deriving DecidableEq

structure ScriptStep where
  line : Nat
  connective : Connective
  words : List Word
  redirections : List Redirection

namespace ShellScript

/-- What words and operators a script consists of. The stream before a `>` is a token of its
own. -/
inductive Token where
  | word (w : Word)
  | stream (n : Nat)
  | mark (c : Char)
  deriving DecidableEq

inductive Quoting where
  | plain
  | single
  | double
  deriving DecidableEq

inductive Pending where
  | nothing
  | escape
  | dollar
  | name (cs : List Char)
  | braces (cs : List Char)
  | comment
  deriving DecidableEq

structure ReadState where
  tokens : List Token := []
  word : Option Word := none
  quoting : Quoting := .plain
  pending : Pending := .nothing
  unreadable : Bool := false

namespace ReadState

def addPart (s : ReadState) (p : WordPart) : ReadState :=
  { s with word := some (s.word.getD [] ++ [p]), pending := .nothing }

def addChar (s : ReadState) (c : Char) : ReadState :=
  s.addPart (.text [c])

def beginWord (s : ReadState) (quoting : Quoting) : ReadState :=
  { s with word := some (s.word.getD []), quoting }

def endWord (s : ReadState) : ReadState :=
  match s.word with
  | some w => { s with tokens := s.tokens ++ [.word w], word := none }
  | none => s

def addMark (s : ReadState) (c : Char) : ReadState :=
  let s := s.endWord
  { s with tokens := s.tokens ++ [.mark c] }

/-- A `>`. One digit directly before it is the stream that it redirects. -/
def redirect (s : ReadState) : ReadState :=
  match s.word with
  | some [.text [d]] =>
    if Decimal.isDigit d then
      { s with tokens := s.tokens ++ [.stream (d.toNat - 48), .mark '>'], word := none }
    else s.addMark '>'
  | _ => s.addMark '>'

end ReadState

def isNameChar (c : Char) : Bool :=
  c.isAlphanum || c = '_'

def plainChar (s : ReadState) (c : Char) : ReadState :=
  if c = ' ' || c = '\t' then s.endWord
  else if c = '\\' then { s with pending := .escape }
  else if c = '$' then { s with pending := .dollar }
  else if c = '\'' then s.beginWord .single
  else if c = '"' then s.beginWord .double
  else if c = '#' && s.word.isNone then { s with pending := .comment }
  else if c = '>' then s.redirect
  else if c = '\n' || c = ';' || c = '&' || c = '|' then s.addMark c
  else if c = '<' || c = '(' || c = ')' || c.toNat = 0x60 then { s with unreadable := true }
  else s.addChar c

def doubleChar (s : ReadState) (c : Char) : ReadState :=
  if c = '"' then { s with quoting := .plain }
  else if c = '\\' then { s with pending := .escape }
  else if c = '$' then { s with pending := .dollar }
  else if c.toNat = 0x60 then { s with unreadable := true }
  else s.addChar c

def freshChar (s : ReadState) (c : Char) : ReadState :=
  match s.quoting with
  | .plain => plainChar s c
  | .double => doubleChar s c
  | .single => if c = '\'' then { s with quoting := .plain } else s.addChar c

def isSpecialName (c : Char) : Bool :=
  Decimal.isDigit c || c = '@' || c = '*' || c = '#' || c = '?' || c = '$'

def addParameter (s : ReadState) (name : List Char) : ReadState :=
  s.addPart (.parameter (String.ofList name) (s.quoting = .double))

def readChar (s : ReadState) (c : Char) : ReadState :=
  match s.pending with
  | .nothing => freshChar s c
  | .escape =>
    let s := { s with pending := .nothing }
    if c = '\n' then s
    else if s.quoting = .plain || c = '$' || c = '"' || c = '\\' || c.toNat = 0x60 then
      s.addChar c
    else (s.addChar '\\').addChar c
  | .dollar =>
    if isSpecialName c then addParameter s [c]
    else if c = '\x7b' then { s with pending := .braces [] }
    else if c = '(' then { s with unreadable := true }
    else if isNameChar c then { s with pending := .name [c] }
    else freshChar (s.addChar '$') c
  | .name cs =>
    if isNameChar c then { s with pending := .name (cs ++ [c]) }
    else freshChar (addParameter s cs) c
  | .braces cs =>
    if c = '\x7d' then addParameter s cs
    else if isNameChar c || isSpecialName c then { s with pending := .braces (cs ++ [c]) }
    else { s with unreadable := true }
  | .comment => if c = '\n' then freshChar { s with pending := .nothing } c else s

def tokens (cs : List Char) : Option (List Token) :=
  let s := cs.foldl readChar {}
  if s.unreadable || s.quoting ≠ .plain then none
  else
    match s.pending with
    | .nothing => some s.endWord.tokens
    | .comment => some s.endWord.tokens
    | .name name => some (addParameter s name).endWord.tokens
    | .dollar => some (s.addChar '$').endWord.tokens
    | .escape => some (s.addChar '\\').endWord.tokens
    | .braces _ => none

def closed (s : ScriptStep) : List ScriptStep :=
  if s.words.isEmpty && s.redirections.isEmpty then [] else [s]

def streamNumber? : Word → Option Nat
  | [.text [d]] => if Decimal.isDigit d then some (d.toNat - 48) else none
  | _ => none

def steps (s : ScriptStep) : List Token → Option (List ScriptStep)
  | [] => some (closed s)
  | .mark '\n' :: rest =>
    let connective := if (closed s).isEmpty then s.connective else .always
    (steps ⟨s.line + 1, connective, [], []⟩ rest).map (closed s ++ ·)
  | .mark ';' :: rest => (steps ⟨s.line, .always, [], []⟩ rest).map (closed s ++ ·)
  | .mark '&' :: .mark '&' :: rest =>
    (steps ⟨s.line, .onSuccess, [], []⟩ rest).map (closed s ++ ·)
  | .mark '|' :: .mark '|' :: rest =>
    (steps ⟨s.line, .onFailure, [], []⟩ rest).map (closed s ++ ·)
  | .stream n :: .mark '>' :: .mark '&' :: .word w :: rest =>
    (streamNumber? w).bind fun m =>
      steps { s with redirections := s.redirections ++ [.stream n m] } rest
  | .mark '>' :: .mark '&' :: .word w :: rest =>
    (streamNumber? w).bind fun m =>
      steps { s with redirections := s.redirections ++ [.stream 1 m] } rest
  | .stream n :: .mark '>' :: .mark '>' :: .word w :: rest =>
    steps { s with redirections := s.redirections ++ [.file n true w] } rest
  | .mark '>' :: .mark '>' :: .word w :: rest =>
    steps { s with redirections := s.redirections ++ [.file 1 true w] } rest
  | .stream n :: .mark '>' :: .word w :: rest =>
    steps { s with redirections := s.redirections ++ [.file n false w] } rest
  | .mark '>' :: .word w :: rest =>
    steps { s with redirections := s.redirections ++ [.file 1 false w] } rest
  | .word w :: rest => steps { s with words := s.words ++ [w] } rest
  | _ => none

def read (cs : List Char) : Option (List ScriptStep) :=
  (tokens cs).bind (steps ⟨1, .always, [], []⟩)

end ShellScript

end Deployment.Host

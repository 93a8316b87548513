import Deployment.Host.FileTree

/-!
The small programs that every host has: what they write, what they do to the files, and the status
with which they end.
-/

namespace Deployment.Host

structure Effect where
  output : List UInt8 := []
  errors : List UInt8 := []
  files : FileTree
  status : Nat := 0

namespace Utility

def octets (s : String) : List UInt8 :=
  s.toUTF8.toList

def escapeLetter? (c : Char) : Option UInt8 :=
  if c = 'a' then some 7
  else if c = 'b' then some 8
  else if c = 'f' then some 12
  else if c = 'n' then some 10
  else if c = 'r' then some 13
  else if c = 't' then some 9
  else if c = 'v' then some 11
  else if c = '\\' then some 92
  else none

inductive FormatPiece where
  | octets (os : List UInt8)
  | conversion (c : Char)

inductive FormatState where
  | outside
  | escape
  | octal (left value : Nat)
  | percent

def octetPiece (n : Nat) : FormatPiece :=
  .octets [UInt8.ofNat n]

def charPiece (c : Char) : FormatPiece :=
  .octets (octets c.toString)

def outsideChar (c : Char) : List FormatPiece × FormatState :=
  if c = '\\' then ([], .escape)
  else if c = '%' then ([], .percent)
  else ([charPiece c], .outside)

def formatChar : FormatState → Char → List FormatPiece × FormatState
  | .outside, c => outsideChar c
  | .escape, c =>
    match Decimal.digitIn 8 c, escapeLetter? c with
    | some d, _ => ([], .octal 2 d)
    | none, some o => ([.octets [o]], .outside)
    | none, none => ([charPiece '\\', charPiece c], .outside)
  | .octal left value, c =>
    match Decimal.digitIn 8 c with
    | some d =>
      if left ≤ 1 then ([octetPiece (value * 8 + d)], .outside)
      else ([], .octal (left - 1) (value * 8 + d))
    | none =>
      let (pieces, next) := outsideChar c
      (octetPiece value :: pieces, next)
  | .percent, c => ([if c = '%' then charPiece c else .conversion c], .outside)

def formatPieces : FormatState → List Char → List FormatPiece
  | .outside, [] => []
  | .escape, [] => [charPiece '\\']
  | .octal _ value, [] => [octetPiece value]
  | .percent, [] => [charPiece '%']
  | state, c :: rest =>
    let (found, next) := formatChar state c
    found ++ formatPieces next rest

def converted (c : Char) (arg : String) : List UInt8 :=
  if c = 'd' || c = 'i' || c = 'u' then octets (if arg = "" then "0" else arg)
  else if c = 'c' then octets (String.ofList (arg.toList.take 1))
  else octets arg

def formatOnce : List FormatPiece → List String → List UInt8 × List String
  | [], args => ([], args)
  | .octets os :: rest, args =>
    let (written, args) := formatOnce rest args
    (os ++ written, args)
  | .conversion c :: rest, args =>
    let (written, left) := formatOnce rest args.tail
    (converted c (args.headD "") ++ written, left)

/-- What a format writes: it is used again while it leaves fewer arguments than it found. -/
def formatAll (pieces : List FormatPiece) : Nat → List String → List UInt8
  | 0, _ => []
  | fuel + 1, args =>
    let (written, left) := formatOnce pieces args
    if left.isEmpty || args.length ≤ left.length then written
    else written ++ formatAll pieces fuel left

def printf (files : FileTree) (args : List String) : Effect :=
  match args with
  | [] => { errors := octets "printf: usage: printf format [arg ...]\n", files, status := 2 }
  | format :: args =>
    { output := formatAll (formatPieces .outside format.toList) (args.length + 1) args, files }

def echo (escapes : Bool) (files : FileTree) (args : List String) : Effect :=
  let (args, lineEnd) := match args with
    | "-n" :: rest => (rest, [])
    | _ => (args, [(10 : UInt8)])
  let text := " ".intercalate args
  let written :=
    if escapes then
      (formatOnce (formatPieces .outside (text.replace "%" "%%").toList) []).1
    else octets text
  { output := written ++ lineEnd, files }

def cat (working : Place) (files : FileTree) (args : List String) : Effect :=
  args.foldl (fun effect arg =>
    match files.read working arg, arg with
    | _, "-" => effect
    | .ok content, _ => { effect with output := effect.output ++ content }
    | .error (.system e), _ =>
      { effect with
        errors := effect.errors ++ octets ("cat: " ++ arg ++ ": " ++ e.text ++ "\n")
        status := 1 }
    | .error _, _ => { effect with status := 1 }) { files }

def lastName (path : String) : String :=
  ((FileTree.names path).filter (· ≠ "")).getLast?.getD ""

def copy (working : Place) (files : FileTree) (source target : String) : Effect :=
  let fault (text : String) (e : IoError) : Effect :=
    let reason := match e with
      | .system e => e.text
      | e => e.message
    { errors := octets ("cp: " ++ text ++ ": " ++ reason ++ "\n"), files, status := 1 }
  match files.read working source, files.locate working target with
  | .error (.system .isDirectory), _ =>
    { errors := octets ("cp: -r not specified; omitting directory '" ++ source ++ "'\n")
      files
      status := 1 }
  | .error e, _ => fault ("cannot stat '" ++ source ++ "'") e
  | .ok _, .error e => fault ("cannot create regular file '" ++ target ++ "'") e
  | .ok content, .ok place =>
    let place := match files.find? place with
      | some .directory => place ++ [lastName source]
      | _ => place
    match files.writeAt place content with
    | .ok files => { files }
    | .error e => fault ("cannot create regular file '" ++ target ++ "'") (.system e)

def remove (working : Place) (files : FileTree) (args : List String) : Effect :=
  let (flags, paths) := args.partition fun a => a.startsWith "-"
  let given (c : Char) : Bool := flags.any fun f => f.toList.contains c
  paths.foldl (fun effect path =>
    let refuse (e : SystemError) : Effect :=
      { effect with
        errors := effect.errors ++
          octets ("rm: cannot remove '" ++ path ++ "': " ++ e.text ++ "\n")
        status := 1 }
    match (effect.files.locate working path).toOption with
    | none => if given 'f' then effect else refuse .noSuchFile
    | some place =>
      match effect.files.find? place with
      | none => if given 'f' then effect else refuse .noSuchFile
      | some .directory =>
        if given 'r' then { effect with files := effect.files.removeTree place }
        else refuse .isDirectory
      | some _ => { effect with files := effect.files.removeTree place }) { files }

def touch (working : Place) (files : FileTree) (args : List String) : Effect :=
  args.foldl (fun effect path =>
    match effect.files.locate working path with
    | .error _ => { effect with status := 1 }
    | .ok place =>
      match effect.files.find? place with
      | some _ => effect
      | none =>
        match effect.files.writeAt place [] with
        | .ok files => { effect with files }
        | .error e =>
          { effect with
            errors := effect.errors ++
              octets ("touch: cannot touch '" ++ path ++ "': " ++ e.text ++ "\n")
            status := 1 }) { files }

def condition (working : Place) (files : FileTree) : List String → Bool
  | ["-n", s] => s ≠ ""
  | ["-z", s] => s = ""
  | ["-f", path] => files.isFile working path
  | ["-e", path] => ((files.locate working path).toOption.bind files.find?).isSome
  | ["-d", path] => (files.locate working path).toOption.bind files.find? = some .directory
  | ["-s", path] => (files.read working path).toOption.any (· ≠ [])
  | [a, "=", b] => a = b
  | [a, "!=", b] => a ≠ b
  | "!" :: rest => !condition working files rest
  | [s] => s ≠ ""
  | _ => false

def run? (working : Place) (files : FileTree) (name : String) (args : List String) :
    Option Effect :=
  match name with
  | "true" => some { files }
  | "sleep" => some { files }
  | "false" => some { files, status := 1 }
  | "echo" => some (echo false files args)
  | "printf" => some (printf files args)
  | "cat" => some (cat working files args)
  | "cp" =>
    match args.filter fun a => !a.startsWith "-" with
    | [source, target] => some (copy working files source target)
    | _ => some { errors := octets "cp: missing file operand\n", files, status := 1 }
  | "rm" => some (remove working files args)
  | "touch" => some (touch working files args)
  | "test" => some { files, status := if condition working files args then 0 else 1 }
  | "[" => some { files, status := if condition working files args.dropLast then 0 else 1 }
  | _ => none

end Utility

end Deployment.Host

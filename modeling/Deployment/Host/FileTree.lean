import Deployment.Host.IoError
import Deployment.Text.Split
import Deployment.Text.Utf8

/-!
The files of a host, as a value. A place is the list of names that lead to it from the root; a
path is a text that is followed name by name, and every step must leave from a directory. Writing
and removing change the tree at the places they name and nowhere else.
-/

namespace Deployment.Host

abbrev Place := List String

/-- What stands at a place. A locked entry exists and may not be opened. -/
inductive Entry where
  | directory
  | file (content : List UInt8) (executable : Bool)
  | locked
  deriving DecidableEq

structure FileTree where
  entries : List (Place × Entry)

namespace FileTree

def empty : FileTree :=
  ⟨[]⟩

def find? (t : FileTree) (l : Place) : Option Entry :=
  if l = [] then some .directory else t.entries.lookup l

def put (t : FileTree) (l : Place) (e : Entry) : FileTree :=
  ⟨(l, e) :: t.entries.filter (·.1 ≠ l)⟩

def removeTree (t : FileTree) (l : Place) : FileTree :=
  ⟨t.entries.filter fun e => !l.isPrefixOf e.1⟩

private theorem lookup_filter_keys (keep : Place → Bool) (l : Place) (es : List (Place × Entry)) :
    (es.filter fun e => keep e.1).lookup l = if keep l then es.lookup l else none := by
  induction es with
  | nil => simp
  | cons e rest inductionHypothesis =>
    obtain ⟨place, entry⟩ := e
    by_cases same : l = place
    · subst same
      by_cases kept : keep l <;> simp [kept, inductionHypothesis]
    · have different : (l == place) = false := by simpa using same
      by_cases kept : keep place <;>
        simp [List.lookup_cons, kept, different, inductionHypothesis]

theorem find?_put_self (t : FileTree) {l : Place} (e : Entry) (below : l ≠ []) :
    (t.put l e).find? l = some e := by
  simp [find?, put, below]

theorem find?_put_of_ne (t : FileTree) {l other : Place} (e : Entry) (different : other ≠ l) :
    (t.put l e).find? other = t.find? other := by
  have untouched : (other == l) = false := by simpa using different
  simp only [find?, put, List.lookup_cons, untouched]
  rw [lookup_filter_keys (fun place => decide (place ≠ l))]
  simp [different]

theorem find?_removeTree (t : FileTree) (l : Place) {other : Place} (below : other ≠ []) :
    (t.removeTree l).find? other = if l.isPrefixOf other then none else t.find? other := by
  simp only [find?, removeTree, below, if_false]
  rw [lookup_filter_keys (fun place => !l.isPrefixOf place)]
  cases l.isPrefixOf other <;> simp

def childCount (t : FileTree) (l : Place) : Nat :=
  (t.entries.filter fun e => e.1.dropLast = l && e.1 ≠ []).length

/-- The names of a path, an empty one for every slash that follows no name. -/
def names (path : String) : List String :=
  (Text.splitAt '/' path.toList).map String.ofList

/-- The place that names lead to from a place. It need not exist; all before it must be
directories. -/
def follow (t : FileTree) : Place → List String → Except SystemError Place
  | l, [] => .ok l
  | l, name :: rest =>
    match t.find? l with
    | none => .error .noSuchFile
    | some .directory =>
      if name = "" || name = "." then t.follow l rest
      else if name = ".." then t.follow l.dropLast rest
      -- A name is measured before it is looked up, whatever stands there.
      else if 255 < name.utf8ByteSize then .error .nameTooLong
      else t.follow (l ++ [name]) rest
    | some _ => .error .notDirectory

def locate (t : FileTree) (working : Place) (path : String) : Except IoError Place :=
  if path.toList.any (·.toNat = 0) then .error .nulInFileName
  else if path = "" then .error (.system .noSuchFile)
  else if 4096 ≤ path.utf8ByteSize then .error (.system .nameTooLong)
  else (t.follow (if path.startsWith "/" then [] else working) (names path)).mapError .system

def read (t : FileTree) (working : Place) (path : String) : Except IoError (List UInt8) :=
  (t.locate working path).bind fun l =>
    match t.find? l with
    | some (.file content _) => .ok content
    | some .directory => .error (.system .isDirectory)
    | some .locked => .error (.system .permissionDenied)
    | none => .error (.system .noSuchFile)

def readText (t : FileTree) (working : Place) (path : String) : Except IoError String :=
  (t.read working path).bind fun octets =>
    match Text.Utf8.decode octets with
    | some cs => .ok (String.ofList cs)
    | none => .error .notText

def isFile (t : FileTree) (working : Place) (path : String) : Bool :=
  match t.locate working path with
  | .ok l =>
    match t.find? l with
    | some .directory => false
    | some _ => true
    | none => false
  | .error _ => false

def parentFault? (t : FileTree) (l : Place) : Option SystemError :=
  match t.find? l.dropLast with
  | some .directory => none
  | some _ => some .notDirectory
  | none => some .noSuchFile

def writeAt (t : FileTree) (l : Place) (content : List UInt8) : Except SystemError FileTree :=
  match t.find? l with
  | some .directory => .error .isDirectory
  | some .locked => .error .permissionDenied
  | some (.file _ executable) => .ok (t.put l (.file content executable))
  | none =>
    match t.parentFault? l with
    | some fault => .error fault
    | none => .ok (t.put l (.file content false))

def write (t : FileTree) (working : Place) (path : String) (content : List UInt8) :
    Except IoError FileTree :=
  (t.locate working path).bind fun l => (t.writeAt l content).mapError .system

def makeDirectory (t : FileTree) (l : Place) : Except SystemError FileTree :=
  match t.find? l with
  | some _ => .error .fileExists
  | none =>
    match t.parentFault? l with
    | some fault => .error fault
    | none => .ok (t.put l .directory)

def makeDirectories (t : FileTree) (l : Place) : FileTree :=
  (List.range (l.length + 1)).foldl
    (fun t n =>
      match t.find? (l.take n) with
      | some _ => t
      | none => t.put (l.take n) .directory) t

def path (l : Place) : String :=
  "/" ++ "/".intercalate l

end FileTree

/-- The path of a name below a path. A name that begins with a slash stands for itself. -/
def joinPath (base name : String) : String :=
  if name.startsWith "/" || base = "" then name
  else if base.endsWith "/" then base ++ name
  else base ++ "/" ++ name

end Deployment.Host

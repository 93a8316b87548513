import Deployment.Property.Basic
import Deployment.Text.Split

namespace Deployment

def Property.follow (p : Property) : List String → Option Property
  | [] => some p
  | key :: rest =>
    match p with
    | .map m => (PropertyMap.get? m key).bind fun q => q.follow rest
    | _ => none
termination_by keys => keys

def Property.lookup (p : Property) (dotted : String) : Option Property :=
  p.follow ((Text.splitAt '.' dotted.toList).map String.ofList)

/-- The property of a map at a dotted path, whose first key is looked up in the map itself. -/
def PropertyMap.lookup (m : PropertyMap) (dotted : String) : Option Property :=
  let (head, rest) := Text.splitFirst '.' dotted.toList
  match m.get? (String.ofList head), rest with
  | none, _ => none
  | some value, none => some value
  | some value, some rest => value.lookup (String.ofList rest)

end Deployment

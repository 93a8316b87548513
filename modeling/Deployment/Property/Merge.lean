import Deployment.Property.Basic

namespace Deployment

mutual
/-- The property that a name has after an upper layer is laid over a lower one. -/
def Property.over (below : Option Property) : Property → Property
  | .map upper =>
    match below with
    | some (.map lower) => .map (PropertyMap.merge lower upper)
    | _ => .map upper
  | p => p

/-- The map with another laid over it. Existing keys stay in place, new ones are appended. -/
def PropertyMap.merge (base : PropertyMap) : PropertyMap → PropertyMap
  | [] => base
  | (key, value) :: rest =>
    PropertyMap.merge (base.insert key (Property.over (base.get? key) value)) rest
end

end Deployment

import NameAdvisor.Json.Basic

/-!
# Laying one JSON value over another

## Main definitions

* `Json.overlay`: `layer` put over `base`; objects are joined member by member, other values are replaced, and
  the `null` members of a layer that is an object over an object change nothing.
* `Json.look`: the value at a path of member names.
-/

namespace NameAdvisor.Json

mutual

/-- `layer` put over `base`. -/
def overlay (base : Json) : Json → Json
  | .object layer =>
    match base with
    | .object members => .object (overlayMembers members layer)
    | _ => .object layer
  | layer => layer

/-- The members `layer` put one by one over `members`. -/
def overlayMembers (members : List (String × Json)) : List (String × Json) → List (String × Json)
  | [] => members
  | (key, value) :: rest =>
    if value.isNull then overlayMembers members rest
    else
      match Members.find? key members with
      | some old => overlayMembers (Members.insert key (overlay old value) members) rest
      | none => overlayMembers (Members.insert key value members) rest

end

/-- The value at the end of a path of member names, if every step of it leads into an object that has one. -/
def look : Json → List String → Option Json
  | j, [] => some j
  | .object members, key :: path => (Members.find? key members).bind (look · path)
  | _, _ :: _ => none

@[simp] theorem overlay_null (base : Json) : overlay base .null = .null := by
  simp [overlay]

@[simp] theorem overlayMembers_nil (members : Members) : overlayMembers members [] = members := by
  simp [overlayMembers]

end NameAdvisor.Json

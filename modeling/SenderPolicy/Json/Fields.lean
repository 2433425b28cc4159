import SenderPolicy.Json.Basic

/-! How structures and choices are laid out in a JSON tree. -/
namespace SenderPolicy.Json

def fields? (names : List String) : Json → Option (List (Option Json))
  -- The values of the named fields, in the order of the names. An object may have more members than
  -- the names, but none of these twice. An array gives the fields in order and may leave out the
  -- last ones.
  | .object members =>
    names.mapM fun name =>
      match members.filter (·.1 == name) with
      | [] => some none
      | [(_, value)] => some (some value)
      | _ => none
  | .array items =>
    if items.length ≤ names.length then
      some (items.map some ++ List.replicate (names.length - items.length) none)
    else none
  | _ => none

def orElse {α : Type} (standard : α) (read : Json → Option α) : Option Json → Option α
  | none => some standard
  | some j => read j

def orNull {α : Type} (read : Json → Option α) : Option Json → Option (Option α)
  | none | some .null => some none
  | some j => (read j).map some

def choice? : Json → Option String
  -- The name of a choice: a string, or an object with null under the name.
  | .string name => some name
  | .object [(name, .null)] => some name
  | _ => none

def toBool? : Json → Option Bool
  | .bool b => some b
  | _ => none

def toString? : Json → Option String
  | .string s => some s
  | _ => none

def toList? {α : Type} (read : Json → Option α) : Json → Option (List α)
  | .array items => items.mapM read
  | _ => none

def hasMember (name : String) : Json → Bool
  | .object members => members.any (·.1 == name)
  | _ => false

/-- Reading undoes writing for an array if it does for each item. -/
theorem toList?_map {α : Type} {read : Json → Option α} {write : α → Json}
    (h : ∀ a, read (write a) = some a) (xs : List α) :
    toList? read (.array (xs.map write)) = some xs := by
  have items : (xs.map write).mapM read = some xs := by
    induction xs with
    | nil => rfl
    | cons x xs ih => simp only [List.map_cons, List.mapM_cons, h, ih]; rfl
  exact items

end SenderPolicy.Json

import SenderPolicy.Numeral

/-! JSON trees. Members of an object keep the order and the repetitions of the text. -/
namespace SenderPolicy

inductive Json
  | null
  | bool (b : Bool)
  | number (n : Numeral)
  | string (s : String)
  | array (items : List Json)
  | object (members : List (String × Json))
  /-- A text that follows the grammar and still denotes nothing: a string with half of a
  surrogate pair, an object with such a key, or a number beyond all doubles. -/
  | meaningless

namespace Json

def ofNat (n : Nat) : Json :=
  .number ⟨false, n, 0, true⟩

def toNat? : Json → Option Nat
  -- The natural number that is written as plain digits. A zero with a sign is not one.
  | .number ⟨false, n, _, true⟩ => some n
  | _ => none

mutual

def depth : Json → Nat
  | .array items => 1 + depthOfItems items
  | .object members => 1 + depthOfMembers members
  | _ => 0

def depthOfItems : List Json → Nat
  | [] => 0
  | item :: items => max (depth item) (depthOfItems items)

def depthOfMembers : List (String × Json) → Nat
  | [] => 0
  | (_, value) :: members => max (depth value) (depthOfMembers members)

end

mutual

def isMeaningful : Json → Bool
  | .array items => areMeaningful items
  | .object members => areMeaningfulMembers members
  | .meaningless => false
  | _ => true

def areMeaningful : List Json → Bool
  | [] => true
  | item :: items => isMeaningful item && areMeaningful items

def areMeaningfulMembers : List (String × Json) → Bool
  | [] => true
  | (_, value) :: members => isMeaningful value && areMeaningfulMembers members

end

mutual

def lastMembers : Json → Json
  -- Of members with one key only the last is kept, at every depth.
  | .array items => .array (lastMembersOfItems items)
  | .object members => .object (lastMembersOfMembers members)
  | j => j

def lastMembersOfItems : List Json → List Json
  | [] => []
  | item :: items => lastMembers item :: lastMembersOfItems items

def lastMembersOfMembers : List (String × Json) → List (String × Json)
  | [] => []
  | (key, value) :: members =>
    if members.any (·.1 == key) then lastMembersOfMembers members
    else (key, lastMembers value) :: lastMembersOfMembers members

end

mutual

def sameTree : Json → Json → Bool
  | .null, .null => true
  | .bool b, .bool b' => b == b'
  | .number n, .number n' => n == n'
  | .string s, .string s' => s == s'
  | .array items, .array items' => sameItems items items'
  | .object members, .object members' => sameMembers members members'
  | .meaningless, .meaningless => true
  | _, _ => false

def sameItems : List Json → List Json → Bool
  | [], [] => true
  | item :: items, item' :: items' => sameTree item item' && sameItems items items'
  | _, _ => false

def sameMembers : List (String × Json) → List (String × Json) → Bool
  | [], [] => true
  | (key, value) :: members, (key', value') :: members' =>
    key == key' && sameTree value value' && sameMembers members members'
  | _, _ => false

end

mutual

/-- The comparison decides whether two trees are equal. -/
theorem sameTree_iff {j j' : Json} : sameTree j j' = true ↔ j = j' := by
  cases j <;> cases j' <;> simp [sameTree, sameItems_iff, sameMembers_iff]

theorem sameItems_iff {items items' : List Json} :
    sameItems items items' = true ↔ items = items' := by
  cases items <;> cases items' <;> simp [sameItems, sameTree_iff, sameItems_iff]

theorem sameMembers_iff {members members' : List (String × Json)} :
    sameMembers members members' = true ↔ members = members' := by
  rcases members with _ | ⟨⟨key, value⟩, members⟩ <;>
    rcases members' with _ | ⟨⟨key', value'⟩, members'⟩ <;>
    simp [sameMembers, sameTree_iff, sameMembers_iff]

end

instance : DecidableEq Json := fun _ _ =>
  decidable_of_iff _ sameTree_iff

-- Containers nested deeper than this are refused when a tree is read for its own sake.
def maxDepth : Nat := 127

/-- The tree as a plain value, for a reader that takes in all of it before it asks for any part: all
of it has to denote something, the nesting is bounded, and of repeated keys the last one counts. A
reader that asks for parts at once refuses repeated keys instead, see `Json.fields?`. -/
def settle? (j : Json) : Option Json :=
  if j.isMeaningful && j.depth ≤ maxDepth then some j.lastMembers else none

end Json
end SenderPolicy

import SenderPolicy.Text.Cut
import SenderPolicy.Text.Letters

/-! Prefix lengths of networks, written after a slash. -/
namespace SenderPolicy

abbrev PrefixLength (max : Nat) := Fin (max + 1)

namespace PrefixLength

def ofChars? (max : Nat) (s : List Char) : Option (PrefixLength max) :=
  -- One to three digits, leading zeros included, with a value of at most `max`.
  if s ≠ [] ∧ s.length ≤ 3 ∧ s.all Char.isDigit then
    let n := Nat.ofDigitChars 10 s 0
    if h : n ≤ max then some ⟨n, Nat.lt_succ_of_le h⟩ else none
  else none

def split? (max : Nat) (s : List Char) : Option (List Char × Option (PrefixLength max)) :=
  -- Takes the length off the end of a network. The last slash counts; a text without a slash is an
  -- address alone, and one with a bad length is nothing at all.
  match Text.cutLast '/' s with
  | none => some (s, none)
  | some (address, length) => (ofChars? max length).map fun n => (address, some n)

def toChars {max : Nat} (n : PrefixLength max) : List Char :=
  Text.decimal n.val

theorem split?_of_not_mem {max : Nat} {s : List Char} (h : '/' ∉ s) :
    split? max s = some (s, none) := by
  simp [split?, Text.cutLast_eq_none_iff.mpr h]

/-- What stands behind the last slash has to be a length. -/
theorem split?_append {max : Nat} (a : List Char) {s : List Char} (h : '/' ∉ s) :
    split? max (a ++ '/' :: s) = (ofChars? max s).map fun n => (a, some n) := by
  simp [split?, Text.cutLast_append a h]

end PrefixLength
end SenderPolicy

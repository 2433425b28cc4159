import SenderPolicy.Address.Basic
import SenderPolicy.Proofs.Text.Ascii
import SenderPolicy.Proofs.Text.Digits

/-! Networks are read back from their canonical text. What this asks of an address
family is collected in `LawfulFamily`. -/
namespace SenderPolicy

def IsAddressChar (c : Char) : Prop :=
  -- Digits of either base, and what stands between the numbers of an address. A slash is none of
  -- them.
  c.isAlphanum = true ∨ c = ':' ∨ c = '.'

theorem IsAddressChar.isGraphic {c : Char} (h : IsAddressChar c) : Text.IsGraphic c := by
  rcases h with h | rfl | rfl
  · exact Text.isGraphic_of_isAlphanum h
  · decide
  · decide

theorem IsAddressChar.ne_slash {c : Char} (h : IsAddressChar c) : c ≠ '/' := by
  rintro rfl
  rcases h with h | h | h
  · exact absurd h (by decide)
  · exact absurd h (by decide)
  · exact absurd h (by decide)

theorem isAddressChar_of_isDigit {c : Char} (h : c.isDigit = true) : IsAddressChar c :=
  .inl (by simp [Char.isAlphanum, h])

class LawfulFamily (α : Type) [AddressFamily α] : Prop where
  -- The text of an address is read back, and no slash in it could be taken for that of a prefix
  -- length.
  /-- A prefix length has three digits at most. -/
  width_lt : AddressFamily.width α < 1000
  ofChars?_toChars (a : α) : AddressFamily.ofChars? (AddressFamily.toChars a) = some a
  toChars_ne_nil (a : α) : AddressFamily.toChars a ≠ []
  isAddressChar (a : α) : ∀ c ∈ AddressFamily.toChars a, IsAddressChar c

namespace PrefixLength

theorem isDigit_of_mem_toChars {max : Nat} {n : PrefixLength max} {c : Char}
    (h : c ∈ n.toChars) : c.isDigit = true :=
  Text.isDigit_of_mem_decimal h

theorem slash_not_mem_toChars {max : Nat} (n : PrefixLength max) : '/' ∉ n.toChars := by
  intro h
  exact absurd (isDigit_of_mem_toChars h) (by decide)

theorem ofChars?_toChars {max : Nat} (hmax : max < 1000) (n : PrefixLength max) :
    ofChars? max n.toChars = some n := by
  have hle : n.val ≤ max := Nat.le_of_lt_succ n.isLt
  have hlen : n.toChars.length ≤ 3 := Text.length_decimal_le_three (by omega)
  have hval : Nat.ofDigitChars 10 n.toChars 0 = n.val := Nat.ofDigitChars_ten_toDigits
  rw [ofChars?, if_pos ⟨Text.decimal_ne_nil n.val, hlen, Text.all_isDigit_decimal n.val⟩]
  simp [hval, hle]

end PrefixLength

namespace Network

variable {α : Type} [AddressFamily α] [LawfulFamily α]

theorem slash_not_mem_address (a : α) : '/' ∉ AddressFamily.toChars a := fun h =>
  (LawfulFamily.isAddressChar a '/' h).ne_slash rfl

/-- The length is found behind the slash, as no address has one. -/
theorem split?_toChars (n : Network α) :
    PrefixLength.split? (AddressFamily.width α) n.toChars =
      some (AddressFamily.toChars n.address, n.length?) := by
  obtain ⟨address, length?⟩ := n
  cases length? with
  | none =>
    rw [toChars, List.append_nil]
    exact PrefixLength.split?_of_not_mem (slash_not_mem_address address)
  | some length =>
    rw [toChars, PrefixLength.split?_append _ length.slash_not_mem_toChars,
      PrefixLength.ofChars?_toChars LawfulFamily.width_lt length]
    rfl

/-- The canonical text of a network denotes that network. -/
theorem ofChars?_toChars (n : Network α) : ofChars? n.toChars = some n := by
  rw [ofChars?, split?_toChars]
  simp [LawfulFamily.ofChars?_toChars]

theorem toChars_ne_nil (n : Network α) : n.toChars ≠ [] := by
  simp [toChars, LawfulFamily.toChars_ne_nil]

theorem isAddressChar_or_slash {n : Network α} {c : Char} (h : c ∈ n.toChars) :
    IsAddressChar c ∨ c = '/' := by
  obtain ⟨address, length?⟩ := n
  rcases List.mem_append.mp h with h | h
  · exact .inl (LawfulFamily.isAddressChar address c h)
  · cases length? with
    | none => simp at h
    | some length =>
      rcases List.mem_cons.mp h with h | h
      · exact .inr h
      · exact .inl (isAddressChar_of_isDigit (PrefixLength.isDigit_of_mem_toChars h))

/-- The text of a network is one word. -/
theorem isWord_toChars (n : Network α) : Text.IsWord n.toChars := by
  apply Text.isWord_of_graphic n.toChars_ne_nil
  intro c hc
  rcases isAddressChar_or_slash hc with h | rfl
  · exact h.isGraphic
  · decide

end Network
end SenderPolicy

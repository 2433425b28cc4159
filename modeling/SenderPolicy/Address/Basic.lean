import SenderPolicy.Address.PrefixLength

/-! What the two families of addresses share: a width in bits and a text, and over
both a network, which is an address with the prefix length that was written. -/
namespace SenderPolicy

class AddressFamily (α : Type) where
  /-- Bits in an address, and so the longest prefix. -/
  width : Nat
  ofChars? : List Char → Option α
  toChars : α → List Char

structure Network (α : Type) [AddressFamily α] where
  -- An address and, if one was written, its prefix length. The host bits are kept, and so is the
  -- difference between a full length and none.
  address : α
  length? : Option (PrefixLength (AddressFamily.width α))

namespace Network

variable {α : Type} [AddressFamily α]

def ofChars? (s : List Char) : Option (Network α) := do
  let (address, length?) ← PrefixLength.split? (AddressFamily.width α) s
  return ⟨← AddressFamily.ofChars? address, length?⟩

def toChars (n : Network α) : List Char :=
  AddressFamily.toChars n.address ++
    match n.length? with
    | none => []
    | some length => '/' :: length.toChars

end Network
end SenderPolicy

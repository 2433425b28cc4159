import SenderPolicy.Address.Basic

/-! IPv4 addresses in dotted decimal. -/
namespace SenderPolicy

structure Ipv4 where
  first : UInt8
  second : UInt8
  third : UInt8
  fourth : UInt8
  deriving DecidableEq, Repr

namespace Ipv4

def octet? (s : List Char) : Option UInt8 :=
  -- One to three digits below 256. A leading zero could mean octal and is refused.
  let n := Nat.ofDigitChars 10 s 0
  if s ≠ [] ∧ s.length ≤ 3 ∧ s.all Char.isDigit ∧ (s.head? = some '0' → s.length = 1) ∧ n < 256
  then some (UInt8.ofNat n)
  else none

def ofChars? (s : List Char) : Option Ipv4 :=
  match s.splitOn '.' with
  | [a, b, c, d] => do return ⟨← octet? a, ← octet? b, ← octet? c, ← octet? d⟩
  | _ => none

def toChars (a : Ipv4) : List Char :=
  ['.'].intercalate ([a.first, a.second, a.third, a.fourth].map fun o => Text.decimal o.toNat)

def groups (a : Ipv4) : List UInt16 :=
  [a.first.toUInt16 * 256 + a.second.toUInt16, a.third.toUInt16 * 256 + a.fourth.toUInt16]

def ofGroups (high low : UInt16) : Ipv4 :=
  ⟨(high / 256).toUInt8, (high % 256).toUInt8, (low / 256).toUInt8, (low % 256).toUInt8⟩

instance : AddressFamily Ipv4 where
  width := 32
  ofChars? := ofChars?
  toChars := toChars

end Ipv4
end SenderPolicy

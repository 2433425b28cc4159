/-! Decimal numerals, and which of them go beyond the numbers of double precision. -/
namespace SenderPolicy

structure Numeral where
  -- The sign and digits of a number: its value is `± mantissa · 10 ^ scale`, and it is `integral`
  -- if neither a point nor an exponent was written.
  negative : Bool
  mantissa : Nat
  scale : Int
  integral : Bool
  deriving DecidableEq, Repr

namespace Numeral

-- Half a step past the largest double: what is not below rounds to no finite double.
def doubleLimit : Nat := Nat.pow 2 1024 - Nat.pow 2 970

def nearestDouble (n : Nat) : Nat :=
  -- The nearest whole double, where only the first 53 binary digits may differ from zero. Of two at
  -- the same distance it is the one whose digits are even.
  let step := Nat.pow 2 (n.log2 - 52)
  let digits := n / step
  let rest := n % step
  if 2 * rest < step ∨ 2 * rest = step ∧ digits % 2 = 0 then digits * step
  else (digits + 1) * step

def overflows (n : Numeral) : Bool :=
  -- The number is too large for a double. Scales far outside the range are settled by the count of
  -- digits, so that no huge power is ever formed.
  if n.mantissa = 0 then false
  else
    let digits : Int := (Nat.toDigits 10 n.mantissa).length
    if 310 < digits + n.scale then true
    else if digits + n.scale < 300 then false
    else if 0 ≤ n.scale then doubleLimit ≤ n.mantissa * Nat.pow 10 n.scale.toNat
    else doubleLimit * Nat.pow 10 (-n.scale).toNat ≤ n.mantissa

def leading (n : Numeral) : Nat × Int :=
  -- As many of the first digits as 64 bits can hold, and the scale of the last of them.
  let spare := (Nat.toDigits 10 n.mantissa).length - 20
  let dropped := if n.mantissa / Nat.pow 10 spare < UInt64.size then spare else spare + 1
  (n.mantissa / Nat.pow 10 dropped, n.scale + dropped)

/-- The number is too large as a product of two doubles, that of its leading digits and
that of their power of ten. Each is rounded before they are multiplied, so just at the
limit the answer may differ from `overflows` both ways. -/
def overflowsAsProduct (n : Numeral) : Bool :=
  let (digits, scale) := n.leading
  if digits = 0 ∨ scale < 0 then false
  else if 308 < scale then true
  else doubleLimit ≤ nearestDouble digits * nearestDouble (Nat.pow 10 scale.toNat)

end Numeral
end SenderPolicy

import SenderPolicy.Address.Ipv4

/-! IPv6 addresses in their text form, read in every spelling and written in the
recommended one: lower case, no leading zeros, the first longest run of zero groups
as `::`. -/
namespace SenderPolicy

structure Ipv6 where
  groups : List UInt16
  length_groups : groups.length = 8
  deriving DecidableEq, Repr

namespace Ipv6

def ofGroups? (groups : List UInt16) : Option Ipv6 :=
  if h : groups.length = 8 then some ⟨groups, h⟩ else none

def group? (s : List Char) : Option UInt16 :=
  if s ≠ [] ∧ s.length ≤ 4 then (Text.natOfDigits? 16 s).map UInt16.ofNat else none

def groups? : List (List Char) → Option (List UInt16)
  -- The groups of a list of parts. The last part may be a dotted quad, which stands for two groups.
  | [] => some []
  | [last] =>
    match group? last with
    | some g => some [g]
    | none => (Ipv4.ofChars? last).map Ipv4.groups
  | part :: parts => do return (← group? part) :: (← groups? parts)

def parts (s : List Char) : List (List Char) :=
  -- The parts between the colons; nothing at all has no parts.
  if s.isEmpty then [] else s.splitOn ':'

def ofChars? (s : List Char) : Option Ipv6 :=
  -- Either eight groups, or `::` for one or more zero groups. A dotted quad may stand at the very
  -- end only, so never in front of `::`.
  match Text.cutDouble ':' s with
  | none => do ofGroups? (← groups? (parts s))
  | some (front, back) => do
    let front ← (parts front).mapM group?
    let back ← groups? (parts back)
    if front.length + back.length ≤ 7 then
      ofGroups? (front ++ List.replicate (8 - front.length - back.length) 0 ++ back)
    else none

structure ZeroRun where
  -- A run of zero groups: what stands before it, its length, and what follows.
  before : List UInt16
  length : Nat
  after : List UInt16

def longestZeroRun : List UInt16 → ZeroRun
  | [] => ⟨[], 0, []⟩
  | g :: gs =>
    let here := ((g :: gs).takeWhile (· == 0)).length
    let later := longestZeroRun gs
    if later.length ≤ here then ⟨[], here, (g :: gs).drop here⟩
    else { later with before := g :: later.before }

def groupsText (groups : List UInt16) : List Char :=
  [':'].intercalate (groups.map fun g => Nat.toDigits 16 g.toNat)

def toChars (a : Ipv6) : List Char :=
  -- An address that maps an IPv4 one is written with its dotted quad. A single zero group is
  -- written out.
  match a.groups with
  | [0, 0, 0, 0, 0, 0xffff, high, low] =>
    [':', ':', 'f', 'f', 'f', 'f', ':'] ++ (Ipv4.ofGroups high low).toChars
  | groups =>
    let run := longestZeroRun groups
    if run.length ≤ 1 then groupsText groups
    else groupsText run.before ++ [':', ':'] ++ groupsText run.after

instance : AddressFamily Ipv6 where
  width := 128
  ofChars? := ofChars?
  toChars := toChars

end Ipv6
end SenderPolicy

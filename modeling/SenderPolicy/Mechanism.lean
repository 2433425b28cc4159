import SenderPolicy.Address.PrefixLength
import SenderPolicy.Qualifier

/-! Mechanisms and directives, and their text in a record. -/
namespace SenderPolicy

structure DualLength where
  -- Prefix lengths for the addresses that `a` and `mx` find.
  v4 : PrefixLength 32
  v6 : PrefixLength 128
  deriving DecidableEq, Repr

namespace DualLength

def host : DualLength := ⟨32, 128⟩

def render (l : DualLength) : String :=
  -- A full length is left out; the second is marked by a doubled slash.
  (if l.v4 = host.v4 then "" else "/" ++ String.ofList l.v4.toChars) ++
    (if l.v6 = host.v6 then "" else "//" ++ String.ofList l.v6.toChars)

end DualLength

inductive Mechanism
  -- A mechanism with its argument. For `a`, `mx` and `ptr` no target means the domain that the
  -- record is published for.
  | all
  | inclusion (target : String)
  | a (target? : Option String) (length : DualLength)
  | mx (target? : Option String) (length : DualLength)
  /-- Read from existing records only. -/
  | ptr (target? : Option String)
  | ip4 (network : String)
  | ip6 (network : String)
  | existence (target : String)
  deriving DecidableEq, Repr

namespace Mechanism

def lookups : Mechanism → Nat
  | all | ip4 _ | ip6 _ => 0
  | inclusion _ | a .. | mx .. | ptr _ | existence _ => 1

def totalLookups : List Mechanism → Nat
  | [] => 0
  | m :: ms => m.lookups + totalLookups ms

theorem totalLookups_append (ms ms' : List Mechanism) :
    totalLookups (ms ++ ms') = totalLookups ms + totalLookups ms' := by
  induction ms with
  | nil => simp [totalLookups]
  | cons m ms ih => simp only [List.cons_append, totalLookups, ih, Nat.add_assoc]

def renderTarget : Option String → String
  | some target => ":" ++ target
  | none => ""

def render : Mechanism → String
  | all => "all"
  | inclusion target => "include:" ++ target
  | a target? length => "a" ++ renderTarget target? ++ length.render
  | mx target? length => "mx" ++ renderTarget target? ++ length.render
  | ptr target? => "ptr" ++ renderTarget target?
  | ip4 network => "ip4:" ++ network
  | ip6 network => "ip6:" ++ network
  | existence target => "exists:" ++ target

end Mechanism

structure Directive where
  -- A mechanism and the result of its match.
  qualifier : Qualifier
  mechanism : Mechanism
  deriving DecidableEq, Repr

def Directive.render (d : Directive) : String :=
  -- The sign is left out for pass, which is its default.
  (if d.qualifier = .pass then "" else d.qualifier.sign.toString) ++ d.mechanism.render

end SenderPolicy

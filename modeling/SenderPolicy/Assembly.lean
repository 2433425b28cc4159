import SenderPolicy.Distinct
import SenderPolicy.HostName
import SenderPolicy.Kind
import SenderPolicy.Mechanism
import SenderPolicy.Text.Blank

/-! From validated values of one kind to mechanisms. -/
namespace SenderPolicy

def targetBeside (ownDomain value : String) : Option String :=
  -- The target of an `a` or `mx`. The publishing domain is left unsaid.
  if HostName.same value.toList ownDomain.toList then none else some value

namespace Kind

def mechanism? (ownDomain value : String) : Kind → Option Mechanism
  -- The mechanism that a validated value stands for. Redirect and the terminal are no mechanisms
  -- with a value.
  | inclusion => some (.inclusion value)
  | ip4 => some (.ip4 value)
  | ip6 => some (.ip6 value)
  | a => some (.a (targetBeside ownDomain value) .host)
  | mx => some (.mx (targetBeside ownDomain value) .host)
  | existence => some (.existence value)
  | redirect | all => none

def mechanismsOfAll (ownDomain : String) (kind : Kind) (values : List String) : List Mechanism :=
  values.filterMap fun value =>
    kind.mechanism? ownDomain (String.ofList (Text.trim value.toList))

def mechanisms (ownDomain : String) (kind : Kind) (values : List String) : List Mechanism :=
  distinct (kind.mechanismsOfAll ownDomain values)

def repeatedMechanisms (ownDomain : String) (kind : Kind) (values : List String) :
    List Mechanism :=
  -- The mechanisms that are left out because they were there already.
  repeated [] (kind.mechanismsOfAll ownDomain values)

end Kind
end SenderPolicy

/-! The kinds of entries that a record is requested with. -/
namespace SenderPolicy

inductive Kind
  -- Mechanisms that take values, the redirect modifier, and the terminal `all`, which every record
  -- gets and which takes no value.
  | inclusion
  | ip4
  | ip6
  | a
  | mx
  | existence
  | redirect
  | all
  deriving DecidableEq, Repr

namespace Kind

-- The order in which a record lists its mechanisms.
def buildOrder : List Kind := [inclusion, ip4, ip6, a, mx, existence]

def everyKind : List Kind := buildOrder ++ [redirect, all]

def name : Kind → String
  | inclusion => "include"
  | ip4 => "ip4"
  | ip6 => "ip6"
  | a => "a"
  | mx => "mx"
  | existence => "exists"
  | redirect => "redirect"
  | all => "all"

def ofName? (s : String) : Option Kind :=
  everyKind.find? (·.name == s)

theorem ofName?_name (k : Kind) : ofName? k.name = some k := by
  cases k <;> decide

end Kind
end SenderPolicy

import SenderPolicy.MacroString
import SenderPolicy.Qualifier

/-! Settings that all builds share. -/
namespace SenderPolicy

structure Settings where
  /-- The qualifier of new requests. -/
  defaultQualifier : Qualifier
  macroStyle : MacroStyle
  /-- A record that costs more lookups is built, with a warning. -/
  maxLookups : Nat
  /-- The name of the least severe level that is logged. -/
  logLevel : String
  deriving DecidableEq, Repr

namespace Settings

-- The limit of RFC 7208, section 4.6.4.
def standardLookupLimit : Nat := 10

def standardLogLevel : String := "warn"

instance : Inhabited Settings :=
  ⟨⟨.softFail, .compact, standardLookupLimit, standardLogLevel⟩⟩

def isValid (s : Settings) : Bool :=
  -- A limit of zero would fault every record that asks anything.
  s.maxLookups ≠ 0

end Settings
end SenderPolicy

import SenderPolicy.Settings
import SenderPolicy.Toml.Reader

/-! Settings in a TOML document. Everything may be left out, and what is not known is
passed over. -/
namespace SenderPolicy.Settings

open SenderPolicy.Toml (Node Members)

def isEmptyNode : Node → Bool
  | .array items => items.isEmpty
  | .table _ members => members.isEmpty
  | _ => false

def choiceOfNode? : Node → Option String
  -- The name of a choice: a string, or a table with an empty node under the name.
  | .string name => some name
  | .table _ [(name, node)] => if isEmptyNode node then some name else none
  | _ => none

def countOfNode? : Node → Option Nat
  | .integer (.ofNat n) => some n
  | _ => none

def stringOfNode? : Node → Option String
  | .string s => some s
  | _ => none

def memberOr {α : Type} (standard : α) (read : Node → Option α) : Option Node → Option α
  | none => some standard
  | some node => read node

def logLevelOfNode? : Node → Option String
  -- The level stands in a table, or in front in an array. A moment counts as a table of parts that
  -- are not known, so it leaves the level out.
  | .table _ members => memberOr standardLogLevel stringOfNode? (Members.get? members "level")
  | .array items => memberOr standardLogLevel stringOfNode? items.head?
  | .moment => some standardLogLevel
  | _ => none

def ofMembers? (members : Members) : Option Settings := do
  let standard : Settings := default
  return {
    defaultQualifier := ← memberOr standard.defaultQualifier
      (fun n => do Qualifier.ofName? (← choiceOfNode? n)) (Members.get? members "default_qualifier")
    macroStyle := ← memberOr standard.macroStyle
      (fun n => do MacroStyle.ofName? (← choiceOfNode? n)) (Members.get? members "macro_style")
    maxLookups := ← memberOr standard.maxLookups countOfNode? (Members.get? members "max_dns_lookups")
    logLevel := ← memberOr standard.logLevel logLevelOfNode? (Members.get? members "logging") }

def ofToml? (text : String) : Option Settings := do
  -- The settings in a document, if it is one and they make sense.
  ofMembers? (← Toml.ofText? text)

end SenderPolicy.Settings

import SenderPolicy.Json.Fields
import SenderPolicy.Settings

/-! Settings as JSON trees. -/
namespace SenderPolicy.Settings

def toJson (s : Settings) : Json :=
  .object [
    ("default_qualifier", .string s.defaultQualifier.name),
    ("macro_style", .string s.macroStyle.name),
    ("max_dns_lookups", .ofNat s.maxLookups),
    ("logging", .object [("level", .string s.logLevel)])]

def countOfJson? (j : Json) : Option Nat :=
  j.toNat?.filter (· < UInt64.size)

def logLevelOfJson? (j : Json) : Option String := do
  match ← j.fields? ["level"] with
  | [level] => Json.orElse standardLogLevel Json.toString? level
  | _ => none

def ofJson? (j : Json) : Option Settings := do
  match ← j.fields? ["default_qualifier", "macro_style", "max_dns_lookups", "logging"] with
  | [defaultQualifier, macroStyle, maxLookups, logging] =>
    let standard : Settings := default
    return {
      defaultQualifier := ← Json.orElse standard.defaultQualifier
        (fun j => do Qualifier.ofName? (← j.choice?)) defaultQualifier
      macroStyle := ← Json.orElse standard.macroStyle
        (fun j => do MacroStyle.ofName? (← j.choice?)) macroStyle
      maxLookups := ← Json.orElse standard.maxLookups countOfJson? maxLookups
      logLevel := ← Json.orElse standard.logLevel logLevelOfJson? logging }
  | _ => none

end SenderPolicy.Settings

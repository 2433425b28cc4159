import SenderPolicy.Json.Fields
import SenderPolicy.Request

/-! Requests as JSON trees. -/
namespace SenderPolicy

def Entry.toJson (e : Entry) : Json :=
  .object [
    ("kind", .string e.kind.name),
    ("enabled", .bool e.enabled),
    ("raw_values", .array (e.rawValues.map .string))]

def Entry.ofJson? (j : Json) : Option Entry := do
  -- An entry is enabled and has no values unless it says so.
  match ← j.fields? ["kind", "enabled", "raw_values"] with
  | [kind, enabled, rawValues] =>
    return {
      kind := ← Kind.ofName? (← (← kind).choice?)
      enabled := ← Json.orElse true Json.toBool? enabled
      rawValues := ← Json.orElse [] (Json.toList? Json.toString?) rawValues }
  | _ => none

def Request.toJson (q : Request) : Json :=
  .object [
    ("domain", .string q.domain),
    ("mechanisms", .array (q.entries.map Entry.toJson)),
    ("redirect_enabled", .bool q.redirectEnabled),
    ("qualifier", .string q.qualifier.name)]

def Request.ofJson? (j : Json) : Option Request := do
  -- All but the domain may be left out.
  match ← j.fields? ["domain", "mechanisms", "redirect_enabled", "qualifier"] with
  | [domain, mechanisms, redirectEnabled, qualifier] =>
    return {
      domain := ← (← domain).toString?
      entries := ← Json.orElse [] (Json.toList? Entry.ofJson?) mechanisms
      redirectEnabled := ← Json.orElse false Json.toBool? redirectEnabled
      qualifier := ← Json.orElse default (fun j => do Qualifier.ofName? (← j.choice?)) qualifier }
  | _ => none

end SenderPolicy

import SenderPolicy.Build
import SenderPolicy.Json.Fields

/-! Outcomes of builds as JSON trees. -/
namespace SenderPolicy

def Rejection.toJson (r : Rejection) : Json :=
  -- A value that is absent is left out, a kind that is absent is null.
  .object ([
    ("mechanism", match r.kind? with
      | some kind => .string kind.name
      | none => .null),
    ("error", .string r.reason.name)] ++
    match r.value? with
    | some value => [("value", .string value)]
    | none => [])

def Rejection.ofJson? (j : Json) : Option Rejection := do
  match ← j.fields? ["mechanism", "error", "value"] with
  | [mechanism, error, value] =>
    return {
      kind? := ← Json.orNull (fun j => do Kind.ofName? (← j.choice?)) mechanism
      reason := ← Reason.ofName? (← (← error).choice?)
      value? := ← Json.orNull Json.toString? value }
  | _ => none

def Outcome.toJson : Outcome → Json
  | .record text => .object [("record", .string text)]
  | .rejected rejections => .object [("errors", .array (rejections.map Rejection.toJson))]

def Outcome.ofJson? : Json → Option Outcome
  | .object [("record", j)] => j.toString?.map .record
  | .object [("errors", j)] => (j.toList? Rejection.ofJson?).map .rejected
  | _ => none

end SenderPolicy

import SenderPolicy.Event
import SenderPolicy.Text.Quoted

/-! Log lines of events, from the level on: the time in front and colours are left out. -/
namespace SenderPolicy

namespace Level

/-- The level of a name in any case. Nothing is logged for a name that is no level. A filter is cut
down to this. Levels by number, lists of directives for single targets or spans, the variable
of the environment that goes before any filter, and the line that says which directives are
ignored are all left out. -/
def ofName (s : String) : Level :=
  match String.ofList (Text.lower s.toList) with
  | "error" => error
  | "warn" => warn
  | "info" => info
  | "debug" => debug
  | "trace" => trace
  | _ => off

end Level

def Settings.describe (s : Settings) : String :=
  let qualifier := match s.defaultQualifier with
    | .pass => "Pass"
    | .fail => "Fail"
    | .softFail => "SoftFail"
    | .neutral => "Neutral"
  let style := match s.macroStyle with
    | .compact => "Compact"
    | .braced => "Braced"
  "BuilderConfig \x7b default_qualifier: " ++ qualifier ++ ", macro_style: " ++ style ++
    ", max_dns_lookups: " ++ toString s.maxLookups ++
    ", logging: LoggingConfig \x7b level: " ++ Text.quoted s.logLevel ++ " \x7d \x7d"

namespace Event

def fields : Event → List (String × String)
  | settingsLoaded settings => [("config", settings.describe)]
  | buildStarted domain => [("domain", domain)]
  | rejectedValue kind raw reason =>
    [("mechanism", kind.name), ("value", raw), ("error", reason.message)]
  | repeatedMechanism kind mechanism =>
    [("mechanism", kind.name), ("token", mechanism.render)]
  | extraTargets dropped => [("dropped", toString dropped)]
  | othersSuppressed count => [("suppressed", toString count)]
  | overLookupLimit domain lookups limit =>
    [("domain", domain), ("lookups", toString lookups), ("limit", toString limit)]
  | recordBuilt domain record => [("domain", domain), ("record", record)]
  | requestRejected domain rejections =>
    [("domain", domain), ("errors", toString rejections)]
  | qualifiedSkipped directive | unsupportedSkipped directive => [("term", directive.render)]

def isQuoted : Event → String → Bool
  -- A detail that comes from outside as it is goes into quotes.
  | rejectedValue .., "value" => true
  | _, _ => false

def line (e : Event) : String :=
  " ".intercalate ([e.level.name, e.message] ++ e.fields.map fun (name, value) =>
    name ++ "=" ++ if e.isQuoted name then Text.quoted value else value)

end Event
end SenderPolicy

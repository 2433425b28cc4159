import SenderPolicy.Cli.Invocation
import SenderPolicy.Json.Reader
import SenderPolicy.Log
import SenderPolicy.Record
import SenderPolicy.Request.Json
import SenderPolicy.Settings.Load
import SenderPolicy.TxtStrings

/-! What an invocation prints and returns, as a function of the files that it reads. -/
namespace SenderPolicy.Cli

inductive ErrorLine
  | event (e : Event)
  | plain (text : String)
  deriving DecidableEq, Repr

structure Report where
  exitCode : UInt8
  output : List String
  errors : List ErrorLine
  deriving DecidableEq, Repr

namespace Report

def success (output : List String) : Report := ⟨0, output, []⟩

def fault (message : String) : Report := ⟨2, [], [.plain ("error: " ++ message)]⟩

def withEvents (threshold : Level) (events : List Event) (r : Report) : Report :=
  { r with errors := (logged threshold events).map .event ++ r.errors }

end Report

/-- The switch for more talk decides, and without it the settings do, with a filter that is the name
of a level. That the environment may set another filter is left out. -/
def threshold (verbosity : Nat) (s : Settings) : Level :=
  match verbosity with
  | 0 => .ofName s.logLevel
  | 1 => .info
  | 2 => .debug
  | _ => .trace

def requestOfJson? (s : Settings) (j : Json) : Option Request :=
  -- A request from a file. The qualifier of the settings takes the place of one that is left out.
  -- Only an object can name its qualifier, so an array never keeps one.
  (Request.ofJson? j).map fun q =>
    if j.hasMember "qualifier" then q else q.withQualifier s.defaultQualifier

def requestOfText? (s : Settings) (text : String) : Option Request := do
  requestOfJson? s (← (← Json.ofText? text).settle?)

/-- The request to build, or why there is none. What is wrong with a text would follow behind
another colon, in the words of the reader of JSON. These words are left out. -/
def Source.request (files : Files) (s : Settings) : Source → Except String Request
  | .options o => .ok (o.toRequest s)
  | .file path =>
    match files.read path with
    | .error fault => .error ("failed to read request file " ++ path ++ ": " ++ fault.message)
    | .ok text =>
      match requestOfText? s text with
      | some q => .ok q
      | none => .error ("invalid request JSON in " ++ path)

def reportOutcome : Outcome → Report
  | .record text => .success [text]
  | .rejected rejections => ⟨1, [], rejections.map fun r => .plain r.message⟩

def reportRecord (s : Settings) (text : String) (r : Record) : Report :=
  let trimmed := String.ofList (Text.trim text.toList)
  let lookups := toString r.lookups
  let limit := toString s.maxLookups
  { exitCode := 0
    output :=
      r.directives.map (fun d => "mechanism: " ++ d.render) ++
      r.redirect?.toList.map ("redirect: " ++ ·) ++
      r.explanation?.toList.map ("exp: " ++ ·) ++
      ["dns lookups: " ++ lookups ++ "/" ++ limit,
        "length: " ++ toString trimmed.utf8ByteSize] ++
      (TxtStrings.ofRecord trimmed).map fun piece => "txt: \"" ++ piece ++ "\""
    errors :=
      if s.maxLookups < r.lookups then
        [.plain ("warning: record needs " ++ lookups ++ " DNS lookups; the limit is " ++ limit)]
      else [] }

def runCommand (files : Files) (s : Settings) (threshold : Level) : Command → Report
  | .build source =>
    match source.request files s with
    | .error message => .fault message
    | .ok q =>
      (reportOutcome (s.build q)).withEvents threshold (.buildStarted q.domain :: s.buildEvents q)
  | .inspect text =>
    match Record.ofText text with
    | .error e => .fault ("failed to parse SPF record: " ++ e.message)
    | .ok r => reportRecord s text r

def run (files : Files) (i : Invocation) : Report :=
  match Settings.load files i.config? with
  | .error e => .fault e.message
  | .ok s =>
    let threshold := threshold i.verbosity s
    (runCommand files s threshold i.command).withEvents threshold [.settingsLoaded s]

def paths (i : Invocation) : List String :=
  i.config?.getD Settings.standardFile ::
    match i.command with
    | .build (.file path) => [path]
    | _ => []

end SenderPolicy.Cli

import SenderPolicy.Cli.Run

/-! The program `spfgen`. It reads the files, and what it prints is computed. -/
namespace SenderPolicy

def versionText : String := "spfgen 0.1.0"

def usage : String :=
  "Usage: spfgen [-c FILE] [-v]... <build|inspect> ...\n" ++
  "  build (-d DOMAIN | --request FILE) [--include DOMAIN] [--ip4 ADDR[/PREFIX]]\n" ++
  "    [--ip6 ADDR[/PREFIX]] [--a DOMAIN] [--mx DOMAIN] [--exists DOMAIN_SPEC]\n" ++
  "    [--redirect DOMAIN] [-q QUALIFIER]\n" ++
  "  inspect RECORD"

def readFile (path : String) : IO (Except ReadFault String) := do
  try
    match String.fromUTF8? (← IO.FS.readBinFile path) with
    | some text => return .ok text
    | none => return .error .notText
  catch
    | .noFileOrDirectory .. => return .error .notFound
    -- The system's code comes with either sign, by the call that failed.
    | .inappropriateType _ code _ =>
      return .error (if code = 21 ∨ code = -21 then .isDirectory else .notDirectory)
    | e => return .error (.other (toString e))

def readFiles (paths : List String) : IO Files := do
  -- What the system says of the files at these paths. No others are asked for.
  let known ← paths.mapM fun path =>
    return (path, ← (System.mkFilePath [path]).pathExists, ← readFile path)
  let known? (path : String) := known.find? (·.1 == path)
  return {
    isFound := fun path => (known? path).any (·.2.1)
    read := fun path => ((known? path).map (·.2.2)).getD (.error .notFound) }

def printReport (r : Cli.Report) : IO Unit := do
  for line in r.errors do
    match line with
    | .event e => IO.eprintln e.line
    | .plain text => IO.eprintln text
  for line in r.output do
    IO.println line

end SenderPolicy

open SenderPolicy in
def main (args : List String) : IO UInt32 := do
  match Cli.Invocation.ofArgs args with
  | .error .version => IO.println versionText; return 0
  | .error .help => IO.println usage; return 0
  | .error .usageError => IO.eprintln usage; return 2
  | .ok i =>
    let report := Cli.run (← readFiles (Cli.paths i)) i
    printReport report
    return report.exitCode.toUInt32

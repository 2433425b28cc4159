import SenderPolicy.Files
import SenderPolicy.Settings.Toml

/-! Loading settings from files. -/
namespace SenderPolicy

inductive LoadError
  | unreadable (path : String) (fault : ReadFault)
  | malformed
  | noLookups
  deriving DecidableEq, Repr

def LoadError.message : LoadError → String
  -- What is wrong with a document would follow behind a colon, in the words of the reader of TOML.
  -- These words are left out.
  | unreadable path fault => "Failed to read config file " ++ path ++ ": " ++ fault.message
  | malformed => "Failed to parse config"
  | noLookups => "Configuration validation error: max_dns_lookups cannot be 0"

namespace Settings

def standardFile : String := "spfgen.toml"

def ofToml (text : String) : Except LoadError Settings :=
  match ofToml? text with
  | some s => .ok s
  | none => .error .malformed

def check (s : Settings) : Except LoadError Unit :=
  if s.isValid then .ok () else .error .noLookups

def ofFile (files : Files) (path : String) : Except LoadError Settings :=
  match files.read path with
  | .ok text => ofToml text
  | .error fault => .error (.unreadable path fault)

def load (files : Files) (path? : Option String) : Except LoadError Settings := do
  -- The settings of the named file, or else of the standard file if it is found, or else the
  -- standard ones. A file that is found has to be usable.
  let s ← match path? with
    | some path => ofFile files path
    | none => if files.isFound standardFile then ofFile files standardFile else .ok default
  s.check
  return s

end Settings
end SenderPolicy

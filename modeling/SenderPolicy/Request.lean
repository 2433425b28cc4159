import SenderPolicy.Kind
import SenderPolicy.Qualifier

/-! Requests for a record, and how they are edited. Setting an entry replaces the first
of its kind, while the last of a kind is the one in force; a request that was edited and
not loaded has one entry a kind, so there the two agree. -/
namespace SenderPolicy

structure Entry where
  kind : Kind
  enabled : Bool
  rawValues : List String
  deriving DecidableEq, Repr

namespace Entry

def of (kind : Kind) (values : List String) : Entry :=
  ⟨kind, true, values⟩

def tokens (e : Entry) : List String :=
  -- The single values. One raw value may hold several with blanks between them.
  e.rawValues.flatMap fun raw => (Text.words raw.toList).map String.ofList

end Entry

structure Request where
  -- What is asked for: the domain that publishes the record, the entries, the switch to a redirect
  -- alone, and the qualifier of the terminal.
  domain : String
  entries : List Entry
  redirectEnabled : Bool
  qualifier : Qualifier
  deriving DecidableEq, Repr

def setEntry (new : Entry) : List Entry → List Entry
  -- Replaces the first entry of the same kind, or adds the entry at the end.
  | [] => [new]
  | e :: es => if e.kind = new.kind then new :: es else e :: setEntry new es

namespace Request

def empty (domain : String) : Request :=
  ⟨domain, [], false, default⟩

def set (q : Request) (e : Entry) : Request :=
  { q with entries := setEntry e q.entries }

def push (q : Request) (e : Entry) : Request :=
  { q with entries := q.entries ++ [e] }

def withValues (q : Request) (kind : Kind) (values : List String) : Request :=
  q.set (.of kind values)

def withRedirect (q : Request) (target : String) : Request :=
  { q.set (.of .redirect [target]) with redirectEnabled := true }

def switchRedirect (q : Request) (on : Bool) : Request :=
  { q with redirectEnabled := on }

def withDomain (q : Request) (domain : String) : Request :=
  { q with domain := domain }

def withQualifier (q : Request) (qualifier : Qualifier) : Request :=
  { q with qualifier := qualifier }

def entry? (q : Request) (kind : Kind) : Option Entry :=
  -- The entry in force: the last of its kind.
  q.entries.reverse.find? (·.kind = kind)

def values? (q : Request) (kind : Kind) : Option (List String) :=
  ((q.entry? kind).filter (·.enabled)).map Entry.tokens

end Request
end SenderPolicy

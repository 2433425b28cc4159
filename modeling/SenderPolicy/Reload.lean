import SenderPolicy.Event
import SenderPolicy.Record
import SenderPolicy.Request

/-! Loading a record into a request. What a request cannot say is skipped with a
warning. -/
namespace SenderPolicy

inductive Loaded
  /-- One more value of a kind. -/
  | value (kind : Kind) (text : String)
  /-- The terminal, which gives the request its qualifier. -/
  | terminal
  | skipped (warning : Event)

def Directive.load (domain : String) (d : Directive) : Loaded :=
  -- A bare `a` or `mx` names the publishing domain.
  if d.mechanism = .all then .terminal
  else if d.qualifier ≠ .pass then .skipped (.qualifiedSkipped d)
  else
    match d.mechanism with
    | .inclusion target => .value .inclusion target
    | .ip4 network => .value .ip4 network
    | .ip6 network => .value .ip6 network
    | .existence target => .value .existence target
    | .a target? length =>
      if length = .host then .value .a (target?.getD domain) else .skipped (.unsupportedSkipped d)
    | .mx target? length =>
      if length = .host then .value .mx (target?.getD domain) else .skipped (.unsupportedSkipped d)
    | .ptr _ | .all => .skipped (.unsupportedSkipped d)

structure Loading where
  groups : List (Kind × List String)
  warnings : List Event

namespace Loading

def start : Loading := ⟨[], []⟩

def addValue (kind : Kind) (text : String) :
    List (Kind × List String) → List (Kind × List String)
  -- A value joins the values of its kind. The first one of a kind starts a group at the end.
  | [] => [(kind, [text])]
  | (k, values) :: groups =>
    if k = kind then (k, values ++ [text]) :: groups
    else (k, values) :: addValue kind text groups

def add (domain : String) (l : Loading) (d : Directive) : Loading :=
  match d.load domain with
  | .value kind text => { l with groups := addValue kind text l.groups }
  | .terminal => l
  | .skipped warning => { l with warnings := l.warnings ++ [warning] }

end Loading

namespace Record

def load (r : Record) (domain : String) : Loading :=
  r.directives.foldl (Loading.add domain) .start

def skipEvents (r : Record) (domain : String) : List Event :=
  (r.load domain).warnings

def toRequest (r : Record) (domain : String) : Request :=
  -- An entry is set for each group, and one for the redirect at the end. Without a terminal the
  -- qualifier is neutral, which evaluation falls back to.
  let bare := (Request.empty domain).withQualifier (r.terminal?.getD .neutral)
  let q := (r.load domain).groups.foldl (fun q group => q.withValues group.1 group.2) bare
  match r.redirect? with
  | some target => q.withRedirect target
  | none => q

end Record
end SenderPolicy

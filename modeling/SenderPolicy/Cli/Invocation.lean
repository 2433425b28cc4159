import SenderPolicy.Build
import SenderPolicy.Cli.Arguments

/-! What the command line asks for. -/
namespace SenderPolicy.Cli

structure RequestOptions where
  domain : String
  values : List (Kind × List String)
  redirect? : Option String
  qualifier? : Option Qualifier
  deriving DecidableEq, Repr

def RequestOptions.toRequest (o : RequestOptions) (s : Settings) : Request :=
  -- Kinds without a value get no entry, and the settings have the qualifier unless one was given.
  let q := o.values.foldl (fun q (kind, values) =>
    if values.isEmpty then q else q.withValues kind values) (s.newRequest o.domain)
  let q := match o.redirect? with
    | some target => q.withRedirect target
    | none => q
  match o.qualifier? with
  | some qualifier => q.withQualifier qualifier
  | none => q

inductive Source
  | options (o : RequestOptions)
  | file (path : String)
  deriving DecidableEq, Repr

inductive Command
  | build (source : Source)
  | inspect (record : String)
  deriving DecidableEq, Repr

structure Invocation where
  config? : Option String
  verbosity : Nat
  command : Command
  deriving DecidableEq, Repr

namespace Given

def source (g : Given) : Except Stop Source :=
  -- A request comes from a file or has a domain, and not both.
  match g.value? .domain, g.value? .request with
  | some domain, none => .ok (.options {
      domain := domain
      values := Kind.buildOrder.map fun kind => (kind, g.values kind)
      redirect? := g.value? .redirect
      qualifier? := (g.value? .qualifier).bind Qualifier.ofText? })
  | none, some path => .ok (.file path)
  | _, _ => .error .usageError

def command (g : Given) : Place → Except Stop Command
  | .build => g.source.map .build
  | .inspect =>
    match g.words with
    | [record] => .ok (.inspect record)
    | _ => .error .usageError
  | .top => .error .usageError

end Given

namespace Invocation

/-- Reads the whole command line by the usual conventions. Names are long or short, and none may be
abbreviated. A value is attached to its option, or follows it and then does not look like an
option. Short switches may be joined and repeated, an option for one value is given once, and two
hyphens end the options. What was given behind the command counts before what was given in
front of it. The words of the help and of usage errors are left out. -/
def ofArgs (args : List String) : Except Stop Invocation := do
  match ← readPlace .top .empty none args with
  | (_, none) => .error .usageError
  | (outer, some (place, rest)) =>
    let (inner, _) ← readPlace place .empty none rest
    return {
      config? := (inner.value? .config).or (outer.value? .config)
      verbosity := if inner.verbosity = 0 then outer.verbosity else inner.verbosity
      command := ← inner.command place }

end Invocation
end SenderPolicy.Cli

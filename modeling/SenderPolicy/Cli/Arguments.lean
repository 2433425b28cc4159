import SenderPolicy.Kind
import SenderPolicy.Qualifier
import SenderPolicy.Text.Cut

/-! The arguments of the command line: options, switches and words, before and after the
name of a command. They are read from left to right, and the first fault ends the
reading. -/
namespace SenderPolicy.Cli

inductive Place
  | top
  | build
  | inspect
  deriving DecidableEq, Repr

inductive Opt
  | config
  | domain
  | request
  | values (kind : Kind)
  | redirect
  | qualifier
  deriving DecidableEq, Repr

inductive Switch
  | verbose
  | version
  | help
  deriving DecidableEq, Repr

inductive Name
  | opt (o : Opt)
  | switch (s : Switch)
  deriving DecidableEq, Repr

def longName? (place : Place) (s : String) : Option Name :=
  match s, place with
  | "config", _ => some (.opt .config)
  | "verbose", _ => some (.switch .verbose)
  | "help", _ => some (.switch .help)
  | "version", .top => some (.switch .version)
  | "domain", .build => some (.opt .domain)
  | "request", .build => some (.opt .request)
  | "redirect", .build => some (.opt .redirect)
  | "qualifier", .build => some (.opt .qualifier)
  | s, .build => (Kind.buildOrder.find? (·.name == s)).map fun kind => .opt (.values kind)
  | _, _ => none

def shortName? (place : Place) (c : Char) : Option Name :=
  match c, place with
  | 'c', _ => some (.opt .config)
  | 'v', _ => some (.switch .verbose)
  | 'h', _ => some (.switch .help)
  | 'V', .top => some (.switch .version)
  | 'd', .build => some (.opt .domain)
  | 'q', .build => some (.opt .qualifier)
  | _, _ => none

inductive Stop
  | usageError
  | version
  | help
  deriving DecidableEq, Repr

structure Given where
  options : List (Opt × String)
  verbosity : Nat
  words : List String
  deriving DecidableEq, Repr

namespace Given

def empty : Given := ⟨[], 0, []⟩

def value? (g : Given) (o : Opt) : Option String :=
  (g.options.find? (·.1 = o)).map (·.2)

def values (g : Given) (kind : Kind) : List String :=
  (g.options.filter (·.1 = .values kind)).map (·.2)

def isList : Opt → Bool
  | .values _ => true
  | _ => false

def isAcceptable : Opt → String → Bool
  -- A path may not be empty, and a qualifier has to be one.
  | .config, value | .request, value => !value.isEmpty
  | .qualifier, value => (Qualifier.ofText? value).isSome
  | _, _ => true

def addOption (g : Given) (o : Opt) (value : String) : Except Stop Given :=
  if isAcceptable o value && (isList o || (g.value? o).isNone) then
    .ok { g with options := g.options ++ [(o, value)] }
  else .error .usageError

def addSwitch (g : Given) : Switch → Except Stop Given
  | .verbose => .ok { g with verbosity := g.verbosity + 1 }
  | .version => .error .version
  | .help => .error .help

def maxWords : Place → Nat
  | .inspect => 1
  | _ => 0

def addWord (g : Given) (place : Place) (word : String) : Except Stop Given :=
  if g.words.length < maxWords place then .ok { g with words := g.words ++ [word] }
  else .error .usageError

end Given

def isDetachedValue (s : String) : Bool :=
  -- An argument of its own is a value unless it could be an option.
  s == "-" || s.toList.head? != some '-'

def attachedValue : List Char → Option String
  | [] => none
  | '=' :: value => some (String.ofList value)
  | value => some (String.ofList value)

def readShort (place : Place) (g : Given) : List Char → Except Stop (Given × Option Opt)
  -- Short names behind one hyphen: switches, and then perhaps an option, which takes all that
  -- follows. An option at the very end is returned, as its value is still to come.
  | [] => .ok (g, none)
  | c :: cs =>
    match shortName? place c with
    | none => .error .usageError
    | some (.switch s) => do readShort place (← g.addSwitch s) cs
    | some (.opt o) =>
      match attachedValue cs with
      | some value => do return (← g.addOption o value, none)
      | none => .ok (g, some o)

def readLong (place : Place) (g : Given) (s : List Char) : Except Stop (Given × Option Opt) :=
  let (name, value?) :=
    match Text.cutFirst '=' s with
    | some (name, value) => (name, some (String.ofList value))
    | none => (s, none)
  match longName? place (String.ofList name), value? with
  | some (.opt o), some value => do return (← g.addOption o value, none)
  | some (.opt o), none => .ok (g, some o)
  | some (.switch s), none => do return (← g.addSwitch s, none)
  | _, _ => .error .usageError

def readDashed (place : Place) (g : Given) : List Char → Except Stop (Given × Option Opt)
  | '-' :: long => readLong place g long
  | short => readShort place g short

def command? : String → Option Place
  | "build" => some .build
  | "inspect" => some .inspect
  | _ => none

def helpOn : List String → Stop
  -- Help can be asked for as a whole, or for one command.
  | [] => .help
  | [topic] => if topic = "help" || (command? topic).isSome then .help else .usageError
  | _ => .usageError

def readPlace (place : Place) (g : Given) (waiting? : Option Opt) :
    List String → Except Stop (Given × Option (Place × List String))
  -- Reads the arguments of one place, the first of which may be the value that an option still
  -- waits for. At the top the name of a command ends them, and what follows it is returned.
  | [] => if waiting?.isSome then .error .usageError else .ok (g, none)
  | arg :: args =>
    match waiting? with
    | some o =>
      if isDetachedValue arg then do readPlace place (← g.addOption o arg) none args
      else .error .usageError
    | none =>
      match arg.toList with
      | ['-', '-'] => do return (← args.foldlM (·.addWord place ·) g, none)
      | '-' :: c :: cs => do
        let (g, waiting?) ← readDashed place g (c :: cs)
        readPlace place g waiting? args
      | _ =>
        match place, command? arg with
        | .top, some command => .ok (g, some (command, args))
        | .top, none => .error (if arg = "help" then helpOn args else .usageError)
        | _, _ => do readPlace place (← g.addWord place arg) none args

end SenderPolicy.Cli

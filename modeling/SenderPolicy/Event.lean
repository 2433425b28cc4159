import SenderPolicy.Mechanism
import SenderPolicy.Rejection
import SenderPolicy.Settings

/-! What the library reports while it works, apart from its results. -/
namespace SenderPolicy

inductive Level
  | off
  | error
  | warn
  | info
  | debug
  | trace
  deriving DecidableEq, Repr

namespace Level

def rank : Level → Nat
  | off => 0
  | error => 1
  | warn => 2
  | info => 3
  | debug => 4
  | trace => 5

def shows (threshold level : Level) : Bool :=
  -- A log kept at one level shows what is at least as severe.
  level.rank ≤ threshold.rank

def name : Level → String
  | off => "OFF"
  | error => "ERROR"
  | warn => "WARN"
  | info => "INFO"
  | debug => "DEBUG"
  | trace => "TRACE"

end Level

inductive Event
  | settingsLoaded (settings : Settings)
  | buildStarted (domain : String)
  | rejectedValue (kind : Kind) (raw : String) (reason : Reason)
  | repeatedMechanism (kind : Kind) (mechanism : Mechanism)
  | extraTargets (dropped : Nat)
  | othersSuppressed (count : Nat)
  | overLookupLimit (domain : String) (lookups limit : Nat)
  | recordBuilt (domain record : String)
  | requestRejected (domain : String) (rejections : Nat)
  /-- Only pass can be asked for in a request. -/
  | qualifiedSkipped (directive : Directive)
  /-- A request has no kind for the mechanism. -/
  | unsupportedSkipped (directive : Directive)
  deriving DecidableEq, Repr

namespace Event

def level : Event → Level
  | buildStarted _ => .info
  | overLookupLimit .. | qualifiedSkipped _ | unsupportedSkipped _ => .warn
  | _ => .debug

def message : Event → String
  | settingsLoaded _ => "configuration loaded"
  | buildStarted _ => "building SPF record"
  | rejectedValue .. => "rejected value"
  | repeatedMechanism .. => "dropping duplicate value"
  | extraTargets _ => "redirect takes a single target; extra values ignored"
  | othersSuppressed _ => "redirect enabled; other mechanisms left out"
  | overLookupLimit .. =>
    "record exceeds the DNS lookup limit and will fail evaluation with permerror"
  | recordBuilt .. => "built SPF record"
  | requestRejected .. => "SPF record rejected"
  | qualifiedSkipped _ => "qualified mechanism cannot be represented; skipped"
  | unsupportedSkipped _ => "mechanism not supported by the generator; skipped"

end Event

def logged (threshold : Level) (events : List Event) : List Event :=
  events.filter fun e => threshold.shows e.level

end SenderPolicy

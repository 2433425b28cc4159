import SenderPolicy.Kind

/-! Why a value or a whole request is rejected. -/
namespace SenderPolicy

inductive Reason
  | missingDomain
  | invalidIpv4
  | invalidIpv6
  | invalidDomain
  | invalidMacro
  | missingRedirect
  | emptyMechanism
  deriving DecidableEq, Repr

namespace Reason

def message : Reason → String
  | missingDomain => "domain is required"
  | invalidIpv4 => "invalid IP address (expected IPv4 with optional /0-32 prefix)"
  | invalidIpv6 => "invalid IP address (expected IPv6 with optional /0-128 prefix)"
  | invalidDomain => "invalid domain name"
  | invalidMacro => "invalid SPF macro"
  | missingRedirect => "redirect target is required"
  | emptyMechanism => "mechanism is enabled but has no values"

def name : Reason → String
  | missingDomain => "MissingDomain"
  | invalidIpv4 => "InvalidIPv4"
  | invalidIpv6 => "InvalidIPv6"
  | invalidDomain => "InvalidDomain"
  | invalidMacro => "InvalidMacro"
  | missingRedirect => "MissingRedirect"
  | emptyMechanism => "EmptyMechanism"

def everyReason : List Reason :=
  [missingDomain, invalidIpv4, invalidIpv6, invalidDomain, invalidMacro, missingRedirect,
    emptyMechanism]

def ofName? (s : String) : Option Reason :=
  everyReason.find? (·.name == s)

theorem ofName?_name (r : Reason) : ofName? r.name = some r := by
  cases r <;> decide

end Reason

structure Rejection where
  -- A rejected value, an entry without values, or, without a kind, a whole request.
  kind? : Option Kind
  reason : Reason
  value? : Option String
  deriving DecidableEq, Repr

def Rejection.message (r : Rejection) : String :=
  (match r.kind? with
    | some kind => kind.name ++ ": "
    | none => "") ++
  r.reason.message ++
  (match r.value? with
    | some value => ": " ++ value
    | none => "")

end SenderPolicy

import SenderPolicy.Address.Ipv6
import SenderPolicy.Mechanism
import SenderPolicy.Text.Blank

/-! Records as they are published: their terms are read into directives and modifiers.
Names of mechanisms and modifiers are matched in any case. -/
namespace SenderPolicy

structure Record where
  directives : List Directive
  redirect? : Option String
  explanation? : Option String
  deriving DecidableEq, Repr

inductive RecordError
  | invalidVersion
  | unknownMechanism (name : String)
  | allWithArgument
  | invalidIpv4 (text : String)
  | invalidIpv6 (text : String)
  | duplicateModifier (name : String)
  | missingArgument (name : String)
  | invalidLength (text : String)
  deriving DecidableEq, Repr

def RecordError.message : RecordError → String
  | invalidVersion => "invalid SPF version: expected 'v=spf1'"
  | unknownMechanism name => "unknown mechanism: " ++ name
  | allWithArgument => "invalid mechanism argument: all mechanism takes no arguments"
  | invalidIpv4 text => "invalid mechanism argument: invalid IPv4: " ++ text
  | invalidIpv6 text => "invalid mechanism argument: invalid IPv6: " ++ text
  | duplicateModifier name => "duplicate modifier: " ++ name
  | missingArgument name => "missing required argument for " ++ name
  | invalidLength text => "invalid CIDR prefix: " ++ text

namespace Record

/-- A prefix length after its slash. The number is read first. Then it is asked to be at most
`max`, and its text to be one to three digits and nothing else. -/
def readLength (max : Nat) (s : List Char) : Except RecordError (PrefixLength max) :=
  match Text.byte? s with
  | some n =>
    if h : n.toNat ≤ max ∧ s ≠ [] ∧ s.length ≤ 3 ∧ s.all Char.isDigit then
      .ok ⟨n.toNat, Nat.lt_succ_of_le h.1⟩
    else .error (.invalidLength (String.ofList s))
  | none => .error (.invalidLength (String.ofList s))

def targetOf (s : List Char) : Option String :=
  if s.isEmpty then none else some (String.ofList s)

def takeLength6 (s : List Char) : Except RecordError (List Char × PrefixLength 128) :=
  -- What stands before the first doubled slash, and the IPv6 length behind it.
  match Text.cutDouble '/' s with
  | some (front, length) => (readLength 128 length).map fun n => (front, n)
  | none => .ok (s, DualLength.host.v6)

def takeLength4 (s : List Char) : Except RecordError (List Char × PrefixLength 32) :=
  -- What stands before the last slash, and the IPv4 length behind it.
  match Text.cutLast '/' s with
  | some (front, length) => (readLength 32 length).map fun n => (front, n)
  | none => .ok (s, DualLength.host.v4)

def targetAndLength (s : List Char) : Except RecordError (Option String × DualLength) := do
  -- Reads `[target][/length][//length]`. The doubled slash is looked for first.
  let (front, v6) ← takeLength6 s
  let (target, v4) ← takeLength4 front
  return (targetOf target, ⟨v4, v6⟩)

def readNetwork (α : Type) [AddressFamily α] (invalid : String → RecordError) (s : List Char) :
    Except RecordError String :=
  -- A network in canonical text. A bad prefix length is told from a bad address.
  if (PrefixLength.split? (AddressFamily.width α) s).isNone then
    .error (.invalidLength (String.ofList s))
  else
    match (Network.ofChars? s : Option (Network α)) with
    | some n => .ok (String.ofList n.toChars)
    | none => .error (invalid (String.ofList s))

def splitTerm (s : List Char) : List Char × Option (List Char) :=
  -- The name of a mechanism and its argument, which follows a colon, or else starts with a slash.
  match Text.cutFirst ':' s with
  | some (name, argument) => (name, some argument)
  | none =>
    match Text.cutFirst '/' s with
    | some (name, length) => (name, some ('/' :: length))
    | none => (s, none)

def required (name : String) : Option (List Char) → Except RecordError (List Char)
  | some (c :: cs) => .ok (c :: cs)
  | _ => .error (.missingArgument name)

def readMechanism (s : List Char) : Except RecordError Mechanism :=
  let (name, argument?) := splitTerm s
  match String.ofList (Text.lower name) with
  | "all" => if argument?.isSome then .error .allWithArgument else .ok .all
  | "include" => do return .inclusion (String.ofList (← required "include" argument?))
  | "exists" => do return .existence (String.ofList (← required "exists" argument?))
  | "a" => do
    let (target?, length) ← targetAndLength (argument?.getD [])
    return .a target? length
  | "mx" => do
    let (target?, length) ← targetAndLength (argument?.getD [])
    return .mx target? length
  | "ptr" => .ok (.ptr (targetOf (argument?.getD [])))
  | "ip4" => do return .ip4 (← readNetwork Ipv4 .invalidIpv4 (← required "ip4" argument?))
  | "ip6" => do return .ip6 (← readNetwork Ipv6 .invalidIpv6 (← required "ip6" argument?))
  | name => .error (.unknownMechanism name)

def readDirective (s : List Char) : Except RecordError Directive := do
  let (qualifier, rest) := Qualifier.takeSign s
  return ⟨qualifier, ← readMechanism rest⟩

def isModifierName : List Char → Bool
  | [] => false
  | c :: cs => c.isAlpha && cs.all fun c => c.isAlphanum || c == '-' || c == '_' || c == '.'

def modifier? (s : List Char) : Option (List Char × List Char) :=
  (Text.cutFirst '=' s).filter fun (name, _) => isModifierName name

def addModifier (r : Record) (name value : List Char) : Except RecordError Record :=
  -- Adds a modifier. Each of the two that are known may come once, and all others are ignored.
  match String.ofList (Text.lower name) with
  | "redirect" =>
    if r.redirect?.isSome then .error (.duplicateModifier "redirect")
    else do return { r with redirect? := some (String.ofList (← required "redirect" value)) }
  | "exp" =>
    if r.explanation?.isSome then .error (.duplicateModifier "exp")
    else .ok { r with explanation? := some (String.ofList value) }
  | _ => .ok r

def addTerm (r : Record) (term : List Char) : Except RecordError Record :=
  match modifier? term with
  | some (name, value) => r.addModifier name value
  | none => do return { r with directives := r.directives ++ [← readDirective term] }

def empty : Record := ⟨[], none, none⟩

def ofTerms (terms : List (List Char)) : Except RecordError Record :=
  terms.foldlM addTerm empty

def ofText (text : String) : Except RecordError Record :=
  match Text.words text.toList with
  | version :: terms =>
    if Text.sameLetters version "v=spf1".toList then ofTerms terms else .error .invalidVersion
  | [] => .error .invalidVersion

def lookups (r : Record) : Nat :=
  Mechanism.totalLookups (r.directives.map (·.mechanism)) + if r.redirect?.isSome then 1 else 0

def terminal? (r : Record) : Option Qualifier :=
  (r.directives.find? (·.mechanism = .all)).map (·.qualifier)

end Record
end SenderPolicy

import SenderPolicy.Assembly
import SenderPolicy.Event
import SenderPolicy.Request
import SenderPolicy.Validation

/-! Planning a record. All values of a request are validated and all rejections are
collected; without any, the plan says what the record holds. -/
namespace SenderPolicy

def versionTag : String := "v=spf1"

inductive Plan
  /-- A redirect and nothing else. -/
  | redirect (target : String)
  /-- Mechanisms, and the terminal with its qualifier. -/
  | mechanisms (list : List Mechanism) (terminal : Qualifier)
  deriving DecidableEq, Repr

namespace Plan

def terms : Plan → List String
  -- Terms of the record after the version tag. The terminal shows its sign even for pass.
  | redirect target => ["redirect=" ++ target]
  | mechanisms list terminal => list.map Mechanism.render ++ [terminal.sign.toString ++ "all"]

def render (p : Plan) : String :=
  " ".intercalate (versionTag :: p.terms)

def lookups : Plan → Nat
  | redirect _ => 1
  | mechanisms list _ => Mechanism.totalLookups list

end Plan

namespace Request

def ownDomain (q : Request) : String :=
  String.ofList (Text.trim q.domain.toList)

def rejectedValues (style : MacroStyle) (kind : Kind) (values : List String) :
    List (String × Reason) :=
  values.filterMap fun value =>
    match validate style kind value with
    | .ok _ => none
    | .error reason => some (value, reason)

def acceptedValues (style : MacroStyle) (kind : Kind) (values : List String) : List String :=
  values.filterMap fun value => (validate style kind value).toOption

def rejectionsOf (style : MacroStyle) (kind : Kind) (values : List String) : List Rejection :=
  (rejectedValues style kind values).map fun (value, reason) => ⟨some kind, reason, some value⟩

def kindRejections (style : MacroStyle) (q : Request) (kind : Kind) : List Rejection :=
  -- The rejections of a kind of mechanism. Without values an enabled entry is one.
  match q.values? kind with
  | none => []
  | some [] => [⟨some kind, .emptyMechanism, none⟩]
  | some values => rejectionsOf style kind values

def mechanismRejections (style : MacroStyle) (q : Request) : List Rejection :=
  -- All rejections but those of the redirect. The terminal takes no values, and an entry for it may
  -- be empty.
  Kind.buildOrder.flatMap (q.kindRejections style) ++
    rejectionsOf style .all ((q.values? .all).getD [])

def kindMechanisms (style : MacroStyle) (q : Request) (kind : Kind) : List Mechanism :=
  kind.mechanisms q.ownDomain (acceptedValues style kind ((q.values? kind).getD []))

def mechanisms (style : MacroStyle) (q : Request) : List Mechanism :=
  Kind.buildOrder.flatMap (q.kindMechanisms style)

def redirectValues (q : Request) : List String :=
  -- Values for the redirect. The switch of the request decides about it, and not that of the entry.
  ((q.entry? .redirect).map Entry.tokens).getD []

def redirectTarget (style : MacroStyle) (q : Request) : Except Rejection String :=
  match q.redirectValues with
  | [] => .error ⟨some .redirect, .missingRedirect, none⟩
  | value :: _ =>
    match validate style .redirect value with
    | .ok target => .ok target
    | .error reason => .error ⟨some .redirect, reason, some value⟩

/-- Without a publishing domain nothing is validated. Otherwise the plan is refused with
all rejections together, those of mechanisms that a redirect would leave out included. -/
def plan (style : MacroStyle) (q : Request) : Except (List Rejection) Plan :=
  if q.ownDomain.isEmpty then .error [⟨none, .missingDomain, none⟩]
  else
    let rejections := q.mechanismRejections style
    if q.redirectEnabled then
      match q.redirectTarget style with
      | .error rejection => .error (rejections ++ [rejection])
      | .ok target => if rejections.isEmpty then .ok (.redirect target) else .error rejections
    else if rejections.isEmpty then .ok (.mechanisms (q.mechanisms style) q.qualifier)
    else .error rejections

end Request
end SenderPolicy

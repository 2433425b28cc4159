import SenderPolicy.Plan

/-! Building the text of a record, and the events that go with it. -/
namespace SenderPolicy

inductive Outcome
  | record (text : String)
  | rejected (rejections : List Rejection)
  deriving DecidableEq, Repr

namespace Outcome

def ofPlan : Except (List Rejection) Plan → Outcome
  | .ok plan => .record plan.render
  | .error rejections => .rejected rejections

def isRecord : Outcome → Bool
  | record _ => true
  | rejected _ => false

def record? : Outcome → Option String
  | record text => some text
  | rejected _ => none

def rejections : Outcome → List Rejection
  | record _ => []
  | rejected rejections => rejections

def hasRejection (o : Outcome) (kind : Kind) (reason : Reason) : Bool :=
  o.rejections.any fun r => r.kind? = some kind && r.reason = reason

end Outcome

namespace Settings

def newRequest (s : Settings) (domain : String) : Request :=
  (Request.empty domain).withQualifier s.defaultQualifier

def build (s : Settings) (q : Request) : Outcome :=
  .ofPlan (q.plan s.macroStyle)

end Settings

namespace Request

def rejectionEvents (style : MacroStyle) (kind : Kind) (values : List String) : List Event :=
  (rejectedValues style kind values).map fun (value, reason) => .rejectedValue kind value reason

def kindEvents (style : MacroStyle) (q : Request) (kind : Kind) : List Event :=
  -- Rejected values of a kind, then the repetitions among the accepted ones.
  let values := (q.values? kind).getD []
  rejectionEvents style kind values ++
    (kind.repeatedMechanisms q.ownDomain (acceptedValues style kind values)).map
      (.repeatedMechanism kind)

def redirectEvents (style : MacroStyle) (q : Request) : List Event :=
  let values := q.redirectValues
  (if 1 < values.length then [.extraTargets (values.length - 1)] else []) ++
    rejectionEvents style .redirect (values.take 1)

def planEvents (style : MacroStyle) (q : Request) : List Event :=
  if q.ownDomain.isEmpty then []
  else
    Kind.buildOrder.flatMap (q.kindEvents style) ++
      rejectionEvents style .all ((q.values? .all).getD []) ++
      (if q.redirectEnabled then q.redirectEvents style else []) ++
      match q.plan style with
      | .ok (.redirect _) =>
        let count := (q.mechanisms style).length
        if count = 0 then [] else [.othersSuppressed count]
      | _ => []

end Request

namespace Settings

def outcomeEvents (s : Settings) (q : Request) : List Event :=
  match q.plan s.macroStyle with
  | .ok plan =>
    (if s.maxLookups < plan.lookups then [.overLookupLimit q.domain plan.lookups s.maxLookups]
      else []) ++
    [.recordBuilt q.domain plan.render]
  | .error rejections => [.requestRejected q.domain rejections.length]

def buildEvents (s : Settings) (q : Request) : List Event :=
  q.planEvents s.macroStyle ++ s.outcomeEvents q

end Settings
end SenderPolicy

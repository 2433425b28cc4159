import SenderPolicy.Build
import SenderPolicy.Proofs.Validation

/-! What a plan holds: when there is one, and where its mechanisms come from. -/
namespace SenderPolicy

theorem targetBeside_eq_none_iff {own value : String} :
    targetBeside own value = none ↔ HostName.same value.toList own.toList = true := by
  simp [targetBeside]

/-- The own name counts by its canonical form. -/
theorem targetBeside_congr {own own' : String}
    (h : HostName.canonical own'.toList = HostName.canonical own.toList) (value : String) :
    targetBeside own' value = targetBeside own value := by
  rw [targetBeside, targetBeside, HostName.same, HostName.same, h]

theorem eq_of_targetBeside_eq_some {own value target : String}
    (h : targetBeside own value = some target) : target = value := by
  rw [targetBeside] at h
  split at h
  · cases h
  · exact (Option.some.inj h).symm

namespace Kind

theorem exists_mechanism? {kind : Kind} (h : kind ∈ buildOrder) (own value : String) :
    ∃ m, kind.mechanism? own value = some m := by
  cases kind with
  | redirect | all => exact absurd h (by decide)
  | _ => exact ⟨_, rfl⟩

def mechanismOf? (style : MacroStyle) (own : String) (kind : Kind) (raw : String) :
    Option Mechanism :=
  (validate style kind raw).toOption.bind fun v => kind.mechanism? own v

/-- A raw value gives a mechanism exactly if it is valid. -/
theorem mechanismOf?_eq_some_iff {style : MacroStyle} {own raw : String} {kind : Kind}
    {m : Mechanism} : kind.mechanismOf? style own raw = some m ↔
      ∃ v, validate style kind raw = .ok v ∧ kind.mechanism? own v = some m := by
  rw [mechanismOf?]
  cases validate style kind raw <;> simp [Except.toOption]

/-- The domain counts by its canonical name. -/
theorem mechanismOf?_congr {own own' : String}
    (h : HostName.canonical own'.toList = HostName.canonical own.toList) (style : MacroStyle)
    (kind : Kind) : kind.mechanismOf? style own' = kind.mechanismOf? style own := by
  funext raw
  rw [mechanismOf?, mechanismOf?]
  cases validate style kind raw with
  | error reason => rfl
  | ok v => cases kind <;> simp [Except.toOption, mechanism?, targetBeside_congr h]

theorem mem_buildOrder_iff {kind : Kind} : kind ∈ buildOrder ↔ kind ≠ .redirect ∧ kind ≠ .all := by
  cases kind <;> decide

theorem ne_redirect_of_mem {kind : Kind} (h : kind ∈ buildOrder) : kind ≠ .redirect := by
  rintro rfl
  exact absurd h (by decide)

theorem ne_all_of_mem {kind : Kind} (h : kind ∈ buildOrder) : kind ≠ .all := by
  rintro rfl
  exact absurd h (by decide)

end Kind

namespace Request

theorem mem_acceptedValues {style : MacroStyle} {kind : Kind} {values : List String} {v : String} :
    v ∈ acceptedValues style kind values ↔ ∃ raw ∈ values, validate style kind raw = .ok v := by
  rw [acceptedValues, List.mem_filterMap]
  have hok : ∀ x : Except Reason String, x.toOption = some v ↔ x = .ok v := by
    intro x
    cases x <;> simp [Except.toOption]
  simp only [hok]

theorem mechanismsOfAll_acceptedValues (style : MacroStyle) (own : String) (kind : Kind)
    (values : List String) : kind.mechanismsOfAll own (acceptedValues style kind values) =
      (acceptedValues style kind values).filterMap fun v => kind.mechanism? own v := by
  rw [Kind.mechanismsOfAll]
  apply List.filterMap_congr
  intro v hv
  obtain ⟨raw, -, hraw⟩ := mem_acceptedValues.mp hv
  rw [(isWord_of_validate hraw).trim_eq, String.ofList_toList]

/-- The mechanisms of a kind are those of its valid values, without repetitions. -/
theorem kindMechanisms_eq (style : MacroStyle) (q : Request) (kind : Kind) :
    q.kindMechanisms style kind = distinct
      (((q.values? kind).getD []).filterMap (kind.mechanismOf? style q.ownDomain)) := by
  rw [kindMechanisms, Kind.mechanisms, mechanismsOfAll_acceptedValues, acceptedValues,
    List.filterMap_filterMap]
  rfl

theorem mem_kindMechanisms_iff {style : MacroStyle} {q : Request} {kind : Kind} {m : Mechanism} :
    m ∈ q.kindMechanisms style kind ↔
      ∃ raw ∈ (q.values? kind).getD [], kind.mechanismOf? style q.ownDomain raw = some m := by
  rw [kindMechanisms_eq, mem_distinct, List.mem_filterMap]

/-- A planned mechanism comes from a valid value of an entry that is looked at. -/
theorem mem_mechanisms {style : MacroStyle} {q : Request} {m : Mechanism} :
    m ∈ q.mechanisms style ↔ ∃ kind ∈ Kind.buildOrder, ∃ raw ∈ (q.values? kind).getD [], ∃ v,
      validate style kind raw = .ok v ∧ kind.mechanism? q.ownDomain v = some m := by
  simp only [mechanisms, List.mem_flatMap, mem_kindMechanisms_iff, Kind.mechanismOf?_eq_some_iff]

/-- Only the first value of the redirect is looked at. -/
theorem redirectTarget_eq_ok_iff {style : MacroStyle} {q : Request} {target : String} :
    q.redirectTarget style = .ok target ↔
      ∃ raw, q.redirectValues.head? = some raw ∧ validate style .redirect raw = .ok target := by
  rw [redirectTarget]
  cases q.redirectValues with
  | nil => simp
  | cons raw raws =>
    simp only [List.head?_cons, Option.some.injEq, exists_eq_left']
    cases validate style .redirect raw <;> simp

/-- Values behind the first one are not looked at. -/
theorem redirectTarget_congr {q q' : Request}
    (h : q'.redirectValues.head? = q.redirectValues.head?) (style : MacroStyle) :
    q'.redirectTarget style = q.redirectTarget style := by
  rw [redirectTarget, redirectTarget]
  cases hvalues : q.redirectValues with
  | nil =>
    rw [hvalues, List.head?_nil, List.head?_eq_none_iff] at h
    rw [h]
  | cons value values =>
    rw [hvalues, List.head?_cons, List.head?_eq_some_iff] at h
    obtain ⟨values', hvalues'⟩ := h
    rw [hvalues']

/-- The two ways in which a request is granted. -/
theorem plan_eq_ok_iff {style : MacroStyle} {q : Request} {p : Plan} :
    q.plan style = .ok p ↔ q.ownDomain ≠ "" ∧ q.mechanismRejections style = [] ∧
      ((q.redirectEnabled = true ∧ ∃ target, q.redirectTarget style = .ok target ∧
          p = .redirect target) ∨
        (q.redirectEnabled = false ∧ p = .mechanisms (q.mechanisms style) q.qualifier)) := by
  rw [plan]
  -- The domain comes first, then the target if it is asked for, then all rejections.
  by_cases hdomain : q.ownDomain = ""
  · simp [hdomain]
  · have hne : q.ownDomain.isEmpty = false := by simpa using hdomain
    simp only [hne, Bool.false_eq_true, if_false]
    cases hred : q.redirectEnabled with
    | false =>
      by_cases hrej : q.mechanismRejections style = []
      · simp [hdomain, hrej, eq_comm]
      · simp [hdomain, hrej]
    | true =>
      cases htarget : q.redirectTarget style with
      | error rejection => simp
      | ok target =>
        by_cases hrej : q.mechanismRejections style = []
        · simp [hdomain, hrej, eq_comm]
        · simp [hdomain, hrej]

/-- The ways in which a request is refused. -/
theorem plan_eq_error_iff {style : MacroStyle} {q : Request} {rejections : List Rejection} :
    q.plan style = .error rejections ↔
      (q.ownDomain = "" ∧ rejections = [⟨none, .missingDomain, none⟩]) ∨
      (q.ownDomain ≠ "" ∧ q.redirectEnabled = true ∧ ∃ rejection,
        q.redirectTarget style = .error rejection ∧
          rejections = q.mechanismRejections style ++ [rejection]) ∨
      (q.ownDomain ≠ "" ∧ (q.redirectEnabled = true → ∃ target, q.redirectTarget style = .ok target) ∧
        rejections = q.mechanismRejections style ∧ rejections ≠ []) := by
  rw [plan]
  by_cases hdomain : q.ownDomain = ""
  · simpa [hdomain] using eq_comm
  · -- Past the domain and the target, the rejections of the mechanisms are all there is.
    have hsame : ∀ granted : Plan, (if q.mechanismRejections style = [] then .ok granted
        else .error (q.mechanismRejections style)) = Except.error rejections ↔
          rejections = q.mechanismRejections style ∧ ¬ rejections = [] := by
      intro granted
      by_cases hrej : q.mechanismRejections style = []
      · simp [hrej]
      · rw [if_neg hrej, Except.error.injEq]
        constructor
        · intro h
          exact ⟨h.symm, h ▸ hrej⟩
        · intro h
          exact h.1.symm
    cases hred : q.redirectEnabled with
    | false => simpa [hdomain] using hsame _
    | true =>
      cases htarget : q.redirectTarget style with
      | error rejection => simpa [hdomain] using eq_comm
      | ok target => simpa [hdomain] using hsame _

/-- A plan looks at the domain's canonical name and at the values of the entries in force. -/
theorem plan_congr {style : MacroStyle} {q q' : Request}
    (hblank : q'.ownDomain = "" ↔ q.ownDomain = "")
    (hname : HostName.canonical q'.ownDomain.toList = HostName.canonical q.ownDomain.toList)
    (hred : q'.redirectEnabled = q.redirectEnabled) (hqualifier : q'.qualifier = q.qualifier)
    (hvalues : ∀ kind ≠ .redirect, q'.values? kind = q.values? kind)
    (htarget : q.redirectEnabled = true → q'.redirectTarget style = q.redirectTarget style) :
    q'.plan style = q.plan style := by
  -- Rejections and mechanisms are made of these values kind by kind.
  have hrejections : q'.mechanismRejections style = q.mechanismRejections style := by
    have hkind : ∀ kind ∈ Kind.buildOrder,
        q'.kindRejections style kind = q.kindRejections style kind := by
      intro kind hkind
      rw [kindRejections, kindRejections, hvalues kind (Kind.ne_redirect_of_mem hkind)]
    rw [mechanismRejections, mechanismRejections, List.flatMap_congr hkind,
      hvalues .all (by decide)]
  have hmechanisms : q'.mechanisms style = q.mechanisms style := by
    apply List.flatMap_congr
    intro kind hkind
    rw [kindMechanisms_eq, kindMechanisms_eq, hvalues kind (Kind.ne_redirect_of_mem hkind),
      Kind.mechanismOf?_congr hname]
  have hempty : q'.ownDomain.isEmpty = q.ownDomain.isEmpty := by
    rw [Bool.eq_iff_iff, String.isEmpty_iff, String.isEmpty_iff, hblank]
  rw [plan, plan, hempty, hred, hrejections, hmechanisms, hqualifier]
  cases hon : q.redirectEnabled with
  | false => rfl
  | true => rw [htarget hon]

theorem rejectionsOf_eq_nil_iff {style : MacroStyle} {kind : Kind} {values : List String} :
    rejectionsOf style kind values = [] ↔
      ∀ raw ∈ values, ∃ v, validate style kind raw = .ok v := by
  rw [rejectionsOf, List.map_eq_nil_iff, rejectedValues, List.filterMap_eq_nil_iff]
  apply forall₂_congr
  intro raw _
  cases validate style kind raw <;> simp

/-- A kind that is asked for needs one value at least, and only valid ones. -/
theorem kindRejections_eq_nil_iff {style : MacroStyle} {q : Request} {kind : Kind} :
    q.kindRejections style kind = [] ↔ ∀ values, q.values? kind = some values →
      values ≠ [] ∧ ∀ raw ∈ values, ∃ v, validate style kind raw = .ok v := by
  rw [kindRejections]
  cases q.values? kind with
  | none => simp
  | some values =>
    cases values with
    | nil => simp
    | cons raw raws =>
      rw [rejectionsOf_eq_nil_iff]
      simp

/-- The terminal accepts no value at all. -/
theorem mechanismRejections_eq_nil_iff {style : MacroStyle} {q : Request} :
    q.mechanismRejections style = [] ↔
      (∀ kind ∈ Kind.buildOrder, ∀ values, q.values? kind = some values →
        values ≠ [] ∧ ∀ raw ∈ values, ∃ v, validate style kind raw = .ok v) ∧
      (q.values? .all).getD [] = [] := by
  have hall : ∀ values : List String,
      rejectionsOf style .all values = [] ↔ values = [] := by
    intro values
    rw [rejectionsOf_eq_nil_iff, List.eq_nil_iff_forall_not_mem]
    apply forall₂_congr
    intro raw _
    simp [validate, Validation.check, Except.map]
  rw [mechanismRejections, List.append_eq_nil_iff, hall, List.flatMap_eq_nil_iff]
  simp only [kindRejections_eq_nil_iff]

/-! The style decides how macros are spelled, and nothing else -/

theorem rejectionsOf_style (style style' : MacroStyle) (kind : Kind) (values : List String) :
    rejectionsOf style kind values = rejectionsOf style' kind values := by
  rw [rejectionsOf, rejectionsOf, rejectedValues, rejectedValues]
  congr 1
  apply List.filterMap_congr
  intro raw _
  cases h : validate style kind raw with
  | ok v =>
    obtain ⟨v', h'⟩ := exists_validate_eq_ok style' h
    rw [h']
  | error reason => rw [validate_error_iff.mp h]

/-- Requests are rejected for the same values in either style. -/
theorem mechanismRejections_style (style style' : MacroStyle) (q : Request) :
    q.mechanismRejections style = q.mechanismRejections style' := by
  have hkind : q.kindRejections style = q.kindRejections style' := by
    funext kind
    simp only [kindRejections, rejectionsOf_style style style']
  rw [mechanismRejections, mechanismRejections, hkind, rejectionsOf_style style style']

theorem plan_error_style {style : MacroStyle} (style' : MacroStyle) {q : Request}
    {rejections : List Rejection} (h : q.plan style = .error rejections) :
    q.plan style' = .error rejections := by
  have htarget : q.redirectTarget style' = q.redirectTarget style := rfl
  rw [plan_eq_error_iff] at h ⊢
  rw [htarget, mechanismRejections_style style' style]
  exact h

end Request

namespace Settings

/-- A build depends on the plan only. -/
theorem build_congr {s : Settings} {q q' : Request}
    (h : q.plan s.macroStyle = q'.plan s.macroStyle) : s.build q = s.build q' := by
  rw [build, build, h]

theorem build_eq_record_iff {s : Settings} {q : Request} {text : String} :
    s.build q = .record text ↔ ∃ p, q.plan s.macroStyle = .ok p ∧ p.render = text := by
  rw [build]
  cases q.plan s.macroStyle <;> simp [Outcome.ofPlan]

theorem build_eq_rejected_iff {s : Settings} {q : Request} {rejections : List Rejection} :
    s.build q = .rejected rejections ↔ q.plan s.macroStyle = .error rejections := by
  rw [build]
  cases q.plan s.macroStyle <;> simp [Outcome.ofPlan]

end Settings
end SenderPolicy

import Mathlib.Data.List.Forall2
import SenderPolicy.Proofs.Plan

/-! The rejections of a request are its defects: each one is reported once, in the order of
the kinds and of the values, and nothing else is. The defects are described by relations on
the entries, which look at one entry of a kind only. -/
namespace SenderPolicy

/-! Defects -/

inductive ValueDefects (style : MacroStyle) (kind : Kind) :
    List String → List Rejection → Prop
  -- The defects of single values, in their order. No value hides one behind it.
  | nil : ValueDefects style kind [] []
  | accepted {value normal : String} {values : List String} {defects : List Rejection} :
      validate style kind value = .ok normal → ValueDefects style kind values defects →
        ValueDefects style kind (value :: values) defects
  | rejected {value : String} {reason : Reason} {values : List String} {defects : List Rejection} :
      validate style kind value = .error reason → ValueDefects style kind values defects →
        ValueDefects style kind (value :: values) (⟨some kind, reason, some value⟩ :: defects)

namespace Request

def InForce (q : Request) (kind : Kind) (e : Entry) : Prop :=
  ∃ before after, q.entries = before ++ e :: after ∧ e.kind = kind ∧
    ∀ e' ∈ after, e'.kind ≠ kind

inductive KindDefects (style : MacroStyle) (q : Request) (kind : Kind) : List Rejection → Prop
  -- The defects of one kind. The terminal is the only kind that needs no value.
  | absent : (∀ e, ¬ q.InForce kind e) → KindDefects style q kind []
  | disabled {e : Entry} : q.InForce kind e → e.enabled = false → KindDefects style q kind []
  | empty {e : Entry} : q.InForce kind e → e.enabled = true → kind ≠ .all → e.tokens = [] →
      KindDefects style q kind [⟨some kind, .emptyMechanism, none⟩]
  | values {e : Entry} {defects : List Rejection} : q.InForce kind e → e.enabled = true →
      kind = .all ∨ e.tokens ≠ [] → ValueDefects style kind e.tokens defects →
        KindDefects style q kind defects

/-- All defects, kind after kind. The redirect is not among the kinds. -/
def Defects (style : MacroStyle) (q : Request) (defects : List Rejection) : Prop :=
  ∃ parts, List.Forall₂ (q.KindDefects style)
    [.inclusion, .ip4, .ip6, .a, .mx, .existence, .all] parts ∧ defects = parts.flatten

def HasDomain (q : Request) : Prop :=
  ∃ c ∈ q.domain.toList, Text.isBlank c = false

/-! The defects are the rejections -/

theorem valueDefects_iff {style : MacroStyle} {kind : Kind} {values : List String}
    {defects : List Rejection} :
    ValueDefects style kind values defects ↔ defects = rejectionsOf style kind values := by
  constructor
  · intro h
    induction h with
    | nil => rfl
    | accepted hvalue _ ih => rw [ih]; simp [rejectionsOf, rejectedValues, hvalue]
    | rejected hvalue _ ih => rw [ih]; simp [rejectionsOf, rejectedValues, hvalue]
  · rintro rfl
    induction values with
    | nil => exact .nil
    | cons value values ih =>
      cases hvalue : validate style kind value with
      | ok normal => simpa [rejectionsOf, rejectedValues, hvalue] using .accepted hvalue ih
      | error reason => simpa [rejectionsOf, rejectedValues, hvalue] using .rejected hvalue ih

theorem entry?_eq_some_iff {q : Request} {kind : Kind} {e : Entry} :
    q.entry? kind = some e ↔ q.InForce kind e := by
  -- The last entry of a kind is the first one that is found from the end.
  unfold entry?
  rw [List.find?_eq_some_iff_append]
  simp only [decide_eq_true_eq, Bool.not_eq_eq_eq_not, Bool.not_true, decide_eq_false_iff_not]
  constructor
  · intro h
    obtain ⟨hkind, after, before, hentries, hafter⟩ := h
    refine ⟨before.reverse, after.reverse, ?_, hkind, fun e' he' => ?_⟩
    · rw [← List.reverse_reverse q.entries, hentries]
      simp
    · exact hafter e' (List.mem_reverse.mp he')
  · intro h
    obtain ⟨before, after, hentries, hkind, hafter⟩ := h
    refine ⟨hkind, after.reverse, before.reverse, by simp [hentries], fun e' he' => ?_⟩
    exact hafter e' (List.mem_reverse.mp he')

theorem entry?_eq_none_iff {q : Request} {kind : Kind} :
    q.entry? kind = none ↔ ∀ e, ¬ q.InForce kind e := by
  simp only [← entry?_eq_some_iff, Option.eq_none_iff_forall_ne_some]

def kindReport (style : MacroStyle) (q : Request) (kind : Kind) : List Rejection :=
  if kind = .all then rejectionsOf style .all ((q.values? .all).getD [])
  else q.kindRejections style kind

theorem kindReport_of_none {style : MacroStyle} {q : Request} {kind : Kind}
    (h : q.entry? kind = none) : q.kindReport style kind = [] := by
  by_cases hall : kind = .all
  · subst hall
    simp [kindReport, values?, h, rejectionsOf, rejectedValues]
  · simp [kindReport, hall, kindRejections, values?, h]

/-- A kind is reported by its entry in force: not at all if that is disabled, as empty, or value by
value. -/
theorem kindReport_of_inForce {style : MacroStyle} {q : Request} {kind : Kind} {e : Entry}
    (h : q.InForce kind e) : q.kindReport style kind =
      if e.enabled = false then []
      else if kind ≠ .all ∧ e.tokens = [] then [⟨some kind, .emptyMechanism, none⟩]
      else rejectionsOf style kind e.tokens := by
  have hentry := entry?_eq_some_iff.mpr h
  cases henabled : e.enabled with
  | false =>
    have hvalues : q.values? kind = none := by simp [values?, hentry, henabled]
    by_cases hall : kind = .all
    · subst hall
      simp [kindReport, hvalues, rejectionsOf, rejectedValues]
    · simp [kindReport, hall, kindRejections, hvalues]
  | true =>
    have hvalues : q.values? kind = some e.tokens := by simp [values?, hentry, henabled]
    by_cases hall : kind = .all
    · subst hall
      simp [kindReport, hvalues]
    · cases htokens : e.tokens with
      | nil => simp [kindReport, hall, kindRejections, hvalues, htokens]
      | cons token tokens => simp [kindReport, hall, kindRejections, hvalues, htokens]

/-- The defects of a kind are what is reported for it. -/
theorem kindDefects_iff {style : MacroStyle} {q : Request} {kind : Kind}
    {defects : List Rejection} :
    q.KindDefects style kind defects ↔ defects = q.kindReport style kind := by
  constructor
  · intro h
    cases h with
    | absent hnone => exact (kindReport_of_none (entry?_eq_none_iff.mpr hnone)).symm
    | disabled hforce henabled => simp [kindReport_of_inForce hforce, henabled]
    | empty hforce henabled hall htokens =>
      simp [kindReport_of_inForce hforce, henabled, hall, htokens]
    | @values e _ hforce henabled hneed hvalues =>
      have hnot : ¬ (kind ≠ .all ∧ e.tokens = []) := by tauto
      rw [kindReport_of_inForce hforce, if_neg (by simp [henabled]), if_neg hnot]
      exact valueDefects_iff.mp hvalues
  · rintro rfl
    -- The cases of a report are the cases of the definition, in the same order.
    cases hentry : q.entry? kind with
    | none =>
      rw [kindReport_of_none hentry]
      exact .absent (entry?_eq_none_iff.mp hentry)
    | some e =>
      have hforce := entry?_eq_some_iff.mp hentry
      rw [kindReport_of_inForce hforce]
      split_ifs with henabled hempty
      · exact .disabled hforce henabled
      · exact .empty hforce (by simpa using henabled) hempty.1 hempty.2
      · have hneed : kind = .all ∨ e.tokens ≠ [] := by tauto
        exact .values hforce (by simpa using henabled) hneed (valueDefects_iff.mpr rfl)

theorem forall₂_kindDefects_iff {style : MacroStyle} {q : Request} {kinds : List Kind}
    {parts : List (List Rejection)} :
    List.Forall₂ (q.KindDefects style) kinds parts ↔ parts = kinds.map (q.kindReport style) := by
  induction kinds generalizing parts with
  | nil => simp
  | cons kind kinds ih =>
    cases parts with
    | nil => simp
    | cons part parts => simp [ih, kindDefects_iff]

/-- A request has one list of defects, which is the list of rejections. -/
theorem defects_iff {style : MacroStyle} {q : Request} {defects : List Rejection} :
    q.Defects style defects ↔ defects = q.mechanismRejections style := by
  have hreport : q.mechanismRejections style =
      ([.inclusion, .ip4, .ip6, .a, .mx, .existence, .all].map (q.kindReport style)).flatten := by
    simp [mechanismRejections, Kind.buildOrder, kindReport]
  simp only [Defects, forall₂_kindDefects_iff, exists_eq_left, ← hreport]

/-! Refusals -/

theorem ownDomain_eq_empty_iff {q : Request} : q.ownDomain = "" ↔ ¬ q.HasDomain := by
  have hempty : q.ownDomain = "" ↔ Text.trim q.domain.toList = [] := by
    rw [ownDomain, ← String.toList_inj, String.toList_ofList]
    rfl
  rw [hempty, Text.trim_eq_nil_iff]
  simp [HasDomain]

/-- Without a domain nothing else is looked at. -/
theorem plan_of_not_hasDomain {q : Request} (style : MacroStyle) (h : ¬ q.HasDomain) :
    q.plan style = .error [⟨none, .missingDomain, none⟩] := by
  rw [plan, ownDomain_eq_empty_iff.mpr h]
  rfl

/-- A request is never rejected without a reason. -/
theorem ne_nil_of_plan_error {style : MacroStyle} {q : Request} {rejections : List Rejection}
    (h : q.plan style = .error rejections) : rejections ≠ [] := by
  rcases plan_eq_error_iff.mp h with ⟨-, rfl⟩ | ⟨-, -, rejection, -, rfl⟩ | ⟨-, -, -, hne⟩
  · exact List.cons_ne_nil _ _
  · exact List.append_ne_nil_of_right_ne_nil _ (List.cons_ne_nil _ _)
  · exact hne

/-- A request without a redirect is rejected for its defects, if it has any. -/
theorem plan_error_iff {style : MacroStyle} {q : Request} {rejections : List Rejection}
    (hdomain : q.HasDomain) (hred : q.redirectEnabled = false) :
    q.plan style = .error rejections ↔ rejections ≠ [] ∧ q.Defects style rejections := by
  have hown : q.ownDomain ≠ "" := mt ownDomain_eq_empty_iff.mp (not_not.mpr hdomain)
  rw [plan_eq_error_iff, defects_iff]
  simp [hown, hred, and_comm]

/-! What is not looked at -/

def IsIdle (e : Entry) (after : List Entry) : Prop :=
  -- The entry is disabled, it is for the redirect, or a later one of its kind is in force.
  e.enabled = false ∨ e.kind = .redirect ∨ ∃ e' ∈ after, e'.kind = e.kind

/-- Where an entry is, and what is behind it, decides whether it is looked at. -/
theorem values?_of_entries {q : Request} {before after : List Entry} {e : Entry}
    (h : q.entries = before ++ e :: after) (kind : Kind) : q.values? kind =
      (((after.reverse.find? (·.kind = kind)).or (if e.kind = kind then some e else
        before.reverse.find? (·.kind = kind))).filter (·.enabled)).map Entry.tokens := by
  rw [values?, entry?, h, List.reverse_append, List.reverse_cons, List.append_assoc,
    List.find?_append, List.singleton_append, List.find?_cons]
  by_cases hkind : e.kind = kind <;> simp [hkind]

theorem find?_reverse_ne_none {after : List Entry} {kind : Kind}
    (h : ∃ e ∈ after, e.kind = kind) : after.reverse.find? (·.kind = kind) ≠ none := by
  obtain ⟨e, he, hkind⟩ := h
  intro hnone
  exact List.find?_eq_none.mp hnone e (List.mem_reverse.mpr he) (by simp [hkind])

/-- The values of an entry that is not looked at may be anything. -/
theorem plan_replace_idle {style : MacroStyle} {q : Request} {before after : List Entry} {e : Entry}
    (hred : q.redirectEnabled = false) (h : q.entries = before ++ e :: after)
    (hidle : IsIdle e after) (raws : List String) :
    ({ q with entries := before ++ { e with rawValues := raws } :: after } : Request).plan style =
      q.plan style := by
  have hoff : q.redirectEnabled ≠ true := by simp [hred]
  refine plan_congr Iff.rfl rfl rfl rfl (fun kind hkind => ?_) fun hon => absurd hon hoff
  rw [values?_of_entries rfl, values?_of_entries h]
  -- Only a kind that has no later entry looks at this one.
  cases hafter : after.reverse.find? (·.kind = kind) with
  | some e' => rfl
  | none =>
    by_cases he : e.kind = kind
    · rcases hidle with hdisabled | hredirect | hlater
      · simp [he, hdisabled, Option.filter]
      · exact absurd (he.symm.trans hredirect) hkind
      · exact absurd hafter (find?_reverse_ne_none (he ▸ hlater))
    · simp [he]

/-- An entry for the redirect or behind which another one is in force may be left out. -/
theorem plan_remove_idle {style : MacroStyle} {q : Request} {before after : List Entry} {e : Entry}
    (hred : q.redirectEnabled = false) (h : q.entries = before ++ e :: after)
    (hidle : e.kind = .redirect ∨ ∃ e' ∈ after, e'.kind = e.kind) :
    ({ q with entries := before ++ after } : Request).plan style = q.plan style := by
  have hoff : q.redirectEnabled ≠ true := by simp [hred]
  refine plan_congr Iff.rfl rfl rfl rfl (fun kind hkind => ?_) fun hon => absurd hon hoff
  rw [values?_of_entries h, values?, entry?, List.reverse_append, List.find?_append]
  cases hafter : after.reverse.find? (·.kind = kind) with
  | some e' => rfl
  | none =>
    have he : e.kind ≠ kind := by
      intro he
      rcases hidle with hredirect | hlater
      · exact hkind (he.symm.trans hredirect)
      · exact find?_reverse_ne_none (he ▸ hlater) hafter
    rw [if_neg he]

/-! What a defect is about -/

theorem mem_rejectionsOf {style : MacroStyle} {kind : Kind} {values : List String} {d : Rejection} :
    d ∈ rejectionsOf style kind values ↔ ∃ value ∈ values, ∃ reason,
      validate style kind value = .error reason ∧ d = ⟨some kind, reason, some value⟩ := by
  simp only [rejectionsOf, rejectedValues, List.mem_map, List.mem_filterMap]
  constructor
  · intro h'
    obtain ⟨⟨value', reason⟩, ⟨value, hvalue, h⟩, rfl⟩ := h'
    cases hvalid : validate style kind value with
    | ok v => simp [hvalid] at h
    | error reason' =>
      obtain ⟨rfl, rfl⟩ : value = value' ∧ reason' = reason := by simpa [hvalid] using h
      exact ⟨value, hvalue, reason', hvalid, rfl⟩
  · intro h'
    obtain ⟨value, hvalue, reason, hvalid, rfl⟩ := h'
    exact ⟨(value, reason), ⟨value, hvalue, by rw [hvalid]⟩, rfl⟩

theorem kind?_of_mem_kindRejections {style : MacroStyle} {q : Request} {kind : Kind} {d : Rejection}
    (h : d ∈ q.kindRejections style kind) : d.kind? = some kind := by
  unfold kindRejections at h
  split at h
  · cases h
  · rw [List.mem_singleton.mp h]
  · obtain ⟨value, -, reason, -, rfl⟩ := mem_rejectionsOf.mp h
    rfl

/-- The kind `all` is never rejected as empty, only for a value. -/
theorem reason_of_all {style : MacroStyle} {q : Request} {defects : List Rejection}
    (h : q.Defects style defects) {d : Rejection} (hd : d ∈ defects)
    (hkind : d.kind? = some .all) : d.reason = .invalidDomain := by
  rw [defects_iff.mp h, mechanismRejections, List.mem_append, List.mem_flatMap] at hd
  rcases hd with ⟨kind, horder, hd⟩ | hd
  · have hsame := (kind?_of_mem_kindRejections hd).symm.trans hkind
    exact absurd (Option.some.inj hsame) (Kind.ne_all_of_mem horder)
  · obtain ⟨value, -, reason, hreason, rfl⟩ := mem_rejectionsOf.mp hd
    exact (Except.error.inj hreason).symm

end Request

/-! What a rejection quotes -/

/-- Single values are words, as they are taken apart at blanks. -/
theorem Entry.isWord_of_mem_tokens {e : Entry} {value : String} (h : value ∈ e.tokens) :
    Text.IsWord value.toList := by
  simp only [tokens, List.mem_flatMap, List.mem_map] at h
  obtain ⟨raw, -, w, hw, rfl⟩ := h
  rw [String.toList_ofList]
  exact Text.isWord_of_mem_words hw

namespace Request

theorem isWord_of_mem_rejectionsOf {style : MacroStyle} {kind : Kind} {values : List String}
    (hvalues : ∀ value ∈ values, Text.IsWord value.toList) {d : Rejection}
    (h : d ∈ rejectionsOf style kind values) : ∀ value ∈ d.value?, Text.IsWord value.toList := by
  obtain ⟨value, hvalue, reason, -, rfl⟩ := mem_rejectionsOf.mp h
  intro value' hsame
  obtain rfl : value = value' := Option.some.inj hsame
  exact hvalues value hvalue

theorem isWord_of_mem_redirectValues {q : Request} {value : String}
    (h : value ∈ q.redirectValues) : Text.IsWord value.toList := by
  rw [redirectValues] at h
  cases he : q.entry? .redirect with
  | none => simp [he] at h
  | some e =>
    rw [he] at h
    exact Entry.isWord_of_mem_tokens h

theorem isWord_of_mem_values {q : Request} {kind : Kind} {values : List String}
    (h : q.values? kind = some values) : ∀ value ∈ values, Text.IsWord value.toList := by
  obtain ⟨e, -, rfl⟩ := Option.map_eq_some_iff.mp h
  exact fun _ => Entry.isWord_of_mem_tokens

theorem isWord_of_mem_kindRejections {style : MacroStyle} {q : Request} {kind : Kind}
    {d : Rejection} (h : d ∈ q.kindRejections style kind) :
    ∀ value ∈ d.value?, Text.IsWord value.toList := by
  unfold kindRejections at h
  split at h
  · cases h
  · rw [List.mem_singleton.mp h]
    intro value hvalue
    cases hvalue
  next values hvalues => exact isWord_of_mem_rejectionsOf (isWord_of_mem_values hvalues) h

theorem isWord_of_mem_mechanismRejections {style : MacroStyle} {q : Request} {d : Rejection}
    (h : d ∈ q.mechanismRejections style) : ∀ value ∈ d.value?, Text.IsWord value.toList := by
  rw [mechanismRejections, List.mem_append, List.mem_flatMap] at h
  rcases h with ⟨kind, -, h⟩ | h
  · exact isWord_of_mem_kindRejections h
  · refine isWord_of_mem_rejectionsOf ?_ h
    cases hvalues : q.values? .all with
    | none => exact List.forall_mem_nil _
    | some values => exact isWord_of_mem_values hvalues

theorem isWord_of_redirectTarget_error {style : MacroStyle} {q : Request} {d : Rejection}
    (h : q.redirectTarget style = .error d) : ∀ value ∈ d.value?, Text.IsWord value.toList := by
  rw [redirectTarget] at h
  split at h
  · rw [← Except.error.inj h]
    intro value hvalue
    cases hvalue
  next value values hvalues =>
    have hmem : value ∈ q.redirectValues := hvalues ▸ List.mem_cons_self
    split at h
    · cases h
    · rw [← Except.error.inj h]
      intro value' hsame
      obtain rfl : value = value' := Option.some.inj hsame
      exact isWord_of_mem_redirectValues hmem

/-- A rejection quotes a single value, as it stood between blanks. -/
theorem isWord_of_plan_error {style : MacroStyle} {q : Request} {rejections : List Rejection}
    (h : q.plan style = .error rejections) :
    ∀ d ∈ rejections, ∀ value ∈ d.value?, Text.IsWord value.toList := by
  rcases plan_eq_error_iff.mp h with ⟨-, rfl⟩ | ⟨-, -, d, hd, rfl⟩ | ⟨-, -, rfl, -⟩
  · refine List.forall_mem_singleton.mpr fun value hvalue => ?_
    cases hvalue
  · exact List.forall_mem_append.mpr ⟨fun _ => isWord_of_mem_mechanismRejections,
      List.forall_mem_singleton.mpr (isWord_of_redirectTarget_error hd)⟩
  · exact fun _ => isWord_of_mem_mechanismRejections

end Request

/-- A request is refused for its defects and for nothing else, and a blank domain is the
only one that is not looked at together with the others. -/
theorem plan_reports_defects (style : MacroStyle) (q : Request) :
    (¬ q.HasDomain → q.plan style = .error [⟨none, .missingDomain, none⟩]) ∧
      (∀ rejections, q.plan style = .error rejections → rejections ≠ []) ∧
      (q.HasDomain → q.redirectEnabled = false →
        (∃! defects, q.Defects style defects) ∧
          (∀ rejections, q.plan style = .error rejections ↔
            rejections ≠ [] ∧ q.Defects style rejections) ∧
          (∀ defects, q.Defects style defects → ∀ d ∈ defects, d.kind? = some .all →
            d.reason = .invalidDomain) ∧
          ∀ before e after, q.entries = before ++ e :: after →
            (Request.IsIdle e after → ∀ raws,
              ({ q with entries := before ++ { e with rawValues := raws } :: after } :
                Request).plan style = q.plan style) ∧
            (e.kind = .redirect ∨ (∃ e' ∈ after, e'.kind = e.kind) →
              ({ q with entries := before ++ after } : Request).plan style = q.plan style)) := by
  refine ⟨Request.plan_of_not_hasDomain style, fun _ => Request.ne_nil_of_plan_error, ?_⟩
  intro hdomain hred
  refine ⟨?_, fun _ => Request.plan_error_iff hdomain hred,
    fun _ h _ => Request.reason_of_all h, fun before e after h => ⟨fun hidle => ?_, ?_⟩⟩
  · simp [Request.defects_iff]
  · exact Request.plan_replace_idle hred h hidle
  · exact Request.plan_remove_idle hred h

/-- A repeated bad value, an empty entry, values for the terminal, and three idle entries. -/
theorem plan_reports_defects_mixed :
    let q : Request := ⟨"example.com", [.of .ip4 ["bad"], .of .inclusion [" "],
      .of .ip4 ["1.2.3 192.0.2.1", "1.2.3"], ⟨.mx, false, ["bad"]⟩, .of .redirect ["bad"],
      .of .all ["-all"]], false, .softFail⟩
    let defects : List Rejection := [⟨some .inclusion, .emptyMechanism, none⟩,
      ⟨some .ip4, .invalidIpv4, some "1.2.3"⟩, ⟨some .ip4, .invalidIpv4, some "1.2.3"⟩,
      ⟨some .all, .invalidDomain, some "-all"⟩]
    q.HasDomain ∧ q.redirectEnabled = false ∧ q.plan .compact = .error defects ∧
      q.Defects .compact defects := by
  intro q defects
  have hdomain : q.HasDomain := ⟨'e', by decide +kernel, by decide⟩
  have hplan : q.plan .compact = .error defects := by decide +kernel
  obtain ⟨-, hreports, -⟩ := (plan_reports_defects .compact q).2.2 hdomain rfl
  exact ⟨hdomain, rfl, hplan, ((hreports defects).mp hplan).2⟩

end SenderPolicy

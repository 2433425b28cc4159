import SenderPolicy.Proofs.Distinct
import SenderPolicy.Proofs.Loading
import SenderPolicy.Proofs.PlanText

/-! A record that was built is loaded as a request which is built like the first one, in
either style. A value goes through validation, its mechanism, the record's text and a new
value, and at the end it stands for the same mechanism. -/
namespace SenderPolicy

namespace Kind

theorem nodup_buildOrder : buildOrder.Nodup := by decide

/-- Values that are valid in one style are valid in the other. -/
theorem isSome_mechanismOf?_style (style style' : MacroStyle) (own raw : String) (kind : Kind) :
    (kind.mechanismOf? style own raw).isSome = (kind.mechanismOf? style' own raw).isSome := by
  cases h : validate style kind raw with
  | error reason =>
    have h' : validate style' kind raw = .error reason := validate_error_iff.mp h
    rw [mechanismOf?, mechanismOf?, h, h']
  | ok v =>
    obtain ⟨v', h'⟩ := exists_validate_eq_ok style' h
    rw [mechanismOf?, mechanismOf?, h, h']
    cases kind <;> rfl

end Kind

/-- A domain that a value is a spelling of is one word, and is validated like the value. -/
theorem validate_of_targetBeside_eq_none {style : MacroStyle} {own domain raw v : String}
    {kind : Kind} (hkind : kind = .a ∨ kind = .mx) (hown : own.toList = Text.trim domain.toList)
    (hv : validate style kind raw = .ok v) (hsame : targetBeside own v = none) :
    Text.words domain.toList = [own.toList] ∧ ∀ style',
      validate style' kind own = validate style' kind raw ∧
        validate style' kind domain = validate style' kind raw := by
  have hcheck : ∀ style' s, Validation.check style' kind s = Validation.hostName s := by
    intro style' s
    rcases hkind with rfl | rfl <;> rfl
  have hname := validate_eq_ok_iff.mp hv
  rw [hcheck] at hname
  obtain ⟨hfull, hnormal⟩ := Validation.hostName_eq_ok_iff.mp hname
  have hvFull : HostName.isFull v.toList = true := hnormal ▸ HostName.isFull_canonical hfull
  -- Domain and value have one normal form, which is the value.
  have hnames : v.toList = HostName.canonical own.toList := by
    have hsames := targetBeside_eq_none_iff.mp hsame
    rw [HostName.same, beq_iff_eq, hnormal, HostName.canonical_canonical hfull] at hsames
    rw [hnormal, hsames]
  have hagain : HostName.canonical own.toList = HostName.canonical v.toList := by
    rw [← hnames, hnormal, HostName.canonical_canonical hfull]
  have hownFull := HostName.isFull_of_canonical_eq hvFull hagain
  have hword := HostName.isWord_of_isLabelList (HostName.isLabelList_of_isFull hownFull)
  have hownName := Validation.hostName_eq_ok_iff.mpr ⟨hownFull, hnames⟩
  refine ⟨?_, fun style' => ⟨?_, ?_⟩⟩
  · rw [hown] at hword ⊢
    exact Text.words_of_isWord_trim hword
  · rw [validate, validate, hcheck, hcheck, hword.trim_eq, hownName, hname]
  · rw [validate, validate, hcheck, hcheck, ← hown, hownName, hname]

/-- The mechanism of a value is loaded as one word, which is validated like the value. -/
theorem Kind.exists_word_of_mechanism? {style : MacroStyle} (style' : MacroStyle)
    {own domain raw v : String} {kind : Kind} {m : Mechanism}
    (hown : own.toList = Text.trim domain.toList)
    (hv : validate style kind raw = .ok v) (hm : kind.mechanism? own v = some m) :
    ∃ text w : String, m.value? domain = some (kind, text) ∧ Text.words text.toList = [w.toList] ∧
      validate style' kind w = validate style' kind raw := by
  have hwords := (isWord_of_validate hv).words_eq
  have hsaid := validate_normal style' hv
  cases kind with
  | inclusion | ip4 | ip6 | existence =>
    obtain rfl := Option.some.inj hm
    exact ⟨v, v, rfl, hwords, hsaid⟩
  | a | mx =>
    obtain rfl := Option.some.inj hm
    cases htarget : targetBeside own v with
    | some target =>
      obtain rfl := eq_of_targetBeside_eq_some htarget
      exact ⟨target, target, rfl, hwords, hsaid⟩
    | none =>
      -- The domain is left unsaid in the record and loaded as it stands in the request.
      obtain ⟨hone, hsame⟩ := validate_of_targetBeside_eq_none (by simp) hown hv htarget
      exact ⟨domain, own, rfl, hone, (hsame style').1⟩
  | redirect | all => cases hm

/-- Where only one member gives anything, nothing else counts. -/
theorem flatMap_eq_of_nodup {α β : Type} {f : α → List β} {xs : List α} {x : α}
    (hx : x ∈ xs) (hnodup : xs.Nodup) (h : ∀ y ∈ xs, y ≠ x → f y = []) : xs.flatMap f = f x := by
  induction xs with
  | nil => cases hx
  | cons y ys ih =>
    obtain ⟨hy, hys⟩ := List.nodup_cons.mp hnodup
    rw [List.flatMap_cons]
    by_cases hyx : y = x
    · have hnil : ys.flatMap f = [] := List.flatMap_eq_nil_iff.mpr fun z hz =>
        h z (List.mem_cons_of_mem y hz) fun hzx => hy (hyx ▸ hzx ▸ hz)
      rw [hnil, List.append_nil, hyx]
    · have hmem : x ∈ ys := (List.mem_cons.mp hx).resolve_left fun he => hyx he.symm
      rw [h y List.mem_cons_self hyx, List.nil_append]
      exact ih hmem hys fun z hz => h z (List.mem_cons_of_mem y hz)

theorem wordsOf_filterMap (kind : Kind) (domain : String) (list : List Mechanism) :
    wordsOf kind (list.filterMap (Mechanism.value? domain)) =
      list.flatMap fun m => wordsOf kind (m.value? domain).toList := by
  induction list with
  | nil => rfl
  | cons m list ih =>
    rw [List.flatMap_cons, ← ih, List.filterMap_cons]
    cases m.value? domain with
    | none => rfl
    | some v => exact wordsOf_append kind [v] _

namespace Request

theorem toList_ownDomain (q : Request) : q.ownDomain.toList = Text.trim q.domain.toList :=
  String.toList_ofList

/-- A mechanism is loaded as one word, which validates like the value that it came from. -/
theorem exists_value?_of_mechanismOf? {style : MacroStyle} (style' : MacroStyle) {q : Request}
    {kind : Kind} {raw : String} {m : Mechanism}
    (h : kind.mechanismOf? style q.ownDomain raw = some m) :
    ∃ text w, m.value? q.domain = some (kind, text) ∧ wordsOf kind [(kind, text)] = [w] ∧
      validate style' kind w = validate style' kind raw := by
  obtain ⟨v, hv, hm⟩ := Kind.mechanismOf?_eq_some_iff.mp h
  obtain ⟨text, w, hvalue, hwords, hsaid⟩ :=
    Kind.exists_word_of_mechanism? style' q.toList_ownDomain hv hm
  exact ⟨text, w, hvalue, by simp [wordsOf, hwords], hsaid⟩

theorem wordsOf_mechanisms (style : MacroStyle) (q : Request) {kind : Kind}
    (hkind : kind ∈ Kind.buildOrder) :
    wordsOf kind ((q.mechanisms style).filterMap (Mechanism.value? q.domain)) =
      (q.kindMechanisms style kind).flatMap fun m => wordsOf kind (m.value? q.domain).toList := by
  rw [wordsOf_filterMap, mechanisms, List.flatMap_assoc]
  apply flatMap_eq_of_nodup hkind Kind.nodup_buildOrder
  -- Mechanisms of another kind are loaded as values of that kind.
  intro kind' _ hne
  apply List.flatMap_eq_nil_iff.mpr
  intro m hm
  obtain ⟨raw, -, hraw⟩ := mem_kindMechanisms_iff.mp hm
  obtain ⟨text, -, hvalue, -⟩ := exists_value?_of_mechanismOf? style hraw
  rw [hvalue]
  exact wordsOf_of_ne hne text

/-- Mechanisms that are loaded and built again, in any style, are those of the raw values. -/
theorem filterMap_mechanismOf?_wordsOf (style style' : MacroStyle) (q : Request) (kind : Kind)
    (raws : List String) :
    ((raws.filterMap (kind.mechanismOf? style q.ownDomain)).flatMap fun m =>
        (wordsOf kind (m.value? q.domain).toList).filterMap
          (kind.mechanismOf? style' q.ownDomain)) =
      raws.filterMap (kind.mechanismOf? style' q.ownDomain) := by
  induction raws with
  | nil => rfl
  | cons raw raws ih =>
    -- A value that is accepted in one style is accepted in the other.
    have hsome := Kind.isSome_mechanismOf?_style style style' q.ownDomain raw kind
    cases h : kind.mechanismOf? style q.ownDomain raw with
    | none =>
      rw [h] at hsome
      have h' : kind.mechanismOf? style' q.ownDomain raw = none := by simpa using hsome.symm
      rw [List.filterMap_cons_none h, List.filterMap_cons_none h', ih]
    | some m =>
      obtain ⟨text, w, hvalue, hw, hsaid⟩ := exists_value?_of_mechanismOf? style' h
      have hsame : kind.mechanismOf? style' q.ownDomain w =
          kind.mechanismOf? style' q.ownDomain raw := by
        rw [Kind.mechanismOf?, Kind.mechanismOf?, hsaid]
      rw [List.filterMap_cons_some h, List.flatMap_cons, ih, hvalue, Option.toList_some, hw]
      simp only [List.filterMap_cons, List.filterMap_nil, hsame]
      cases kind.mechanismOf? style' q.ownDomain raw <;> rfl

end Request

namespace Plan

theorem values_record (list : List Mechanism) (terminal : Qualifier) (domain : String) :
    (mechanisms list terminal).record.values domain =
      list.filterMap (Mechanism.value? domain) := by
  have hall : (⟨terminal, .all⟩ : Directive).value? domain = none := by
    simp only [Directive.value?, Mechanism.value?, ite_self]
  rw [Record.values, record, List.filterMap_append, List.filterMap_map,
    List.filterMap_cons_none hall, List.filterMap_nil, List.append_nil]
  simp [Directive.value?, Function.comp_def]

theorem terminal?_record {list : List Mechanism} (h : Mechanism.all ∉ list)
    (terminal : Qualifier) : (mechanisms list terminal).record.terminal? = some terminal := by
  have hnone : (list.map (⟨.pass, ·⟩ : Mechanism → Directive)).find? (·.mechanism = .all) = none := by
    refine List.find?_eq_none.mpr fun d hd => ?_
    obtain ⟨m, hm, rfl⟩ := List.mem_map.mp hd
    simpa using fun hall : m = .all => h (hall ▸ hm)
  rw [Record.terminal?, record, List.find?_append, hnone]
  simp

end Plan

namespace Request

/-- Every mechanism that is built can be loaded. -/
theorem exists_value?_of_mem_mechanisms {style : MacroStyle} {q : Request} {m : Mechanism}
    (h : m ∈ q.mechanisms style) : ∃ v, m.value? q.domain = some v := by
  obtain ⟨kind, -, raw, -, v, hv, hm⟩ := mem_mechanisms.mp h
  obtain ⟨text, -, hvalue, -⟩ := Kind.exists_word_of_mechanism? style q.toList_ownDomain hv hm
  exact ⟨(kind, text), hvalue⟩

theorem all_notMem_mechanisms {style : MacroStyle} {q : Request} :
    Mechanism.all ∉ q.mechanisms style := by
  intro h
  obtain ⟨v, hv⟩ := exists_value?_of_mem_mechanisms h
  cases hv

/-- Loading the record of a plan warns of nothing. -/
theorem skipEvents_record {style : MacroStyle} {q : Request} {p : Plan}
    (h : q.plan style = .ok p) : p.record.skipEvents q.domain = [] := by
  obtain ⟨-, -, ⟨-, target, -, rfl⟩ | ⟨-, rfl⟩⟩ := plan_eq_ok_iff.mp h
  · rfl
  · apply Record.skipEvents_eq_nil_iff.mpr
    intro d hd
    rcases List.mem_append.mp hd with hd | hd
    · obtain ⟨m, hm, rfl⟩ := List.mem_map.mp hd
      obtain ⟨v, hv⟩ := exists_value?_of_mem_mechanisms hm
      exact .inr ⟨v, Directive.value?_eq_some_iff.mpr ⟨rfl, hv⟩⟩
    · exact .inl (by rw [List.mem_singleton.mp hd])

/-- The record of a redirect has no values, and its target is the only word of it. -/
theorem plan_reload_redirect {style : MacroStyle} (style' : MacroStyle) {domain raw target : String}
    (hdomain : String.ofList (Text.trim domain.toList) ≠ "")
    (htarget : validate style .redirect raw = .ok target) :
    ((Plan.redirect target).record.toRequest domain).plan style' = .ok (.redirect target) := by
  have hrejections : ((Plan.redirect target).record.toRequest domain).mechanismRejections style' =
      [] := Record.mechanismRejections_toRequest_eq_nil_iff.mpr fun v hv => by cases hv
  have hword := (isWord_of_validate htarget).words_eq
  refine plan_eq_ok_iff.mpr ⟨by simpa using hdomain, hrejections,
    .inl ⟨rfl, target, redirectTarget_eq_ok_iff.mpr ⟨target, ?_, ?_⟩, rfl⟩⟩
  · have hred : (Plan.redirect target).record.redirect? = some target := rfl
    rw [Record.redirectValues_toRequest hred, hword]
    simp
  · exact (validate_normal style' htarget).trans htarget

/-- A loaded plan has no bad values. -/
theorem mechanismRejections_reload {style : MacroStyle} (style' : MacroStyle) {q : Request}
    {terminal : Qualifier} :
    ((Plan.mechanisms (q.mechanisms style) terminal).record.toRequest
      q.domain).mechanismRejections style' = [] := by
  apply Record.mechanismRejections_toRequest_eq_nil_iff.mpr
  intro v hv
  have hkind := Record.kind_mem_of_mem_values hv
  rw [Plan.values_record] at hv ⊢
  rw [wordsOf_mechanisms style q hkind]
  constructor
  · -- A value comes from a mechanism, which is loaded as one word and not as none.
    obtain ⟨m, hm, hmv⟩ := List.mem_filterMap.mp hv
    obtain ⟨kind, -, hm'⟩ := List.mem_flatMap.mp hm
    obtain ⟨raw, -, hraw⟩ := mem_kindMechanisms_iff.mp hm'
    obtain ⟨text, w, hvalue, hw, -⟩ := exists_value?_of_mechanismOf? style' hraw
    obtain rfl : v = (kind, text) := Option.some.inj (hmv.symm.trans hvalue)
    intro hnil
    have hempty := List.flatMap_eq_nil_iff.mp hnil m hm'
    rw [hvalue, Option.toList_some, hw] at hempty
    cases hempty
  · intro w hw
    -- Each word is validated like the raw value that its mechanism comes from.
    obtain ⟨m, hm, hwm⟩ := List.mem_flatMap.mp hw
    obtain ⟨raw, -, hraw⟩ := mem_kindMechanisms_iff.mp hm
    obtain ⟨text, w', hvalue, hw', hsaid⟩ := exists_value?_of_mechanismOf? style' hraw
    rw [hvalue, Option.toList_some, hw', List.mem_singleton] at hwm
    obtain ⟨n, hn, -⟩ := Kind.mechanismOf?_eq_some_iff.mp hraw
    rw [hwm, hsaid]
    exact exists_validate_eq_ok style' hn

/-- A loaded plan gives the mechanisms that the first request gives. -/
theorem mechanisms_reload {style : MacroStyle} (style' : MacroStyle) {q : Request}
    {terminal : Qualifier} :
    ((Plan.mechanisms (q.mechanisms style) terminal).record.toRequest q.domain).mechanisms style' =
      q.mechanisms style' := by
  apply List.flatMap_congr
  intro kind hkind
  have hwords : (((Plan.mechanisms (q.mechanisms style) terminal).record.toRequest
      q.domain).values? kind).getD [] =
        (q.kindMechanisms style kind).flatMap fun m => wordsOf kind (m.value? q.domain).toList := by
    rw [Record.getD_values?_toRequest _ _ (Kind.ne_redirect_of_mem hkind), Plan.values_record,
      wordsOf_mechanisms style q hkind]
  have hraws := filterMap_mechanismOf?_wordsOf style style' q kind ((q.values? kind).getD [])
  calc
    _ = distinct (((q.kindMechanisms style kind).flatMap fun m =>
          wordsOf kind (m.value? q.domain).toList).filterMap
            (kind.mechanismOf? style' q.ownDomain)) := by
      rw [kindMechanisms_eq, hwords, Record.ownDomain_toRequest, ownDomain]
    -- The first build has removed repetitions already, which is no loss.
    _ = distinct ((distinct (((q.values? kind).getD []).filterMap
          (kind.mechanismOf? style q.ownDomain))).flatMap fun m =>
            (wordsOf kind (m.value? q.domain).toList).filterMap
              (kind.mechanismOf? style' q.ownDomain)) := by
      rw [List.filterMap_flatMap, kindMechanisms_eq]
    _ = distinct (((q.values? kind).getD []).filterMap
          (kind.mechanismOf? style' q.ownDomain)) := by
      rw [distinct_flatMap_distinct, hraws]
    _ = q.kindMechanisms style' kind := (kindMechanisms_eq style' q kind).symm

/-- In either style, the loaded request is planned like the first one. -/
theorem plan_reload {style : MacroStyle} (style' : MacroStyle) {q : Request} {p : Plan}
    (h : q.plan style = .ok p) : ∃ p', q.plan style' = .ok p' ∧
      (p.record.toRequest q.domain).plan style' = .ok p' := by
  obtain ⟨hdomain, hrejections, hcase⟩ := plan_eq_ok_iff.mp h
  have hrejections' : q.mechanismRejections style' = [] :=
    (mechanismRejections_style style' style q).trans hrejections
  rcases hcase with ⟨hred, target, htarget, rfl⟩ | ⟨hred, rfl⟩
  · obtain ⟨raw, -, hraw⟩ := redirectTarget_eq_ok_iff.mp htarget
    refine ⟨.redirect target, plan_eq_ok_iff.mpr ⟨hdomain, hrejections', .inl ?_⟩,
      plan_reload_redirect style' hdomain hraw⟩
    exact ⟨hred, target, htarget, rfl⟩
  · refine ⟨.mechanisms (q.mechanisms style') q.qualifier,
      plan_eq_ok_iff.mpr ⟨hdomain, hrejections', .inr ⟨hred, rfl⟩⟩, ?_⟩
    refine plan_eq_ok_iff.mpr ⟨?_, mechanismRejections_reload style', .inr ⟨?_, ?_⟩⟩
    · rwa [Record.ownDomain_toRequest]
    · exact Record.redirectEnabled_toRequest _ _
    · rw [mechanisms_reload, Record.qualifier_toRequest,
        Plan.terminal?_record all_notMem_mechanisms, Option.getD_some]

end Request

/-- What is built is read, loaded without a warning, and built again from what was loaded
into what the first request gives, with any two settings. What is rejected is rejected
for the same reasons. -/
theorem build_reload (s s' : Settings) (q : Request) :
    (∀ text, s.build q = .record text → ∃ r, Record.ofText text = .ok r ∧
      r.skipEvents q.domain = [] ∧ ∃ text', s'.build q = .record text' ∧
        s'.build (r.toRequest q.domain) = .record text') ∧
      ∀ rejections, s.build q = .rejected rejections → s'.build q = .rejected rejections := by
  constructor
  · intro text h
    obtain ⟨p, hplan, rfl⟩ := Settings.build_eq_record_iff.mp h
    obtain ⟨p', hplan', hreload⟩ := Request.plan_reload s'.macroStyle hplan
    refine ⟨p.record, Request.ofText_render hplan, Request.skipEvents_record hplan, p'.render, ?_⟩
    exact ⟨Settings.build_eq_record_iff.mpr ⟨p', hplan', rfl⟩,
      Settings.build_eq_record_iff.mpr ⟨p', hreload, rfl⟩⟩
  · intro rejections h
    apply Settings.build_eq_rejected_iff.mpr
    exact Request.plan_error_style s'.macroStyle (Settings.build_eq_rejected_iff.mp h)

/-- A domain with blanks, capitals and a final dot, and macros in both spellings. -/
theorem build_reload_spellings :
    let compact : Settings := ⟨.softFail, .compact, 10, "warn"⟩
    let braced : Settings := ⟨.softFail, .braced, 10, "warn"⟩
    let q : Request := ⟨" Example.COM. ", [.of .existence ["%\x7bi\x7d.%\x7bd1R=\x7d"],
      .of .a ["EXAMPLE.com mail.example.com", "example.com"]], false, .fail⟩
    let text := "v=spf1 a a:mail.example.com exists:%i.%\x7bd1R=\x7d -all"
    compact.build q = .record text ∧ ∃ r, Record.ofText text = .ok r ∧
      r.skipEvents q.domain = [] ∧ ∃ text', braced.build q = .record text' ∧
        braced.build (r.toRequest q.domain) = .record text' := by
  intro compact braced q text
  have h : compact.build q = .record text := by decide +kernel
  exact ⟨h, (build_reload compact braced q).1 text h⟩

end SenderPolicy

import SenderPolicy.Proofs.Content

/-! The switch to a redirect. The record or the rejections with the switch on follow from the
rejections with the switch off and from the first value for the redirect, so the switch hides
no rejection and lets no mechanism through. -/
namespace SenderPolicy

namespace Request

theorem redirectTarget_of_no_target (style : MacroStyle) {q : Request}
    (h : ∀ value, ¬ q.Target value) :
    q.redirectTarget style = .error ⟨some .redirect, .missingRedirect, none⟩ := by
  have hnil : q.redirectValues = [] := by
    rw [← List.head?_eq_none_iff, Option.eq_none_iff_forall_ne_some]
    exact fun value hvalue => h value (target_iff.mpr hvalue)
  rw [redirectTarget, hnil]

/-- The first value is one word, so it is validated as it is. -/
theorem isWord_of_target {q : Request} {value : String} (h : q.Target value) :
    Text.IsWord value.toList := by
  obtain ⟨e, -, hhead⟩ := h
  exact Entry.isWord_of_mem_tokens (List.mem_of_head? hhead)

/-- The target has to be a full host name, and it is written in canonical form. -/
theorem redirectTarget_of_target (style : MacroStyle) {q : Request} {value : String}
    (h : q.Target value) : q.redirectTarget style =
      if HostName.isFull value.toList then .ok (String.ofList (HostName.canonical value.toList))
      else .error ⟨some .redirect, .invalidDomain, some value⟩ := by
  obtain ⟨values, hvalues⟩ := List.head?_eq_some_iff.mp (target_iff.mp h)
  rw [redirectTarget, hvalues]
  dsimp only
  rw [validate, (isWord_of_target h).trim_eq, Validation.check, Validation.hostName]
  by_cases hfull : HostName.isFull value.toList = true
  · simp [hfull, Except.map]
  · simp [hfull, Except.map]

/-! The two builds -/

/-- With the switch off the rejections are those of the mechanisms. -/
theorem rejections_build_off (s : Settings) {q : Request} (hdomain : q.HasDomain) :
    (s.build { q with redirectEnabled := false }).rejections =
      q.mechanismRejections s.macroStyle := by
  have hoff : ({ q with redirectEnabled := false } : Request).HasDomain := hdomain
  have hsame : ({ q with redirectEnabled := false } : Request).mechanismRejections s.macroStyle =
      q.mechanismRejections s.macroStyle := rfl
  cases h : s.build { q with redirectEnabled := false } with
  | record text =>
    obtain ⟨p, hplan, -⟩ := Settings.build_eq_record_iff.mp h
    exact (plan_eq_ok_iff.mp hplan).2.1.symm
  | rejected rejections =>
    have hplan := (plan_error_iff hoff rfl).mp (Settings.build_eq_rejected_iff.mp h)
    exact (defects_iff.mp hplan.2).trans hsame

/-- A bad target adds its rejection behind those of the mechanisms. -/
theorem build_on_of_target_error (s : Settings) {q : Request} (hdomain : q.HasDomain)
    {rejection : Rejection} (h : q.redirectTarget s.macroStyle = .error rejection) :
    s.build { q with redirectEnabled := true } =
      .rejected (q.mechanismRejections s.macroStyle ++ [rejection]) := by
  have hown : q.ownDomain ≠ "" := mt ownDomain_eq_empty_iff.mp (not_not.mpr hdomain)
  apply Settings.build_eq_rejected_iff.mpr
  exact plan_eq_error_iff.mpr (.inr (.inl ⟨hown, rfl, rejection, h, rfl⟩))

/-- A good target is the whole record, unless a mechanism is rejected. -/
theorem build_on_of_target_ok (s : Settings) {q : Request} (hdomain : q.HasDomain)
    {target : String} (h : q.redirectTarget s.macroStyle = .ok target) :
    s.build { q with redirectEnabled := true } =
      if q.mechanismRejections s.macroStyle = [] then .record ("v=spf1 redirect=" ++ target)
      else .rejected (q.mechanismRejections s.macroStyle) := by
  have hown : q.ownDomain ≠ "" := mt ownDomain_eq_empty_iff.mp (not_not.mpr hdomain)
  split
  next hnone =>
    apply Settings.build_eq_record_iff.mpr
    refine ⟨.redirect target, plan_eq_ok_iff.mpr ⟨hown, hnone, .inl ⟨rfl, target, h, rfl⟩⟩, ?_⟩
    apply String.toList_inj.mp
    simp [Plan.render, Plan.terms, versionTag]
  next hsome =>
    apply Settings.build_eq_rejected_iff.mpr
    exact plan_eq_error_iff.mpr (.inr (.inr ⟨hown, fun _ => ⟨target, h⟩, rfl, hsome⟩))

/-- Values behind the first one of a redirect's entry may be anything. -/
theorem plan_replace_extra_targets (style : MacroStyle) {q : Request} {before after : List Entry}
    {e : Entry} {raws : List String} (h : q.entries = before ++ e :: after)
    (hkind : e.kind = .redirect)
    (hfirst : ({ e with rawValues := raws } : Entry).tokens.head? = e.tokens.head?) :
    ({ q with entries := before ++ { e with rawValues := raws } :: after } : Request).plan style =
      q.plan style := by
  refine plan_congr Iff.rfl rfl rfl rfl (fun kind hne => ?_) fun _ => redirectTarget_congr ?_ style
  · have hother : e.kind ≠ kind := fun hsame => hne (hsame.symm.trans hkind)
    rw [values?_eq, values?_eq, h, contentsOf_append, contentsOf_append, contentsOf_cons,
      contentsOf_cons, if_neg hother, if_neg hother]
  · rw [redirectValues_eq, redirectValues_eq, h, contentsOf_append, contentsOf_append,
      contentsOf_cons, contentsOf_cons, if_pos hkind, if_pos hkind]
    -- Behind the entry another one may be in force, which is the same in both requests.
    cases hafter : (contentsOf .redirect after).getLast? with
    | none => simpa [List.getLast?_cons, hafter] using hfirst
    | some last => simp [List.getLast?_cons, hafter]

end Request

/-- Redirect mode over the plain build of the same request. The first value for the redirect
decides: without one, or with one that is no full host name, there is one rejection more at
the end; with a good one the record is the redirect alone, unless the plain build has
rejections, which stay. -/
theorem redirect_overlays_build (s : Settings) (q : Request) (hdomain : q.HasDomain) :
    let errors := (s.build { q with redirectEnabled := false }).rejections
    let outcome := s.build { q with redirectEnabled := true }
    ((∀ value, ¬ q.Target value) →
        outcome = .rejected (errors ++ [⟨some .redirect, .missingRedirect, none⟩])) ∧
      (∀ value, q.Target value →
        (HostName.isFull value.toList = false →
          outcome = .rejected (errors ++ [⟨some .redirect, .invalidDomain, some value⟩])) ∧
        (HostName.isFull value.toList = true → errors ≠ [] → outcome = .rejected errors) ∧
        (HostName.isFull value.toList = true → errors = [] → outcome =
          .record ("v=spf1 redirect=" ++ String.ofList (HostName.canonical value.toList)))) ∧
      ∀ before e after raws, q.entries = before ++ e :: after → e.kind = .redirect →
        ({ e with rawValues := raws } : Entry).tokens.head? = e.tokens.head? →
          s.build { q with
            entries := before ++ { e with rawValues := raws } :: after
            redirectEnabled := true } = outcome := by
  intro errors outcome
  -- Both builds have the rejections of the mechanisms in common.
  have herrors : errors = q.mechanismRejections s.macroStyle :=
    Request.rejections_build_off s hdomain
  refine ⟨fun hnone => ?_, fun value hvalue => ⟨fun hbad => ?_, fun hgood hsome => ?_,
    fun hgood hnone => ?_⟩, fun before e after raws h hkind hfirst => ?_⟩
  · rw [herrors]
    exact Request.build_on_of_target_error s hdomain (Request.redirectTarget_of_no_target _ hnone)
  · have htarget := Request.redirectTarget_of_target s.macroStyle hvalue
    rw [hbad] at htarget
    rw [herrors]
    exact Request.build_on_of_target_error s hdomain htarget
  · have htarget := Request.redirectTarget_of_target s.macroStyle hvalue
    rw [if_pos hgood] at htarget
    rw [herrors] at hsome ⊢
    exact (Request.build_on_of_target_ok s hdomain htarget).trans (if_neg hsome)
  · have htarget := Request.redirectTarget_of_target s.macroStyle hvalue
    rw [if_pos hgood] at htarget
    rw [herrors] at hnone
    exact (Request.build_on_of_target_ok s hdomain htarget).trans (if_pos hnone)
  · have hon : ({ q with redirectEnabled := true } : Request).entries = before ++ e :: after := h
    have hplan := Request.plan_replace_extra_targets s.macroStyle hon hkind hfirst
    exact Settings.build_congr hplan

/-- A disabled entry gives the target, whatever comes behind its first value. The values for
`ip4` are left out if they are good, and rejected otherwise. -/
theorem redirect_overlays_build_disabled_entry :
    let target : Entry := ⟨.redirect, false, ["_spf.Example.NET. not..valid"]⟩
    let request (ip4 : String) (es : List Entry) : Request :=
      ⟨" example.com", .of .ip4 [ip4] :: es, true, .fail⟩
    let build (q : Request) := (default : Settings).build q
    build (request "192.0.2.1" [target]) = .record "v=spf1 redirect=_spf.example.net" ∧
      build (request "192.0.2.1" [{ target with rawValues := ["_spf.Example.NET."] }]) =
        build (request "192.0.2.1" [target]) ∧
      build (request "192.0.2" [target]) = .rejected [⟨some .ip4, .invalidIpv4, some "192.0.2"⟩] ∧
      build (request "192.0.2" []) = .rejected [⟨some .ip4, .invalidIpv4, some "192.0.2"⟩,
        ⟨some .redirect, .missingRedirect, none⟩] ∧
      build (request "192.0.2" [.of .redirect ["net"]]) =
        .rejected [⟨some .ip4, .invalidIpv4, some "192.0.2"⟩,
          ⟨some .redirect, .invalidDomain, some "net"⟩] := by
  intro target request build
  have hdomain : ∀ ip4 es, (request ip4 es).HasDomain := fun _ _ =>
    ⟨'e', (by decide +kernel : 'e' ∈ " example.com".toList), by decide⟩
  have htarget : ∀ ip4, (request ip4 [target]).Target "_spf.Example.NET." := fun ip4 =>
    ⟨target, ⟨[.of .ip4 [ip4]], [], rfl, rfl, List.forall_mem_nil _⟩, by decide +kernel⟩
  have hbad : (request "192.0.2" [.of .redirect ["net"]]).Target "net" :=
    ⟨.of .redirect ["net"], ⟨[.of .ip4 ["192.0.2"]], [], rfl, rfl, List.forall_mem_nil _⟩,
      by decide +kernel⟩
  have hnone : ∀ value, ¬ (request "192.0.2" []).Target value := by
    intro value h
    have hnil : (request "192.0.2" []).redirectValues = [] := by decide +kernel
    have hhead := Request.target_iff.mp h
    rw [hnil] at hhead
    cases hhead
  obtain ⟨-, hgood, hextra⟩ := redirect_overlays_build default _ (hdomain "192.0.2.1" [target])
  obtain ⟨-, hmixed, -⟩ := redirect_overlays_build default _ (hdomain "192.0.2" [target])
  obtain ⟨hmissing, -, -⟩ := redirect_overlays_build default _ (hdomain "192.0.2" [])
  obtain ⟨-, hinvalid, -⟩ :=
    redirect_overlays_build default _ (hdomain "192.0.2" [.of .redirect ["net"]])
  refine ⟨((hgood _ (htarget _)).2.2 (by decide +kernel) (by decide +kernel)).trans
      (by decide +kernel),
    hextra [.of .ip4 ["192.0.2.1"]] target [] ["_spf.Example.NET."] rfl rfl (by decide +kernel),
    ((hmixed _ (htarget _)).2.1 (by decide +kernel) (by decide +kernel)).trans (by decide +kernel),
    (hmissing hnone).trans (by decide +kernel),
    ((hinvalid _ hbad).1 (by decide +kernel)).trans (by decide +kernel)⟩

end SenderPolicy

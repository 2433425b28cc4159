import SenderPolicy.Build
import SenderPolicy.Cli.Run
import SenderPolicy.Proofs.Listing
import SenderPolicy.Proofs.Text.Separators

/-! Inspecting the text of a record that was built shows what was planned. A build counts
the lookups of its plan, and an inspection those of the record that it reads. -/
namespace SenderPolicy

/-! Lookups -/

def Mechanism.asksDns : Mechanism → Bool
  | inclusion _ | a .. | mx .. | existence _ => true
  | ptr _ | ip4 _ | ip6 _ | all => false

/-- Only `ptr` costs a lookup besides, and no entry asks for it. -/
theorem Mechanism.lookups_eq {m : Mechanism} {kind : Kind} (h : m.kind? = some kind) :
    m.lookups = if m.asksDns then 1 else 0 := by
  cases m with
  | ptr | all => cases h
  | _ => rfl

/-- A mechanism that an entry gives costs one lookup or none. -/
theorem Mechanism.totalLookups_eq {list : List Mechanism}
    (h : ∀ m ∈ list, ∃ kind, m.kind? = some kind) :
    totalLookups list = list.countP asksDns := by
  induction list with
  | nil => rfl
  | cons m ms ih =>
    obtain ⟨⟨kind, hkind⟩, hms⟩ := List.forall_mem_cons.mp h
    rw [totalLookups, List.countP_cons, lookups_eq hkind, ih hms, Nat.add_comm]

namespace Plan

def dnsTerms : Plan → Nat
  | redirect _ => 1
  | mechanisms list _ => list.countP Mechanism.asksDns

/-- The two counters agree. -/
theorem lookups_record (p : Plan) : p.record.lookups = p.lookups := by
  cases p with
  | redirect target => rfl
  | mechanisms list terminal =>
    have hdirectives : (mechanisms list terminal).record.directives.map (·.mechanism) =
        list ++ [.all] := by
      simp [record, Function.comp_def]
    rw [Record.lookups, hdirectives, Mechanism.totalLookups_append]
    rfl

/-- A planned record has no blanks around it, so inspecting it trims nothing off. -/
theorem trim_render {p : Plan} (h : p.IsWritable) :
    Text.trim p.render.toList = p.render.toList := by
  rw [render, Record.toList_intercalate_versionTag]
  exact Text.trim_intercalate (Record.isWord_of_mem_versionTag_cons (isWord_of_mem_terms h))

/-- A planned record starts with a letter, so it is never taken for an option. -/
theorem head?_render (p : Plan) : p.render.toList.head? = some 'v' := by
  rw [render, Record.toList_intercalate_versionTag]
  cases p.terms <;> rfl

end Plan

namespace Request

/-- The lookups of a plan are those of its mechanisms and one for a redirect. -/
theorem lookups_plan {style : MacroStyle} {q : Request} {p : Plan} (h : q.plan style = .ok p) :
    p.lookups = p.dnsTerms := by
  obtain ⟨-, -, ⟨-, target, -, rfl⟩ | ⟨-, rfl⟩⟩ := plan_eq_ok_iff.mp h
  · rfl
  · apply Mechanism.totalLookups_eq
    intro m hm
    obtain ⟨kind, hkind, -⟩ := sound_mechanisms hm
    exact ⟨kind, hkind⟩

/-! Events of a build -/

theorem level_of_mem_rejectionEvents {style : MacroStyle} {kind : Kind} {values : List String}
    {e : Event} (h : e ∈ rejectionEvents style kind values) : e.level = .debug := by
  obtain ⟨⟨value, reason⟩, -, rfl⟩ := List.mem_map.mp h
  rfl

theorem level_of_mem_kindEvents {style : MacroStyle} {q : Request} {kind : Kind} {e : Event}
    (h : e ∈ q.kindEvents style kind) : e.level = .debug := by
  rcases List.mem_append.mp h with h | h
  · exact level_of_mem_rejectionEvents h
  · obtain ⟨m, -, rfl⟩ := List.mem_map.mp h
    rfl

theorem level_of_mem_redirectEvents {style : MacroStyle} {q : Request} {e : Event}
    (h : e ∈ q.redirectEvents style) : e.level = .debug := by
  rcases List.mem_append.mp h with h | h
  · split at h
    · rw [List.mem_singleton.mp h]
      rfl
    · cases h
  · exact level_of_mem_rejectionEvents h

/-- Planning warns of nothing. -/
theorem level_of_mem_planEvents {style : MacroStyle} {q : Request} {e : Event}
    (h : e ∈ q.planEvents style) : e.level = .debug := by
  rw [planEvents] at h
  split at h
  · cases h
  · simp only [List.mem_append] at h
    -- In their order: the kinds, the terminal, the redirect, and what it suppresses.
    rcases h with ((h | h) | h) | h
    · obtain ⟨kind, -, hkind⟩ := List.mem_flatMap.mp h
      exact level_of_mem_kindEvents hkind
    · exact level_of_mem_rejectionEvents h
    · split at h
      · exact level_of_mem_redirectEvents h
      · cases h
    · split at h
      · split at h
        · cases h
        · rw [List.mem_singleton.mp h]
          rfl
      · cases h

end Request

/-- A build warns of nothing but too many lookups. -/
theorem Settings.logged_buildEvents {s : Settings} {q : Request} {p : Plan}
    (h : q.plan s.macroStyle = .ok p) : logged .warn (s.buildEvents q) =
      if s.maxLookups < p.lookups then [.overLookupLimit q.domain p.lookups s.maxLookups]
      else [] := by
  have hplan : logged .warn (q.planEvents s.macroStyle) = [] := by
    refine List.filter_eq_nil_iff.mpr fun e he => ?_
    rw [Request.level_of_mem_planEvents he]
    decide
  have happend : ∀ es es', logged .warn (es ++ es') = logged .warn es ++ logged .warn es' :=
    fun es es' => List.filter_append es es'
  rw [buildEvents, happend, hplan, outcomeEvents, h]
  dsimp only
  rw [happend]
  split <;> rfl

namespace Cli

def ErrorLine.plain? : ErrorLine → Option String
  | event _ => none
  | plain text => some text

namespace Report

def messages (r : Report) : List String :=
  -- The lines on the standard error that are no events.
  r.errors.filterMap ErrorLine.plain?

theorem messages_withEvents (threshold : Level) (events : List Event) (r : Report) :
    (r.withEvents threshold events).messages = r.messages := by
  have hnone : ((logged threshold events).map ErrorLine.event).filterMap ErrorLine.plain? = [] := by
    simp [ErrorLine.plain?]
  rw [messages, withEvents, List.filterMap_append, hnone, List.nil_append, messages]

end Report

def partLines : Plan → List String
  | .redirect target => ["redirect: " ++ target]
  | .mechanisms list terminal =>
    list.map (fun m => "mechanism: " ++ m.render) ++
      ["mechanism: " ++ (⟨terminal, .all⟩ : Directive).render]

/-- The report about a text agrees with the plan and the build that the text comes from. -/
structure Report.Agrees (r : Report) (s : Settings) (q : Request) (p : Plan) (text : String) :
    Prop where
  exitCode : r.exitCode = 0
  output : ∃ strings, String.join strings = text ∧ r.output = partLines p ++
    ["dns lookups: " ++ toString p.lookups ++ "/" ++ toString s.maxLookups,
      "length: " ++ toString text.utf8ByteSize] ++
    strings.map fun piece => "txt: \"" ++ piece ++ "\""
  lookups : p.lookups = p.dnsTerms
  /-- The inspection warns when the lookups are over the limit, and at no other time. -/
  warning : r.messages = if s.maxLookups < p.lookups then
    ["warning: record needs " ++ toString p.lookups ++ " DNS lookups; the limit is " ++
      toString s.maxLookups] else []
  /-- So does the build. -/
  logged : logged .warn (s.buildEvents q) = if s.maxLookups < p.lookups then
    [.overLookupLimit q.domain p.lookups s.maxLookups] else []

/-- Events in front leave the agreement as it is. -/
theorem Report.Agrees.withEvents {r : Report} {s : Settings} {q : Request} {p : Plan}
    {text : String} (h : r.Agrees s q p text) (threshold : Level) (events : List Event) :
    (r.withEvents threshold events).Agrees s q p text where
  exitCode := h.exitCode
  output := h.output
  lookups := h.lookups
  warning := by rw [messages_withEvents, h.warning]
  logged := h.logged

/-- The lines for the parts name the directives, the redirect and the explanation, in turn. -/
theorem partLines_eq (p : Plan) : partLines p =
    p.record.directives.map (fun d => "mechanism: " ++ d.render) ++
      p.record.redirect?.toList.map ("redirect: " ++ ·) ++
      p.record.explanation?.toList.map ("exp: " ++ ·) := by
  cases p with
  | redirect target => rfl
  | mechanisms list terminal => simp [Plan.record, partLines, Plan.render_pass]

/-- The report on a planned record agrees with the plan. -/
theorem reportRecord_agrees {s : Settings} {q : Request} {p : Plan}
    (h : q.plan s.macroStyle = .ok p) :
    (reportRecord s p.render p.record).Agrees s q p p.render where
  exitCode := rfl
  output := by
    refine ⟨_, TxtStrings.join_ofRecord p.render, ?_⟩
    have htrim : String.ofList (Text.trim p.render.toList) = p.render := by
      rw [Plan.trim_render (Request.isWritable_plan h), String.ofList_toList]
    rw [partLines_eq]
    simp only [reportRecord, htrim, Plan.lookups_record]
  lookups := Request.lookups_plan h
  warning := by
    simp only [Report.messages, reportRecord, Plan.lookups_record]
    split <;> rfl
  logged := Settings.logged_buildEvents h

/-- An argument that does not start with a hyphen is no option. -/
theorem readPlace_inspect_word {g : Given} {word : String} {args : List String}
    (h : word.toList.head? ≠ some '-') : readPlace .inspect g none (word :: args) =
      g.addWord .inspect word >>= fun g => readPlace .inspect g none args := by
  rw [readPlace]
  · split
    · simp_all
    · simp_all
    · rfl
  · nofun
  · nofun

/-- A text that does not start like an option is taken as the record to inspect. -/
theorem ofArgs_inspect {text : String} (h : text.toList.head? ≠ some '-') :
    Invocation.ofArgs ["inspect", text] = .ok ⟨none, 0, .inspect text⟩ := by
  have htop : readPlace .top .empty none ["inspect", text] =
      .ok (.empty, some (.inspect, [text])) := rfl
  rw [Invocation.ofArgs, htop]
  show (readPlace .inspect .empty none [text] >>= _) = _
  rw [readPlace_inspect_word h]
  rfl

end Cli

/-- The text of a plan can be inspected, with the settings that it was built with. The report
shows the plan's parts, its lookups, and the text's length and strings, and it warns about the
lookups if and only if the build did. -/
theorem inspection_agrees_with_build {s : Settings} {q : Request} {text : String}
    (hbuild : s.build q = .record text) : ∃ p, q.plan s.macroStyle = .ok p ∧
      Cli.Invocation.ofArgs ["inspect", text] = .ok ⟨none, 0, .inspect text⟩ ∧
      (∀ (files : Files) (threshold : Level),
        (Cli.runCommand files s threshold (.inspect text)).Agrees s q p text) ∧
      ∀ (files : Files) (i : Cli.Invocation), Settings.load files i.config? = .ok s →
        i.command = .inspect text → (Cli.run files i).Agrees s q p text := by
  obtain ⟨p, hplan, rfl⟩ := Settings.build_eq_record_iff.mp hbuild
  have hcommand : ∀ (files : Files) (threshold : Level),
      (Cli.runCommand files s threshold (.inspect p.render)).Agrees s q p p.render := by
    intro files threshold
    rw [Cli.runCommand, Request.ofText_render hplan]
    exact Cli.reportRecord_agrees hplan
  have hword : p.render.toList.head? ≠ some '-' := by
    rw [Plan.head?_render]
    decide
  refine ⟨p, hplan, Cli.ofArgs_inspect hword, hcommand, fun files i hload hinspect => ?_⟩
  rw [Cli.run, hload, hinspect]
  exact (hcommand files _).withEvents _ _

/-- Two lookups where the settings file allows one. -/
theorem inspection_agrees_with_build_over_limit :
    let s : Settings := ⟨.softFail, .compact, 1, "warn"⟩
    let q : Request := ⟨"example.com", [.of .inclusion ["_spf.example.net"],
      .of .a ["example.com"], .of .ip4 ["192.0.2.0/24"]], false, .softFail⟩
    let text := "v=spf1 include:_spf.example.net ip4:192.0.2.0/24 a ~all"
    let files : Files := ⟨(· == "limit.toml"), fun path =>
      if path = "limit.toml" then .ok "max_dns_lookups = 1" else .error .notFound⟩
    let i : Cli.Invocation := ⟨some "limit.toml", 0, .inspect text⟩
    s.build q = .record text ∧ Settings.load files i.config? = .ok s ∧
      ∃ p, q.plan s.macroStyle = .ok p ∧ (Cli.run files i).Agrees s q p text := by
  intro s q text files i
  have hbuild : s.build q = .record text := by decide +kernel
  have hload : Settings.load files i.config? = .ok s := by decide +kernel
  obtain ⟨p, hplan, -, -, hrun⟩ := inspection_agrees_with_build hbuild
  exact ⟨hbuild, hload, p, hplan, hrun files i hload rfl⟩

end SenderPolicy

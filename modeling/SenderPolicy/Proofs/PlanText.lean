import SenderPolicy.Proofs.Plan
import SenderPolicy.Proofs.RecordText

/-! The text of a plan is read back as that plan and nothing else, so that no value of a
request can add a term to the record, hide one, or change one. -/
namespace SenderPolicy

/-- Whatever a validated value stands for can be written and read. -/
theorem Kind.isWritable_of_mechanism? {style : MacroStyle} {kind : Kind} {raw v own : String}
    {m : Mechanism} (hv : validate style kind raw = .ok v)
    (hm : kind.mechanism? own v = some m) : m.IsWritable := by
  have hcheck := validate_eq_ok_iff.mp hv
  have hword := isWord_of_validate hv
  -- A target beside the own name is a full host name, and no such name has a slash.
  have htarget : Validation.hostName (Text.trim raw.toList) = .ok v.toList →
      ∀ t ∈ targetBeside own v,
        Text.IsWord t.toList ∧ DualLength.host.Follows t.toList := by
    intro hname t ht
    obtain rfl := eq_of_targetBeside_eq_some ht
    obtain ⟨hfull, htext⟩ := Validation.hostName_eq_ok_iff.mp hname
    refine ⟨hword, .inl fun hslash => ?_⟩
    exact (HostName.isNameChar_of_mem_canonical hfull (htext ▸ hslash)).ne_slash rfl
  cases kind with
  | inclusion | existence =>
    obtain rfl := Option.some.inj hm
    exact hword
  | ip4 | ip6 =>
    obtain rfl := Option.some.inj hm
    obtain ⟨n, -, htext⟩ := Validation.network_eq_ok_iff.mp hcheck
    exact ⟨n, htext⟩
  | a | mx =>
    obtain rfl := Option.some.inj hm
    exact htarget hcheck
  | redirect | all => cases hm

/-- Validated values can be written into a record and read back. -/
theorem Request.isWritable_of_mem_mechanisms {style : MacroStyle} {q : Request} {m : Mechanism}
    (h : m ∈ q.mechanisms style) : m.IsWritable := by
  obtain ⟨kind, -, raw, -, v, hv, hm⟩ := mem_mechanisms.mp h
  exact kind.isWritable_of_mechanism? hv hm

namespace Plan

def record : Plan → Record
  -- The record that a plan describes: the mechanisms in their order, each one a pass, and behind
  -- them the terminal; or the redirect alone.
  | redirect target => ⟨[], some target, none⟩
  | mechanisms list terminal => ⟨list.map (⟨.pass, ·⟩) ++ [⟨terminal, .all⟩], none, none⟩

/-- A plan can be told from its record. -/
theorem record_injective : Function.Injective record := by
  intro p p' h
  cases p with
  | redirect target =>
    cases p' with
    | redirect target' => simpa [record] using h
    | mechanisms list' terminal' => simp [record] at h
  | mechanisms list terminal =>
    cases p' with
    | redirect target' => simp [record] at h
    | mechanisms list' terminal' =>
      simp only [record, Record.mk.injEq, and_true] at h
      obtain ⟨hlist, hterminal⟩ := List.append_inj' h rfl
      have hmap : Function.Injective fun m : Mechanism => (⟨.pass, m⟩ : Directive) :=
        fun m m' hm => congrArg Directive.mechanism hm
      rw [List.map_injective_iff.mpr hmap hlist]
      simpa using hterminal

theorem render_pass (m : Mechanism) : (⟨.pass, m⟩ : Directive).render = m.render := by
  simp [Directive.render]

def IsWritable : Plan → Prop
  | redirect target => Text.IsWord target.toList
  | mechanisms list _ => ∀ m ∈ list, m.IsWritable

/-- The terms of a plan are words, so they stay apart when they are joined by spaces. -/
theorem isWord_of_mem_terms {p : Plan} (h : p.IsWritable) :
    ∀ t ∈ p.terms, Text.IsWord t.toList := by
  cases p with
  | redirect target =>
    have hname : Text.IsWord "redirect=".toList := Text.isWord_of_all_graphic (by decide)
    have hword : Text.IsWord ("redirect=" ++ target).toList := by
      rw [String.toList_append]
      exact hname.append (Text.IsWord.not_blank h)
    simpa [terms] using hword
  | mechanisms list terminal =>
    have hterminal : Text.IsWord (terminal.sign.toString ++ "all").toList := by
      cases terminal <;> exact Text.isWord_of_all_graphic (by decide)
    refine List.forall_mem_append.mpr ⟨fun t ht => ?_, by simpa using hterminal⟩
    obtain ⟨m, hm, rfl⟩ := List.mem_map.mp ht
    rw [← render_pass]
    exact Directive.isWord_render (h m hm).namesWords

/-- The text of a plan that can be written is read back as its record. -/
theorem ofText_render {p : Plan} (h : p.IsWritable) : Record.ofText p.render = .ok p.record := by
  rw [render, Record.ofText_intercalate (isWord_of_mem_terms h)]
  cases p with
  | redirect target =>
    show Record.empty.addTerm ("redirect=" ++ target).toList >>= _ = _
    rw [Record.addTerm_redirect (Text.IsWord.ne_nil h) rfl]
    rfl
  | mechanisms list terminal =>
    have hdirectives : ∀ d ∈ list.map (⟨.pass, ·⟩),
        Mechanism.IsWritable (Directive.mechanism d) := by
      intro d hd
      obtain ⟨m, hm, rfl⟩ := List.mem_map.mp hd
      exact h m hm
    -- The terminal shows its sign even if it is a pass, unlike a directive that is rendered.
    have htexts : (mechanisms list terminal).terms.map String.toList =
        (list.map (⟨.pass, ·⟩)).map (fun d : Directive => d.render.toList) ++
          [terminal.sign :: "all".toList] := by
      simp [terms, render_pass, Function.comp_def]
    rw [htexts, Record.ofTerms, List.foldlM_append, Record.foldlM_addTerm_render hdirectives,
      ok_bind]
    show Record.addTerm _ (terminal.sign :: "all".toList) >>= _ = _
    rw [Record.addTerm_terminal]
    rfl

end Plan

theorem Request.isWritable_plan {style : MacroStyle} {q : Request} {p : Plan}
    (h : q.plan style = .ok p) : p.IsWritable := by
  obtain ⟨-, -, ⟨-, target, htarget, rfl⟩ | ⟨-, rfl⟩⟩ := plan_eq_ok_iff.mp h
  · obtain ⟨raw, -, hvalid⟩ := redirectTarget_eq_ok_iff.mp htarget
    exact isWord_of_validate hvalid
  · exact fun m hm => isWritable_of_mem_mechanisms hm

theorem Request.ofText_render {style : MacroStyle} {q : Request} {p : Plan}
    (h : q.plan style = .ok p) : Record.ofText p.render = .ok p.record :=
  Plan.ofText_render (isWritable_plan h)

/-- Reading the text of a plan gives the plan's own record, and no other plan has that
text, whatever was asked for and in whatever style. -/
theorem plan_text_faithful {style : MacroStyle} {q : Request} {p : Plan}
    (h : q.plan style = .ok p) :
    Record.ofText p.render = .ok p.record ∧
      ∀ (style' : MacroStyle) (q' : Request) (p' : Plan),
        q'.plan style' = .ok p' → p'.render = p.render → p' = p := by
  have hread := Request.ofText_render h
  refine ⟨hread, fun style' q' p' h' htext => ?_⟩
  have hread' := Request.ofText_render h'
  rw [htext, hread] at hread'
  exact Plan.record_injective (Except.ok.inj hread').symm

/-- Delimiters inside a macro, an IPv4 address inside an IPv6 one, and the own domain. -/
theorem plan_text_faithful_delimiters :
    let q : Request := ⟨"Example.COM.", [.of .existence ["%\x7bd1R=\x7d.%i"],
      .of .ip6 ["::FFFF:192.0.2.1/96 1:0::"], .of .a ["example.com mail.example.com"]], false, .pass⟩
    let p : Plan := .mechanisms [.ip6 "::ffff:192.0.2.1/96", .ip6 "1::", .a none .host,
      .a (some "mail.example.com") .host, .existence "%\x7bd1R=\x7d.%\x7bi\x7d"] .pass
    q.plan .braced = .ok p ∧ Record.ofText p.render = .ok p.record := by
  intro q p
  have h : q.plan .braced = .ok p := by decide +kernel
  exact ⟨h, (plan_text_faithful h).1⟩

end SenderPolicy

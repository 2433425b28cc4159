import SenderPolicy.Proofs.PlanText
import SenderPolicy.Proofs.TxtStrings

/-! The text of a record can be put between quotes in a zone file as it is, whatever was typed
into the request: few characters of ASCII occur in it, no quote and no backslash among them,
and each space in it separates two terms. -/
namespace SenderPolicy

def IsTermChar (c : Char) : Prop :=
  c.isAlphanum = true ∨ c ∈ ".-_:/%\x7b\x7d+,=~?".toList

instance (c : Char) : Decidable (IsTermChar c) :=
  inferInstanceAs (Decidable (_ ∨ _))

theorem IsTermChar.isGraphic {c : Char} (h : IsTermChar c) : Text.IsGraphic c := by
  have signs : (".-_:/%\x7b\x7d+,=~?".toList.all fun d => decide (Text.IsGraphic d)) = true := by
    decide
  rcases h with h | h
  · exact Text.isGraphic_of_isAlphanum h
  · exact of_decide_eq_true (List.all_eq_true.mp signs c h)

/-- The same as a check that can be run on a text that is written out. -/
theorem isTermChar_of_all {s : List Char} (h : (s.all fun c => decide (IsTermChar c)) = true) :
    ∀ c ∈ s, IsTermChar c :=
  fun c hc => of_decide_eq_true (List.all_eq_true.mp h c hc)

theorem isTermChar_append {front back : String} (hfront : ∀ c ∈ front.toList, IsTermChar c)
    (hback : ∀ c ∈ back.toList, IsTermChar c) : ∀ c ∈ (front ++ back).toList, IsTermChar c := by
  rw [String.toList_append]
  exact List.forall_mem_append.mpr ⟨hfront, hback⟩

/-! The characters of normal forms -/

theorem HostName.IsNameChar.isTermChar {c : Char} (h : IsNameChar c) : IsTermChar c := by
  rcases h with h | rfl | rfl | rfl
  · exact .inl h
  · exact .inr (by decide)
  · exact .inr (by decide)
  · exact .inr (by decide)

theorem IsAddressChar.isTermChar {c : Char} (h : IsAddressChar c) : IsTermChar c := by
  rcases h with h | rfl | rfl
  · exact .inl h
  · exact .inr (by decide)
  · exact .inr (by decide)

theorem MacroString.IsMacroChar.isTermChar {c : Char} (h : IsMacroChar c) : IsTermChar c := by
  have delimiters := isTermChar_of_all (s := ".-+,/_=".toList) (by decide)
  have signs := isTermChar_of_all (s := ['%', '\x7b', '\x7d']) (by decide)
  rcases h with h | h | h
  · exact h.isTermChar
  · exact delimiters c (by simpa [isDelimiter] using h)
  · exact signs c h

theorem Network.isTermChar {α : Type} [AddressFamily α] [LawfulFamily α] {n : Network α} {c : Char}
    (h : c ∈ n.toChars) : IsTermChar c := by
  rcases isAddressChar_or_slash h with h | rfl
  · exact h.isTermChar
  · exact .inr (by decide)

theorem Validation.isTermChar_of_check {style : MacroStyle} {kind : Kind} {s v : List Char}
    (h : check style kind s = .ok v) : ∀ c ∈ v, IsTermChar c := by
  intro c hc
  cases kind with
  | inclusion | a | mx | redirect =>
    obtain ⟨hfull, rfl⟩ := hostName_eq_ok_iff.mp h
    exact (HostName.isNameChar_of_mem_canonical hfull hc).isTermChar
  | ip4 | ip6 =>
    obtain ⟨n, -, rfl⟩ := network_eq_ok_iff.mp h
    exact Network.isTermChar hc
  | existence => exact (isMacroChar_of_macroName h c hc).isTermChar
  | all => cases h

theorem isTermChar_of_validate {style : MacroStyle} {kind : Kind} {raw v : String}
    (h : validate style kind raw = .ok v) : ∀ c ∈ v.toList, IsTermChar c :=
  Validation.isTermChar_of_check (validate_eq_ok_iff.mp h)

/-! The characters of terms -/

/-- A mechanism adds nothing but characters of terms to its value. -/
theorem Kind.isTermChar_of_mechanism? {own v : String} {kind : Kind} {m : Mechanism}
    (hv : ∀ c ∈ v.toList, IsTermChar c) (hm : kind.mechanism? own v = some m) :
    ∀ c ∈ m.render.toList, IsTermChar c := by
  have htarget : ∀ c ∈ (Mechanism.renderTarget (targetBeside own v)).toList, IsTermChar c := by
    cases h : targetBeside own v with
    | none => exact List.forall_mem_nil _
    | some target =>
      obtain rfl := eq_of_targetBeside_eq_some h
      exact isTermChar_append (isTermChar_of_all (by decide)) hv
  have hhost : DualLength.host.render = "" := by decide
  -- The name in front is the same for all values of a kind.
  cases kind with
  | inclusion | ip4 | ip6 | existence =>
    obtain rfl := Option.some.inj hm
    exact isTermChar_append (isTermChar_of_all (by decide)) hv
  | a | mx =>
    obtain rfl := Option.some.inj hm
    rw [Mechanism.render, hhost, String.append_empty]
    exact isTermChar_append (isTermChar_of_all (by decide)) htarget
  | redirect | all => cases hm

theorem Request.isTermChar_of_mem_mechanisms {style : MacroStyle} {q : Request} {m : Mechanism}
    (h : m ∈ q.mechanisms style) : ∀ c ∈ m.render.toList, IsTermChar c := by
  obtain ⟨kind, -, raw, -, v, hv, hm⟩ := mem_mechanisms.mp h
  exact kind.isTermChar_of_mechanism? (isTermChar_of_validate hv) hm

/-- Whatever was typed, the terms of a plan are made of these characters. -/
theorem Request.isTermChar_of_plan {style : MacroStyle} {q : Request} {p : Plan}
    (h : q.plan style = .ok p) : ∀ t ∈ p.terms, ∀ c ∈ t.toList, IsTermChar c := by
  obtain ⟨-, -, ⟨-, target, htarget, rfl⟩ | ⟨-, rfl⟩⟩ := plan_eq_ok_iff.mp h
  · obtain ⟨raw, -, hvalid⟩ := redirectTarget_eq_ok_iff.mp htarget
    exact List.forall_mem_singleton.mpr
      (isTermChar_append (isTermChar_of_all (by decide)) (isTermChar_of_validate hvalid))
  · refine List.forall_mem_append.mpr ⟨fun t ht => ?_, List.forall_mem_singleton.mpr ?_⟩
    · obtain ⟨m, hm, rfl⟩ := List.mem_map.mp ht
      exact isTermChar_of_mem_mechanisms hm
    · cases q.qualifier <;> exact isTermChar_of_all (by decide)

/-! The whole text -/

/-- A record that can stand between quotes in a zone file: nothing in it has to be escaped, and
it is cut into as few strings as can hold it. -/
structure IsZoneText (text : String) : Prop where
  chars : ∀ c ∈ text.toList, IsTermChar c ∨ c = ' '
  version : ∃ terms, text = "v=spf1 " ++ terms
  no_leading : text.toList.head? ≠ some ' '
  no_trailing : text.toList.getLast? ≠ some ' '
  no_doubled : ¬ [' ', ' '] <:+: text.toList
  no_quote : '"' ∉ text.toList
  no_backslash : '\\' ∉ text.toList
  length_strings : (TxtStrings.ofRecord text).length = (text.utf8ByteSize + 254) / 255
  full_strings : ∀ piece ∈ (TxtStrings.ofRecord text).dropLast, piece.utf8ByteSize = 255

/-- The characters of terms and the space take one octet each. -/
theorem utf8Size_of_isTermChar {c : Char} (h : IsTermChar c ∨ c = ' ') : c.utf8Size = 1 := by
  rcases h with h | rfl
  · have hgraphic := h.isGraphic
    exact Char.utf8Size_eq_one_iff.mpr (UInt32.le_iff_toNat_le.mpr (hgraphic.2.trans (by decide)))
  · rfl

namespace Plan

theorem terms_ne_nil (p : Plan) : p.terms ≠ [] := by
  cases p with
  | redirect target => exact List.cons_ne_nil _ _
  | mechanisms list terminal => exact List.append_ne_nil_of_right_ne_nil _ (List.cons_ne_nil _ _)

/-- The text of a plan can be put between quotes as it is. -/
theorem isZoneText_render {p : Plan} (hterms : ∀ t ∈ p.terms, ∀ c ∈ t.toList, IsTermChar c)
    (hwritable : p.IsWritable) : IsZoneText p.render := by
  have hwords := Record.isWord_of_mem_versionTag_cons (isWord_of_mem_terms hwritable)
  have htext : p.render.toList =
      [' '].intercalate (versionTag.toList :: p.terms.map String.toList) :=
    Record.toList_intercalate_versionTag p.terms
  -- No term has a space in it or is empty, so a space is always a single one between two terms.
  have hparts : ∀ w ∈ versionTag.toList :: p.terms.map String.toList, w ≠ [] ∧ ' ' ∉ w :=
    fun w hw => ⟨(hwords w hw).ne_nil, (hwords w hw).space_not_mem⟩
  have hchars : ∀ c ∈ p.render.toList, IsTermChar c ∨ c = ' ' := by
    intro c hc
    rw [htext] at hc
    rcases Text.mem_intercalate hc with rfl | ⟨w, hw, hcw⟩
    · exact .inr rfl
    · rcases List.mem_cons.mp hw with rfl | hw
      · exact .inl (isTermChar_of_all (s := versionTag.toList) (by decide) c hcw)
      · obtain ⟨t, ht, rfl⟩ := List.mem_map.mp hw
        exact .inl (hterms t ht c hcw)
  have hsize : ∀ c ∈ p.render.toList, c.utf8Size = 1 :=
    fun c hc => utf8Size_of_isTermChar (hchars c hc)
  have hversion : p.render = "v=spf1 " ++ " ".intercalate p.terms := by
    rw [render, String.intercalate_cons_of_ne_nil p.terms_ne_nil]
    rfl
  exact {
    chars := hchars
    version := ⟨_, hversion⟩
    no_leading := by
      rw [hversion, String.toList_append]
      simp
    no_trailing := htext ▸ Text.getLast?_intercalate_ne hparts
    no_doubled := htext ▸ Text.cutDouble_eq_none_iff.mp (Text.cutDouble_intercalate hparts)
    no_quote := fun h => absurd (hchars '"' h) (by decide)
    no_backslash := fun h => absurd (hchars '\\' h) (by decide)
    length_strings := by
      apply TxtStrings.length_ofRecord hsize
      intro hempty
      rw [hversion] at hempty
      simp at hempty
    full_strings := fun piece => TxtStrings.utf8ByteSize_of_mem_dropLast hsize }

/-- The terminal is the last term. -/
theorem render_mechanisms (list : List Mechanism) (terminal : Qualifier) :
    (mechanisms list terminal).render = " ".intercalate (versionTag :: list.map Mechanism.render) ++
      " " ++ terminal.sign.toString ++ "all" := by
  rw [render, terms, ← List.cons_append,
    String.intercalate_append_of_ne_nil (List.cons_ne_nil _ _) (List.cons_ne_nil _ _),
    String.intercalate_singleton, String.append_assoc, String.append_assoc, String.append_assoc]

end Plan

/-- Whatever stands in the request, a record that is built is safe in a zone file. Without a
redirect its last term is the terminal that was asked for. -/
theorem built_record_is_zone_text {s : Settings} {q : Request} {text : String}
    (h : s.build q = .record text) : IsZoneText text ∧ (q.redirectEnabled = false →
      ∃ front, text = front ++ " " ++ q.qualifier.sign.toString ++ "all") := by
  obtain ⟨p, hplan, rfl⟩ := Settings.build_eq_record_iff.mp h
  have hzone := Plan.isZoneText_render (Request.isTermChar_of_plan hplan)
    (Request.isWritable_plan hplan)
  refine ⟨hzone, fun hoff => ?_⟩
  obtain ⟨-, -, ⟨hon, -⟩ | ⟨-, rfl⟩⟩ := Request.plan_eq_ok_iff.mp hplan
  · rw [hoff] at hon
    cases hon
  · exact ⟨_, Plan.render_mechanisms _ _⟩

/-- Delimiters inside a macro, blanks of several scripts between values, and so many addresses
that they fill more than one string. -/
theorem built_record_is_zone_text_long :
    let hosts := (List.range 12).map fun n => "198.51.100." ++ toString n
    let q : Request := ⟨" Example.COM. ", [
      .of .existence ["%\x7bd1R=\x7d.%-._SPF.%\x7bi\x7d\u3000"],
      .of .ip6 ["::FFFF:192.0.2.1/96\u2028", "1:0::"], .of .a ["example.com\ta.example.org."],
      .of .ip4 hosts], false, .neutral⟩
    let text := "v=spf1 " ++ " ".intercalate (hosts.map ("ip4:" ++ ·)) ++
      " ip6:::ffff:192.0.2.1/96 ip6:1:: a a:a.example.org exists:%\x7bd1R=\x7d.%-._SPF.%i ?all"
    (default : Settings).build q = .record text ∧ IsZoneText text ∧
      (∃ front, text = front ++ " " ++ q.qualifier.sign.toString ++ "all") ∧
      (TxtStrings.ofRecord text).length = 2 := by
  intro hosts q text
  have hbuild : (default : Settings).build q = .record text := by decide +kernel
  obtain ⟨hzone, hterminal⟩ := built_record_is_zone_text hbuild
  refine ⟨hbuild, hzone, hterminal rfl, ?_⟩
  rw [hzone.length_strings]
  decide +kernel

end SenderPolicy

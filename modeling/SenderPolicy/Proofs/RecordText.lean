import Mathlib.Data.List.Forall2
import SenderPolicy.Plan
import SenderPolicy.Proofs.RecordWords

/-! Records that are written are read back term by term. No directive looks like a
modifier, because an equals sign stands in a term only behind a colon. -/
namespace SenderPolicy

namespace Mechanism

/-- An argument without a colon is a prefix length. -/
theorem equals_not_mem_argument (m : Mechanism) :
    '=' ∉ m.argument ∨ m.argument.head? = some ':' := by
  cases m with
  | all => exact .inl (by simp [argument])
  | inclusion | ip4 | ip6 | existence => exact .inr rfl
  | a target? l | mx target? l =>
    cases target? with
    | none => exact .inl (by simpa [argument, renderTarget] using l.equals_not_mem)
    | some target => exact .inr (by simp [argument, renderTarget])
  | ptr target? =>
    cases target? with
    | none => exact .inl (by simp [argument, renderTarget])
    | some target => exact .inr (by simp [argument, renderTarget])

theorem not_blank_of_mem_argument {m : Mechanism} (h : m.NamesWords) :
    ∀ c ∈ m.argument, Text.isBlank c = false := by
  have hcolon : Text.isBlank ':' = false := by decide
  have htarget : ∀ {target? : Option String}, (∀ t ∈ target?, Text.IsWord t.toList) →
      ∀ c ∈ (renderTarget target?).toList, Text.isBlank c = false := by
    intro target? ht
    cases target? with
    | none => simp [renderTarget]
    | some target => simpa [renderTarget, hcolon] using (ht target rfl).not_blank
  have hlength : ∀ l : DualLength, ∀ c ∈ l.text4 ++ l.text6, Text.isBlank c = false :=
    fun l c hc => (DualLength.isGraphic_of_mem hc).isBlank_eq
  cases m with
  | all => simp [argument]
  | inclusion text | existence text | ip4 text | ip6 text =>
    exact List.forall_mem_cons.mpr ⟨hcolon, h.not_blank⟩
  | a target? l | mx target? l => exact List.forall_mem_append.mpr ⟨htarget h, hlength l⟩
  | ptr target? => exact htarget h

end Mechanism

namespace Directive

def signText (d : Directive) : List Char :=
  if d.qualifier = .pass then [] else [d.qualifier.sign]

theorem toList_render (d : Directive) :
    d.render.toList = d.signText ++ d.mechanism.render.toList := by
  rw [render, signText, String.toList_append]
  split <;> simp

theorem isWord_render {d : Directive} (h : d.mechanism.NamesWords) :
    Text.IsWord d.render.toList := by
  have hsign : ∀ c ∈ d.signText, Text.isBlank c = false := by
    have signs : ∀ q : Qualifier, Text.isBlank q.sign = false := by
      intro q
      cases q <;> decide
    rw [signText]
    split <;> simp [signs]
  rw [toList_render, Mechanism.toList_render]
  refine ⟨by simp [d.mechanism.keyword_ne_nil], List.forall_mem_append.mpr ⟨hsign, ?_⟩⟩
  refine List.forall_mem_append.mpr ⟨fun c hc => ?_, Mechanism.not_blank_of_mem_argument h⟩
  exact (Text.isGraphic_of_isAlphanum (Mechanism.isAlphanum_of_mem_keyword hc)).isBlank_eq

end Directive

namespace Record

/-! Terms that are directives -/

theorem isModifierName_of_colon {name : List Char} (h : ':' ∈ name) :
    isModifierName name = false := by
  cases name with
  | nil => rfl
  | cons c cs =>
    rw [isModifierName, Bool.and_eq_false_iff]
    rcases List.mem_cons.mp h with rfl | h
    · exact .inl (by decide)
    · exact .inr (List.all_eq_false.mpr ⟨':', h, by decide⟩)

/-- A term is no modifier if the part before its equals sign could not be a name. -/
theorem modifier?_eq_none {front back : List Char} (hfront : '=' ∉ front)
    (hback : '=' ∉ back ∨ back.head? = some ':') : modifier? (front ++ back) = none := by
  rw [modifier?]
  rcases hback with hback | hback
  · have hnone : '=' ∉ front ++ back := by simp [hfront, hback]
    rw [Text.cutFirst_eq_none_iff.mpr hnone]
    rfl
  · -- The colon comes before every equals sign, so it stands in the name.
    obtain ⟨rest, rfl⟩ := List.head?_eq_some_iff.mp hback
    have hname : '=' ∉ front ++ [':'] := by simp [hfront]
    have happend : front ++ ':' :: rest = front ++ [':'] ++ rest := by simp
    rw [happend, Text.cutFirst_append_left hname]
    cases Text.cutFirst '=' rest with
    | none => rfl
    | some cut => simp [Option.filter, isModifierName_of_colon]

/-- No directive is taken for a modifier, whatever its argument. -/
theorem modifier?_render {d : Directive} : modifier? d.render.toList = none := by
  rw [Directive.toList_render, Mechanism.toList_render, ← List.append_assoc]
  refine modifier?_eq_none ?_ d.mechanism.equals_not_mem_argument
  have hsign : '=' ∉ d.signText := by
    have signs : ∀ q : Qualifier, q.sign ≠ '=' := by
      intro q
      cases q <;> decide
    rw [Directive.signText]
    split <;> simp [(signs d.qualifier).symm]
  have hkeyword : '=' ∉ d.mechanism.keyword.toList := fun h =>
    absurd (Mechanism.isAlphanum_of_mem_keyword h) (by decide)
  simp [hsign, hkeyword]

theorem takeSign_sign (q : Qualifier) (s : List Char) :
    Qualifier.takeSign (q.sign :: s) = (q, s) := by
  rw [Qualifier.takeSign, Qualifier.ofSign?_sign]

theorem ofSign?_of_isAlphanum {c : Char} (h : c.isAlphanum = true) :
    Qualifier.ofSign? c = none := by
  unfold Qualifier.ofSign?
  split
  · exact absurd h (by decide)
  · exact absurd h (by decide)
  · exact absurd h (by decide)
  · exact absurd h (by decide)
  · rfl

theorem takeSign_of_isAlphanum {c : Char} (h : c.isAlphanum = true) (s : List Char) :
    Qualifier.takeSign (c :: s) = (.pass, c :: s) := by
  rw [Qualifier.takeSign, ofSign?_of_isAlphanum h]

/-- The sign is taken off again, and nothing else is taken for one. -/
theorem takeSign_render (d : Directive) :
    Qualifier.takeSign d.render.toList = (d.qualifier, d.mechanism.render.toList) := by
  rw [Directive.toList_render, Directive.signText]
  by_cases hpass : d.qualifier = .pass
  · -- Without a sign the text starts with a letter of the name, and no sign is a letter.
    obtain ⟨c, cs, hkeyword⟩ := List.exists_cons_of_ne_nil d.mechanism.keyword_ne_nil
    have hc : c.isAlphanum = true :=
      Mechanism.isAlphanum_of_mem_keyword (hkeyword ▸ List.mem_cons_self)
    rw [if_pos hpass, List.nil_append, Mechanism.toList_render, hkeyword, List.cons_append,
      takeSign_of_isAlphanum hc, hpass]
  · rw [if_neg hpass, List.singleton_append, takeSign_sign]

/-- A directive is read back from its text. -/
theorem readDirective_render {d : Directive} (h : d.mechanism.IsWritable) :
    readDirective d.render.toList = .ok d := by
  rw [readDirective, takeSign_render]
  simp [readMechanism_render h]

theorem addTerm_render_eq_ok_iff {d : Directive} {r r' : Record} :
    r.addTerm d.render.toList = .ok r' ↔ ∃ d', readDirective d.render.toList = .ok d' ∧
      r' = { r with directives := r.directives ++ [d'] } := by
  rw [addTerm_eq_ok_iff]
  simp [modifier?_render]

/-- The terminal may show the sign that other directives leave out. -/
theorem addTerm_terminal (q : Qualifier) (r : Record) :
    r.addTerm (q.sign :: "all".toList) =
      .ok { r with directives := r.directives ++ [⟨q, .all⟩] } := by
  have hmodifier : modifier? (q.sign :: "all".toList) = none := by
    cases q <;> rfl
  rw [addTerm, hmodifier, readDirective, takeSign_sign]
  rfl

/-- The text of a redirect sets the target. -/
theorem addTerm_redirect {target : String} (h : target.toList ≠ []) {r : Record}
    (hr : r.redirect? = none) :
    r.addTerm ("redirect=" ++ target).toList = .ok { r with redirect? := some target } := by
  have hcut : Text.cutFirst '=' ("redirect=" ++ target).toList =
      some ("redirect".toList, target.toList) := by
    have happend : ("redirect=" ++ target).toList = "redirect".toList ++ '=' :: target.toList := by
      simp
    rw [happend, Text.cutFirst_append (by decide)]
  have hmodifier : modifier? ("redirect=" ++ target).toList =
      some ("redirect".toList, target.toList) := by
    rw [modifier?, hcut]
    rfl
  have hname : String.ofList (Text.lower "redirect".toList) = Modifier.redirect.name := by decide
  rw [addTerm, hmodifier]
  refine (addModifier_of_free hname hr).mpr ⟨h, ?_⟩
  rw [withValue, String.ofList_toList]

/-- By induction on the directives, a record takes up what each of their texts is read as. -/
theorem foldlM_addTerm_render_eq_ok_iff {ds : List Directive} {r r' : Record} :
    (ds.map fun d => d.render.toList).foldlM addTerm r = .ok r' ↔
      ∃ ds', List.Forall₂ (fun d d' => readDirective d.render.toList = .ok d') ds ds' ∧
        r' = { r with directives := r.directives ++ ds' } := by
  induction ds generalizing r with
  | nil => simp [pure, Except.pure, eq_comm]
  | cons d ds ih =>
    rw [List.map_cons, List.foldlM_cons, bind_eq_ok_iff]
    constructor
    · intro h
      obtain ⟨next, hnext, hrest⟩ := h
      obtain ⟨d', hd', rfl⟩ := addTerm_render_eq_ok_iff.mp hnext
      obtain ⟨ds', hds', rfl⟩ := ih.mp hrest
      exact ⟨d' :: ds', .cons hd' hds', by simp⟩
    · intro h
      obtain ⟨_, hds, rfl⟩ := h
      cases hds with
      | @cons _ d' _ ds' hd' hds' =>
        exact ⟨_, addTerm_render_eq_ok_iff.mpr ⟨d', hd', rfl⟩, ih.mpr ⟨ds', hds', by simp⟩⟩

theorem foldlM_addTerm_render {ds : List Directive} (h : ∀ d ∈ ds, d.mechanism.IsWritable)
    (r : Record) : (ds.map fun d => d.render.toList).foldlM addTerm r =
      .ok { r with directives := r.directives ++ ds } :=
  foldlM_addTerm_render_eq_ok_iff.mpr
    ⟨ds, List.forall₂_same.mpr fun d hd => readDirective_render (h d hd), rfl⟩

/-! The text of a record -/

theorem toList_intercalate_versionTag (terms : List String) :
    (" ".intercalate (versionTag :: terms)).toList =
      [' '].intercalate (versionTag.toList :: terms.map String.toList) := by
  rw [String.toList_intercalate]
  rfl

theorem isWord_of_mem_versionTag_cons {terms : List String}
    (h : ∀ t ∈ terms, Text.IsWord t.toList) :
    ∀ w ∈ versionTag.toList :: terms.map String.toList, Text.IsWord w := by
  have hversion : Text.IsWord versionTag.toList := Text.isWord_of_all_graphic (by decide)
  simpa [hversion] using h

/-- A text that was joined from words is read by these words. -/
theorem ofText_intercalate {terms : List String} (h : ∀ t ∈ terms, Text.IsWord t.toList) :
    ofText (" ".intercalate (versionTag :: terms)) = ofTerms (terms.map String.toList) := by
  rw [ofText, toList_intercalate_versionTag,
    Text.words_intercalate (isWord_of_mem_versionTag_cons h)]
  rfl

/-- A record of one term that is no modifier. -/
theorem ofText_single {term : String} (hword : Text.IsWord term.toList)
    (hterm : modifier? term.toList = none) :
    ofText ("v=spf1 " ++ term) = (readDirective term.toList).map fun d => ⟨[d], none, none⟩ := by
  have htext : "v=spf1 " ++ term = " ".intercalate (versionTag :: [term]) := by
    simp [versionTag]
  rw [htext, ofText_intercalate (by simpa using hword)]
  show empty.addTerm term.toList >>= _ = _
  rw [addTerm, hterm]
  cases readDirective term.toList <;> rfl

end Record
end SenderPolicy

import SenderPolicy.Proofs.RecordWords
import SenderPolicy.Proofs.Reload

/-! What a record means, and when that survives loading it and building it again. A
request has one terminal, at the end, and a redirect stands alone in it. So what a record
says behind its first terminal, or beside its redirect, changes its meaning, unless it says
nothing new there. -/
namespace SenderPolicy

/-! Evaluation -/

inductive Verdict
  | result (qualifier : Qualifier)
  /-- The record of another name is evaluated instead. -/
  | elsewhere (name : List Char)
  deriving DecidableEq, Repr

def Record.verdict (holds : Mechanism → Bool) (r : Record) : Verdict :=
  -- The first directive that matches gives the result. Without one evaluation goes on at the
  -- redirect's target, and without that it is neutral.
  match r.directives.find? fun d => holds d.mechanism with
  | some d => .result d.qualifier
  | none =>
    match r.redirect? with
    | some target => .elsewhere (HostName.canonical target.toList)
    | none => .result .neutral

def Respelled (kind : Kind) (text text' : String) : Prop :=
  -- Two spellings that validation brings into one normal form.
  ∃ style v, validate style kind text = .ok v ∧ validate style kind text' = .ok v

def Kind.naming? (length : DualLength) (text : String) : Kind → Option Mechanism
  | inclusion => some (.inclusion text)
  | ip4 => some (.ip4 text)
  | ip6 => some (.ip6 text)
  | a => some (.a (some text) length)
  | mx => some (.mx (some text) length)
  | existence => some (.existence text)
  | redirect | all => none

/-- Which mechanisms match in a record that the domain publishes. -/
structure Assignment (domain : String) where
  holds : Mechanism → Bool
  all : holds .all = true
  a_own : ∀ length, holds (.a none length) = holds (.a (some domain) length)
  mx_own : ∀ length, holds (.mx none length) = holds (.mx (some domain) length)
  respelled : ∀ kind length text text', Respelled kind text text' →
    (kind.naming? length text).map holds = (kind.naming? length text').map holds

/-! The condition -/

namespace Record

def early (r : Record) : List Directive :=
  r.directives.takeWhile (·.mechanism ≠ .all)

def late (r : Record) : List Directive :=
  -- The first terminal and what comes behind it, which evaluation does not reach.
  r.directives.dropWhile (·.mechanism ≠ .all)

def earlyValues (r : Record) (domain : String) : List (Kind × String) :=
  r.early.filterMap (Directive.value? domain)

def lateValues (r : Record) (domain : String) : List (Kind × String) :=
  r.late.filterMap (Directive.value? domain)

structure EndsAtTerminal (r : Record) (domain : String) : Prop where
  -- Nothing new is said behind the first terminal, and in front of it a bare `a` or `mx` is loaded
  -- as one value, which a domain with blanks in it is not.
  one_domain : ∀ d ∈ r.early, d.mechanism = .a none .host ∨ d.mechanism = .mx none .host →
    Text.IsWord (Text.trim domain.toList)
  said : ∀ v ∈ r.lateValues domain, ∀ w : String,
    w.toList ∈ Text.words v.2.toList →
      ∃ u ∈ r.earlyValues domain, u.1 = v.1 ∧ Respelled v.1 u.2 w

/-- A redirect stands alone. Without one the terminal is a pass, like all else in the
record, or it comes last as far as the meaning goes. -/
def IsReloadable (r : Record) (domain : String) : Prop :=
  match r.redirect? with
  | some _ => r.directives = []
  | none => r.terminal? = some .pass ∨ r.EndsAtTerminal domain

end Record

/-! Spellings -/

/-- Two spellings of one value have one normal form in each style. -/
theorem respelled_iff (style : MacroStyle) {kind : Kind} {text text' : String} :
    Respelled kind text text' ↔
      ∃ v, validate style kind text = .ok v ∧ validate style kind text' = .ok v := by
  constructor
  · intro hx
    obtain ⟨style', v, h, h'⟩ := hx
    obtain ⟨n, hn⟩ := exists_validate_eq_ok style h
    refine ⟨n, hn, ?_⟩
    rw [← validate_normal style h', validate_normal style h, hn]
  · intro hx
    obtain ⟨v, h, h'⟩ := hx
    exact ⟨style, v, h, h'⟩

theorem Respelled.symm {kind : Kind} {text text' : String} (h : Respelled kind text text') :
    Respelled kind text' text := by
  obtain ⟨style, v, h, h'⟩ := h
  exact ⟨style, v, h', h⟩

theorem Respelled.trans {kind : Kind} {text text' text'' : String}
    (h : Respelled kind text text') (h' : Respelled kind text' text'') :
    Respelled kind text text'' := by
  obtain ⟨style, v, hv, hv'⟩ := h
  obtain ⟨v', hw, hw'⟩ := (respelled_iff style).mp h'
  obtain rfl : v' = v := Except.ok.inj (hw.symm.trans hv')
  exact ⟨style, v', hv, hw'⟩

instance (kind : Kind) (text text' : String) : Decidable (Respelled kind text text') :=
  decidable_of_iff (validate .compact kind text = validate .compact kind text' ∧
      (validate .compact kind text).isOk = true) <| by
    rw [respelled_iff .compact]
    cases validate .compact kind text <;> simp [Except.isOk, Except.toBool, eq_comm]

/-! Matches by value -/

def Assignment.holdsFor {domain : String} (M : Assignment domain) (v : Kind × String) : Bool :=
  (v.1.naming? .host v.2).any M.holds

def Assignment.HoldsForWord {domain : String} (M : Assignment domain)
    (values : List (Kind × String)) : Prop :=
  ∃ v ∈ values, ∃ w : String, w.toList ∈ Text.words v.2.toList ∧ M.holdsFor (v.1, w) = true

namespace Assignment

variable {domain : String} (M : Assignment domain)

/-- Whether a value matches does not depend on its spelling. -/
theorem holdsFor_of_respelled {kind : Kind} {text text' : String} (h : Respelled kind text text') :
    M.holdsFor (kind, text) = M.holdsFor (kind, text') := by
  have hmap := M.respelled kind .host text text' h
  have hany : ∀ m? : Option Mechanism, m?.any M.holds = (m?.map M.holds).any id := by
    intro m?
    cases m? <;> rfl
  rw [holdsFor, holdsFor, hany, hany, hmap]

/-- Whether a mechanism matches depends on its value. -/
theorem holds_of_value? {m : Mechanism} {v : Kind × String} (h : m.value? domain = some v) :
    M.holds m = M.holdsFor v := by
  cases m with
  | inclusion _ | ip4 _ | ip6 _ | existence _ =>
    obtain rfl := Option.some.inj h
    rfl
  | a target? length =>
    obtain ⟨rfl, rfl⟩ : length = .host ∧ _ = v := by simpa [Mechanism.value?] using h
    cases target? with
    | none => exact M.a_own .host
    | some target => rfl
  | mx target? length =>
    obtain ⟨rfl, rfl⟩ : length = .host ∧ _ = v := by simpa [Mechanism.value?] using h
    cases target? with
    | none => exact M.mx_own .host
    | some target => rfl
  | ptr _ | all => cases h

/-- A mechanism that is built from a value matches if the value does. -/
theorem holds_of_mechanism? {style : MacroStyle} {own raw v : String} {kind : Kind} {m : Mechanism}
    (hown : own.toList = Text.trim domain.toList) (hv : validate style kind raw = .ok v)
    (hm : kind.mechanism? own v = some m) : M.holds m = M.holdsFor (kind, raw) := by
  have hnormal : Respelled kind v raw := ⟨style, v, (validate_normal style hv).trans hv, hv⟩
  cases kind with
  | inclusion | ip4 | ip6 | existence =>
    obtain rfl := Option.some.inj hm
    exact M.holdsFor_of_respelled hnormal
  | a | mx =>
    obtain rfl := Option.some.inj hm
    cases htarget : targetBeside own v with
    | some target =>
      obtain rfl := eq_of_targetBeside_eq_some htarget
      exact M.holdsFor_of_respelled hnormal
    | none =>
      obtain ⟨-, hsame⟩ := validate_of_targetBeside_eq_none (by simp) hown hv htarget
      have hdomain : Respelled _ domain raw := ⟨style, v, (hsame style).2.trans hv, hv⟩
      rw [M.holds_of_value? rfl]
      exact M.holdsFor_of_respelled hdomain
  | redirect | all => cases hm

end Assignment

namespace Record

variable {domain : String} (M : Assignment domain)

/-- The first directive that matches decides, then the redirect, and neutral is left. -/
theorem verdict_eq (holds : Mechanism → Bool) (r : Record) : r.verdict holds =
    match (r.directives.find? fun d => holds d.mechanism).map (·.qualifier), r.redirect? with
    | some qualifier, _ => .result qualifier
    | none, some target => .elsewhere (HostName.canonical target.toList)
    | none, none => .result .neutral := by
  rw [verdict]
  cases r.directives.find? fun d => holds d.mechanism with
  | some d => rfl
  | none => cases r.redirect? <;> rfl

/-- Of directives that can all be loaded, those in front of the terminal pass, and the
terminal decides if none of them matches. -/
theorem find?_loaded {ds : List Directive}
    (h : ∀ d ∈ ds, d.mechanism = .all ∨ ∃ v, d.value? domain = some v) :
    (ds.find? fun d => M.holds d.mechanism).map (·.qualifier) =
      if ((ds.takeWhile (·.mechanism ≠ .all)).filterMap (Directive.value? domain)).any M.holdsFor
      then some .pass else (ds.find? (·.mechanism = .all)).map (·.qualifier) := by
  induction ds with
  | nil => rfl
  | cons d ds ih =>
    obtain ⟨hd, hds⟩ := List.forall_mem_cons.mp h
    by_cases hall : d.mechanism = .all
    · -- The terminal matches in any case, and nothing stands in front of it.
      simp [hall, M.all]
    · obtain ⟨v, hv⟩ := hd.resolve_left hall
      obtain ⟨hpass, hvalue⟩ := Directive.value?_eq_some_iff.mp hv
      have hsame : M.holds d.mechanism = M.holdsFor v := M.holds_of_value? hvalue
      rw [List.takeWhile_cons_of_pos (by simpa using hall), List.filterMap_cons_some hv,
        List.any_cons, List.find?_cons, List.find?_cons, hsame]
      cases hm : M.holdsFor v with
      | true => simp [hpass]
      | false => simpa [hall] using ih hds

/-- If nothing is skipped, a value in front of the terminal passes, and the terminal decides
otherwise. -/
theorem verdict_of_loaded {r : Record} (hskip : r.skipEvents domain = [])
    (hred : r.redirect? = none) : r.verdict M.holds = .result
      (if (r.earlyValues domain).any M.holdsFor then .pass
      else r.terminal?.getD .neutral) := by
  rw [verdict_eq, hred, find?_loaded M (skipEvents_eq_nil_iff.mp hskip), earlyValues, early,
    terminal?]
  split_ifs
  · rfl
  · cases r.directives.find? (·.mechanism = .all) <;> rfl

/-- A plan passes what one of its mechanisms matches and leaves the rest to its terminal. -/
theorem verdict_record {list : List Mechanism} (terminal : Qualifier) :
    (Plan.mechanisms list terminal).record.verdict M.holds =
      .result (if list.any M.holds then .pass else terminal) := by
  rw [verdict_eq, Plan.record, List.find?_append, List.find?_map, Function.comp_def]
  cases hfind : list.find? M.holds with
  | some m =>
    have hany : list.any M.holds = true :=
      List.any_eq_true.mpr ⟨m, List.mem_of_find?_eq_some hfind, List.find?_some hfind⟩
    simp [hany]
  | none =>
    have hany : list.any M.holds = false := by simpa using hfind
    simp [hany, M.all]

/-- The mechanisms of a loaded request match if one of the words of the record does. -/
theorem any_mechanisms_toRequest {style : MacroStyle} {r : Record}
    (h : (r.toRequest domain).mechanismRejections style = []) :
    ((r.toRequest domain).mechanisms style).any M.holds = true ↔
      M.HoldsForWord (r.values domain) := by
  have hown : (r.toRequest domain).ownDomain.toList = Text.trim domain.toList := by
    rw [ownDomain_toRequest, String.toList_ofList]
  have hwords := mechanismRejections_toRequest_eq_nil_iff.mp h
  -- A mechanism comes from a word, and it matches if the word does.
  simp only [List.any_eq_true, Request.mem_mechanisms]
  constructor
  · intro h'
    obtain ⟨m, ⟨kind, hkind, w, hw, n, hn, hm⟩, hholds⟩ := h'
    rw [getD_values?_toRequest r domain (Kind.ne_redirect_of_mem hkind)] at hw
    obtain ⟨text, htext, hword⟩ := mem_wordsOf.mp hw
    rw [M.holds_of_mechanism? hown hn hm] at hholds
    exact ⟨(kind, text), htext, w, hword, hholds⟩
  · intro h'
    obtain ⟨⟨kind, text⟩, htext, w, hword, hholds⟩ := h'
    have hkind := kind_mem_of_mem_values htext
    have hw : w ∈ wordsOf kind (r.values domain) := mem_wordsOf.mpr ⟨text, htext, hword⟩
    obtain ⟨n, hn⟩ := (hwords _ htext).2 w hw
    obtain ⟨m, hm⟩ := Kind.exists_mechanism? hkind (r.toRequest domain).ownDomain n
    refine ⟨m, ⟨kind, hkind, w, ?_, n, hn, hm⟩, ?_⟩
    · rwa [getD_values?_toRequest r domain (Kind.ne_redirect_of_mem hkind)]
    · rwa [M.holds_of_mechanism? hown hn hm]

theorem values_eq_append (r : Record) (domain : String) :
    r.values domain = r.earlyValues domain ++ r.lateValues domain := by
  rw [values, earlyValues, lateValues, ← List.filterMap_append, early, late,
    List.takeWhile_append_dropWhile]

/-- A value in front of the terminal is one word, apart from blanks around it. -/
theorem isWord_trim_of_mem_early {r : Record} (hnames : r.NamesWords)
    (hend : r.EndsAtTerminal domain) {v : Kind × String}
    (h : v ∈ r.earlyValues domain) : Text.IsWord (Text.trim v.2.toList) := by
  obtain ⟨d, hd, hv⟩ := List.mem_filterMap.mp h
  have hvalue := (Directive.value?_eq_some_iff.mp hv).2
  have hwords := hnames.mechanism d (List.takeWhile_subset _ hd)
  have htrim : ∀ s : List Char, Text.IsWord s → Text.IsWord (Text.trim s) :=
    fun s hs => hs.trim_eq.symm ▸ hs
  have hdomain := hend.one_domain d hd
  -- All targets were read as words. Only bare terms stand for the domain as it was given.
  cases hm : d.mechanism with
  | inclusion _ | ip4 _ | ip6 _ | existence _ =>
    rw [hm] at hwords hvalue
    obtain rfl := Option.some.inj hvalue
    exact htrim _ hwords
  | a target? length | mx target? length =>
    rw [hm] at hwords hvalue hdomain
    obtain ⟨rfl, rfl⟩ : length = .host ∧ _ = v := by simpa [Mechanism.value?] using hvalue
    cases target? with
    | none => exact hdomain (by simp)
    | some target => exact htrim _ (hwords target rfl)
  | ptr _ | all =>
    rw [hm] at hvalue
    cases hvalue

/-- With nothing new behind the terminal, a word of some value matches when a value in front
of the terminal does. -/
theorem any_early_iff {style : MacroStyle} {r : Record} (hnames : r.NamesWords)
    (hend : r.EndsAtTerminal domain)
    (h : (r.toRequest domain).mechanismRejections style = []) :
    (r.earlyValues domain).any M.holdsFor = true ↔ M.HoldsForWord (r.values domain) := by
  have hwords := mechanismRejections_toRequest_eq_nil_iff.mp h
  -- A value in front of the terminal is loaded as one word, which is a spelling of it.
  have hsame : ∀ v ∈ r.earlyValues domain, ∃ w : String,
      Text.words v.2.toList = [w.toList] ∧ M.holdsFor v = M.holdsFor (v.1, w) := by
    intro v hv
    have hvalue : v ∈ r.values domain := values_eq_append r domain ▸ List.mem_append_left _ hv
    have hword := isWord_trim_of_mem_early hnames hend hv
    have hone := Text.words_of_isWord_trim hword
    obtain ⟨w, hw⟩ : ∃ w : String, w.toList = Text.trim v.2.toList :=
      ⟨String.ofList _, String.toList_ofList⟩
    refine ⟨w, hw ▸ hone, M.holdsFor_of_respelled ?_⟩
    have hmem : w ∈ wordsOf v.1 (r.values domain) :=
      mem_wordsOf.mpr ⟨v.2, hvalue, by simp [hone, hw]⟩
    obtain ⟨n, hn⟩ := (hwords v hvalue).2 w hmem
    have htrim : Text.trim v.2.toList = Text.trim w.toList := by rw [hw, hword.trim_eq]
    exact ⟨style, n, (validate_of_toList_eq htrim).trans hn, hn⟩
  rw [List.any_eq_true]
  constructor
  · intro h'
    obtain ⟨v, hv, hholds⟩ := h'
    obtain ⟨w, hw, heq⟩ := hsame v hv
    refine ⟨v, values_eq_append r domain ▸ List.mem_append_left _ hv, w, by simp [hw], ?_⟩
    rwa [← heq]
  · intro h'
    obtain ⟨v, hv, w, hw, hholds⟩ := h'
    rw [values_eq_append, List.mem_append] at hv
    rcases hv with hv | hv
    · obtain ⟨w', hw', heq⟩ := hsame v hv
      rw [hw', List.mem_singleton, String.toList_inj] at hw
      exact ⟨v, hv, by rwa [heq, ← hw]⟩
    · obtain ⟨u, hu, hkind, hrespelled⟩ := hend.said v hv w hw
      refine ⟨u, hu, ?_⟩
      rw [← hkind] at hrespelled hholds
      exact (M.holdsFor_of_respelled hrespelled).trans hholds

end Record

/-! Assignments that tell records apart -/

def Mechanism.named? (domain : String) : Mechanism → Option (Kind × String)
  -- The kind and text that a mechanism names, whatever its length.
  | inclusion target => some (.inclusion, target)
  | ip4 network => some (.ip4, network)
  | ip6 network => some (.ip6, network)
  | existence target => some (.existence, target)
  | a target? _ => some (.a, target?.getD domain)
  | mx target? _ => some (.mx, target?.getD domain)
  | ptr _ | all => none

def Mechanism.isSpelling (domain : String) (v : Kind × String) (m : Mechanism) : Bool :=
  m = .all || (m.named? domain).any fun u => u.1 = v.1 ∧ (u.2 = v.2 ∨ Respelled v.1 v.2 u.2)

theorem Kind.map_isSpelling_naming? (domain : String) (v : Kind × String) (kind : Kind)
    (length : DualLength) (text : String) :
    (kind.naming? length text).map (Mechanism.isSpelling domain v) =
      if kind ∈ buildOrder then
        some (decide (kind = v.1 ∧ (text = v.2 ∨ Respelled v.1 v.2 text)))
      else none := by
  cases kind <;> simp [naming?, Mechanism.isSpelling, Mechanism.named?, buildOrder]

namespace Assignment

def everything (domain : String) : Assignment domain where
  holds _ := true
  all := rfl
  a_own _ := rfl
  mx_own _ := rfl
  respelled kind length text text' _ := by cases kind <;> rfl

def only (domain : String) (v : Kind × String) : Assignment domain where
  -- Nothing matches but one value in its spellings.
  holds := Mechanism.isSpelling domain v
  all := by simp [Mechanism.isSpelling]
  a_own _ := by simp [Mechanism.isSpelling, Mechanism.named?]
  mx_own _ := by simp [Mechanism.isSpelling, Mechanism.named?]
  respelled kind length text text' h := by
    have hiff : kind = v.1 ∧ (text = v.2 ∨ Respelled v.1 v.2 text) ↔
        kind = v.1 ∧ (text' = v.2 ∨ Respelled v.1 v.2 text') := by
      apply and_congr_right
      intro hkind
      rw [hkind] at h
      constructor
      · intro h'
        rcases h' with rfl | htext
        · exact .inr h
        · exact .inr (htext.trans h)
      · intro h'
        rcases h' with rfl | htext
        · exact .inr h.symm
        · exact .inr (htext.trans h.symm)
    rw [Kind.map_isSpelling_naming?, Kind.map_isSpelling_naming?, decide_eq_decide.mpr hiff]

/-- Under the assignment for one value only its spellings match. -/
theorem holdsFor_only {domain : String} {v u : Kind × String} :
    (only domain v).holdsFor u = true ↔
      u.1 ∈ Kind.buildOrder ∧ u.1 = v.1 ∧ (u.2 = v.2 ∨ Respelled v.1 v.2 u.2) := by
  have hany : (only domain v).holdsFor u =
      ((u.1.naming? .host u.2).map (Mechanism.isSpelling domain v)).any id := by
    rw [holdsFor, Option.any_map]
    rfl
  rw [hany, Kind.map_isSpelling_naming?]
  split_ifs with hkind
  · simp [hkind]
  · simp [hkind]

end Assignment

/-- A bare `a` or `mx` that can be loaded is loaded as the domain. -/
theorem Directive.value?_of_bare {domain : String} {d : Directive}
    (h : d.mechanism = .all ∨ ∃ v, d.value? domain = some v)
    (hbare : d.mechanism = .a none .host ∨ d.mechanism = .mx none .host) :
    ∃ kind, (kind = .a ∨ kind = .mx) ∧ d.value? domain = some (kind, domain) := by
  have hall : d.mechanism ≠ .all := by
    rcases hbare with hm | hm <;> simp [hm]
  obtain ⟨v, hv⟩ := h.resolve_left hall
  obtain ⟨-, hvalue⟩ := Directive.value?_eq_some_iff.mp hv
  rw [hv]
  rcases hbare with hm | hm
  · rw [hm] at hvalue
    exact ⟨.a, .inl rfl, hvalue.symm⟩
  · rw [hm] at hvalue
    exact ⟨.mx, .inr rfl, hvalue.symm⟩

namespace Record

theorem isWord_trim_of_validate {style : MacroStyle} {kind : Kind} {raw v : String}
    (hkind : kind = .a ∨ kind = .mx) (h : validate style kind raw = .ok v) :
    Text.IsWord (Text.trim raw.toList) := by
  have hname : Validation.hostName (Text.trim raw.toList) = .ok v.toList := by
    rcases hkind with rfl | rfl <;> exact validate_eq_ok_iff.mp h
  obtain ⟨hfull, -⟩ := Validation.hostName_eq_ok_iff.mp hname
  exact HostName.isWord_of_isLabelList (HostName.isLabelList_of_isFull hfull)

/-- If no assignment tells the values in front of the terminal from the words of all values,
then nothing new is said behind it. -/
theorem endsAtTerminal_of_any_early_iff {domain : String} {style : MacroStyle} {r : Record}
    (hskip : r.skipEvents domain = [])
    (h : (r.toRequest domain).mechanismRejections style = [])
    (hiff : ∀ M : Assignment domain,
      (r.earlyValues domain).any M.holdsFor = true ↔ M.HoldsForWord (r.values domain)) :
    r.EndsAtTerminal domain := by
  constructor
  · intro d hd hbare
    have hloaded := skipEvents_eq_nil_iff.mp hskip d (List.takeWhile_subset _ hd)
    obtain ⟨kind, hkind, hv⟩ := Directive.value?_of_bare hloaded hbare
    have hearly : (kind, domain) ∈ r.earlyValues domain := List.mem_filterMap.mpr ⟨d, hd, hv⟩
    have horder : kind ∈ Kind.buildOrder :=
      Mechanism.kind_mem_of_value? (Directive.value?_eq_some_iff.mp hv).2
    -- If only the unsaid domain matches, then one of its words must match with it.
    have hany : (r.earlyValues domain).any
        (Assignment.only domain (kind, domain)).holdsFor = true :=
      List.any_eq_true.mpr ⟨_, hearly, Assignment.holdsFor_only.mpr ⟨horder, rfl, .inl rfl⟩⟩
    obtain ⟨v, -, w, hw, hholds⟩ := (hiff (Assignment.only domain (kind, domain))).mp hany
    obtain ⟨-, -, rfl | ⟨style', n, hn, -⟩⟩ := Assignment.holdsFor_only.mp hholds
    · have hword := Text.isWord_of_mem_words hw
      exact hword.trim_eq.symm ▸ hword
    · exact isWord_trim_of_validate hkind hn
  · intro v hv w hw
    have hvalue : v ∈ r.values domain := values_eq_append r domain ▸ List.mem_append_right _ hv
    obtain ⟨n, hn⟩ := (mechanismRejections_toRequest_eq_nil_iff.mp h v hvalue).2 w
      (mem_wordsOf.mpr ⟨v.2, hvalue, hw⟩)
    -- If only this word matches, then a value in front of the terminal must.
    have hword : (Assignment.only domain (v.1, w)).holdsFor (v.1, w) = true :=
      Assignment.holdsFor_only.mpr ⟨kind_mem_of_mem_values (v := v) hvalue, rfl, .inl rfl⟩
    have hany := (hiff (Assignment.only domain (v.1, w))).mpr ⟨v, hvalue, w, hw, hword⟩
    obtain ⟨u, hu, hholds⟩ := List.any_eq_true.mp hany
    obtain ⟨-, hkind, htext⟩ := Assignment.holdsFor_only.mp hholds
    refine ⟨u, hu, hkind, ?_⟩
    rcases htext with htext | htext
    · rw [htext]
      exact ⟨style, n, hn, hn⟩
    · exact htext.symm

/-- A record with a redirect means the same after a reload exactly if it has no directives. -/
theorem verdict_redirect_iff {style : MacroStyle} {domain target : String} {r : Record} {p : Plan}
    (hnames : r.NamesWords) (hred : r.redirect? = some target)
    (hplan : (r.toRequest domain).plan style = .ok p) :
    (∀ M : Assignment domain, p.record.verdict M.holds = r.verdict M.holds) ↔
      r.directives = [] := by
  obtain ⟨-, -, ⟨-, target', htarget, rfl⟩ | ⟨hoff, -⟩⟩ := Request.plan_eq_ok_iff.mp hplan
  · -- The target is one word, so it is the one that is looked at.
    have hword := hnames.redirect target hred
    obtain ⟨raw, hraw, hvalid⟩ := Request.redirectTarget_eq_ok_iff.mp htarget
    obtain rfl : target = raw := by
      simpa [redirectValues_toRequest hred, hword.words_eq] using hraw
    obtain ⟨hfull, hcanonical⟩ : HostName.isFull target.toList = true ∧
        target'.toList = HostName.canonical target.toList :=
      Validation.hostName_eq_ok_iff.mp (hword.trim_eq ▸ validate_eq_ok_iff.mp hvalid)
    have hrecord : ∀ M : Assignment domain, (Plan.redirect target').record.verdict M.holds =
        .elsewhere (HostName.canonical target.toList) := by
      intro M
      simp [verdict, Plan.record, hcanonical, HostName.canonical_canonical hfull]
    simp only [hrecord]
    constructor
    · intro h
      -- If everything matches, evaluation gets past no directive.
      have heverything := h (.everything domain)
      cases hds : r.directives with
      | nil => rfl
      | cons d ds => simp [verdict, hds, Assignment.everything] at heverything
    · intro hnil M
      simp [verdict, hnil, hred]
  · simp [hred] at hoff

/-- A record without a redirect means the same after a reload exactly if its terminal passes, like
all else in it, or if nothing new is said behind the terminal and each bare term stands for one
domain. -/
theorem verdict_mechanisms_iff {style : MacroStyle} {domain : String} {r : Record} {p : Plan}
    (hnames : r.NamesWords) (hskip : r.skipEvents domain = []) (hred : r.redirect? = none)
    (hplan : (r.toRequest domain).plan style = .ok p) :
    (∀ M : Assignment domain, p.record.verdict M.holds = r.verdict M.holds) ↔
      r.terminal? = some .pass ∨ r.EndsAtTerminal domain := by
  obtain ⟨-, hrejections, ⟨hon, -⟩ | ⟨-, rfl⟩⟩ := Request.plan_eq_ok_iff.mp hplan
  · simp [hred] at hon
  · have hpass : r.terminal? = some .pass ↔ r.terminal?.getD .neutral = .pass := by
      cases r.terminal? <;> simp
    have hsame : ∀ a b : Bool, ∀ q : Qualifier, q ≠ .pass →
        (Verdict.result (if a then .pass else q) = .result (if b then .pass else q) ↔
          (b = true ↔ a = true)) := by
      intro a b q hq
      cases a <;> cases b <;> simp [hq, hq.symm]
    simp only [verdict_record, verdict_of_loaded _ hskip hred, qualifier_toRequest, hpass]
    by_cases hq : r.terminal?.getD .neutral = .pass
    · -- Whatever matches, both records pass.
      simp [hq]
    · simp only [hsame _ _ _ hq, any_mechanisms_toRequest _ hrejections, hq, false_or]
      constructor
      · exact endsAtTerminal_of_any_early_iff hskip hrejections
      · exact fun hend M => any_early_iff M hnames hend hrejections

end Record

/-- A record that can be loaded without a warning, and built again, has in all cases the
meaning that it had if and only if it is reloadable: a redirect stands alone in it, and
otherwise everything passes or nothing new is said behind the first terminal. -/
theorem reload_keeps_verdict_iff {text text' domain : String} {r : Record} {s : Settings}
    (hread : Record.ofText text = .ok r) (hskip : r.skipEvents domain = [])
    (hbuild : s.build (r.toRequest domain) = .record text') :
    ∃ r', Record.ofText text' = .ok r' ∧
      ((∀ M : Assignment domain, r'.verdict M.holds = r.verdict M.holds) ↔
        r.IsReloadable domain) := by
  have hnames := Record.namesWords_of_ofText hread
  obtain ⟨p, hplan, rfl⟩ := Settings.build_eq_record_iff.mp hbuild
  refine ⟨p.record, Request.ofText_render hplan, ?_⟩
  rw [Record.IsReloadable]
  -- A redirect in the record switches the request, whatever else there is.
  cases hred : r.redirect? with
  | some target => exact Record.verdict_redirect_iff hnames hred hplan
  | none => exact Record.verdict_mechanisms_iff hnames hskip hred hplan

/-- Two mechanisms change places, and one of them its spelling. -/
theorem reload_keeps_verdict_reordered :
    let r : Record := ⟨[⟨.pass, .mx none .host⟩, ⟨.pass, .a (some "MAIL.example.com") .host⟩,
      ⟨.fail, .all⟩], none, none⟩
    Record.ofText "v=spf1 mx a:MAIL.example.com -all" = .ok r ∧ r.skipEvents "example.com" = [] ∧
      (default : Settings).build (r.toRequest "example.com") =
        .record "v=spf1 a:mail.example.com mx -all" ∧
      ∃ r', Record.ofText "v=spf1 a:mail.example.com mx -all" = .ok r' ∧
        ∀ M : Assignment "example.com", r'.verdict M.holds = r.verdict M.holds := by
  intro r
  have hread : Record.ofText "v=spf1 mx a:MAIL.example.com -all" = .ok r := by decide +kernel
  have hskip : r.skipEvents "example.com" = [] := by decide +kernel
  have hbuild : (default : Settings).build (r.toRequest "example.com") =
      .record "v=spf1 a:mail.example.com mx -all" := by decide +kernel
  have hdomain : Text.trim "example.com".toList = "example.com".toList := by decide +kernel
  have hlate : r.lateValues "example.com" = [] := rfl
  have hend : r.EndsAtTerminal "example.com" := by
    refine ⟨fun _ _ _ => ?_, by simp [hlate]⟩
    exact hdomain ▸ Text.isWord_of_all_graphic (by decide)
  obtain ⟨r', hr', hiff⟩ := reload_keeps_verdict_iff hread hskip hbuild
  exact ⟨hread, hskip, hbuild, r', hr', hiff.mpr (.inr hend)⟩

/-- An address behind the terminal gets in front of it, so that what failed passes. -/
theorem reload_verdict_behind_terminal :
    ¬ ∀ (text text' domain : String) (r : Record) (s : Settings), Record.ofText text = .ok r →
      r.skipEvents domain = [] → s.build (r.toRequest domain) = .record text' →
        ∃ r', Record.ofText text' = .ok r' ∧
          ∀ M : Assignment domain, r'.verdict M.holds = r.verdict M.holds := by
  intro h
  obtain ⟨r', hr', hverdict⟩ := h "v=spf1 -all ip4:192.0.2.1" "v=spf1 ip4:192.0.2.1 -all"
    "example.com" ⟨[⟨.fail, .all⟩, ⟨.pass, .ip4 "192.0.2.1"⟩], none, none⟩ default
    (by decide +kernel) (by decide +kernel) (by decide +kernel)
  have hread : Record.ofText "v=spf1 ip4:192.0.2.1 -all" =
      .ok ⟨[⟨.pass, .ip4 "192.0.2.1"⟩, ⟨.fail, .all⟩], none, none⟩ := by decide +kernel
  obtain rfl := Except.ok.inj (hread.symm.trans hr')
  exact absurd (hverdict (.everything "example.com")) (by decide)

end SenderPolicy

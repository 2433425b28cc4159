import Mathlib.Logic.Relation
import SenderPolicy.Proofs.Rejections

/-! What a build looks at: the canonical name of the domain, the two switches, for each kind
the values of the last entry if that is enabled, and the redirect's first value. Requests
that agree in this are built alike. The order of entries of different kinds, entries that
are replaced by later ones, and the blanks among values make no difference in it. -/
namespace SenderPolicy

/-! Blanks among values -/

inductive Respaced : List String → List String → Prop
  -- One change of the blanks among raw values: a raw value is cut in two at a blank, or one that
  -- holds nothing but blanks is left out.
  | cut (before after : List String) (x y : List Char) {c : Char} : Text.isBlank c = true →
      Respaced (before ++ String.ofList (x ++ c :: y) :: after)
        (before ++ String.ofList x :: String.ofList y :: after)
  | drop (before after : List String) {blanks : List Char} :
      (∀ c ∈ blanks, Text.isBlank c = true) →
        Respaced (before ++ String.ofList blanks :: after) (before ++ after)

/-- Blanks between single values, and empty raw values, do not count. -/
theorem tokens_of_respaced (e : Entry) {raws raws' : List String} (h : Respaced raws raws') :
    ({ e with rawValues := raws } : Entry).tokens =
      ({ e with rawValues := raws' } : Entry).tokens := by
  cases h with
  | cut before after x y hc => simp [Entry.tokens, Text.words_append_blank hc]
  | drop before after hblanks => simp [Entry.tokens, Text.words_of_blanks hblanks]

/-- Any number of changes, made or undone, leave the single values as they are. -/
theorem tokens_of_eqvGen (e : Entry) {raws raws' : List String}
    (h : Relation.EqvGen Respaced raws raws') :
    ({ e with rawValues := raws } : Entry).tokens =
      ({ e with rawValues := raws' } : Entry).tokens := by
  induction h with
  | rel raws raws' h => exact tokens_of_respaced e h
  | refl raws => rfl
  | symm raws raws' _ ih => exact ih.symm
  | trans raws raws' raws'' _ _ ih ih' => exact ih.trans ih'

def contentsOf (kind : Kind) (es : List Entry) : List (Bool × List String) :=
  (es.filter (·.kind = kind)).map fun e => (e.enabled, e.tokens)

theorem contentsOf_append (kind : Kind) (es es' : List Entry) :
    contentsOf kind (es ++ es') = contentsOf kind es ++ contentsOf kind es' := by
  rw [contentsOf, List.filter_append, List.map_append, contentsOf, contentsOf]

theorem contentsOf_cons (kind : Kind) (e : Entry) (es : List Entry) :
    contentsOf kind (e :: es) = if e.kind = kind then (e.enabled, e.tokens) :: contentsOf kind es
      else contentsOf kind es := by
  by_cases h : e.kind = kind <;> simp [contentsOf, h]

namespace Request

/-! Values in force -/

def Asks (q : Request) (kind : Kind) (values : List String) : Prop :=
  -- The entry in force is enabled and holds these values.
  ∃ e, q.InForce kind e ∧ e.enabled = true ∧ e.tokens = values

def Target (q : Request) (value : String) : Prop :=
  -- The first value of the redirect's entry in force, which may be disabled.
  ∃ e, q.InForce .redirect e ∧ e.tokens.head? = some value

theorem asks_iff {q : Request} {kind : Kind} {values : List String} :
    q.Asks kind values ↔ q.values? kind = some values := by
  simp only [Asks, ← entry?_eq_some_iff, values?, Option.map_eq_some_iff,
    Option.filter_eq_some_iff, and_assoc]

theorem target_iff {q : Request} {value : String} :
    q.Target value ↔ q.redirectValues.head? = some value := by
  simp only [Target, ← entry?_eq_some_iff, redirectValues]
  cases q.entry? .redirect <;> simp

/-- The entry in force is the last one of its kind. -/
theorem entry?_eq_getLast? (q : Request) (kind : Kind) :
    q.entry? kind = (q.entries.filter (·.kind = kind)).getLast? := by
  unfold entry?
  rw [← List.head?_filter, List.filter_reverse, List.head?_reverse]

/-- Only the last entry of a kind decides whether values are asked for, and which. -/
theorem values?_eq (q : Request) (kind : Kind) :
    q.values? kind = ((contentsOf kind q.entries).getLast?.filter (·.1)).map (·.2) := by
  rw [values?, entry?_eq_getLast?, contentsOf, List.getLast?_map]
  cases (q.entries.filter (·.kind = kind)).getLast? with
  | none => rfl
  | some e => cases h : e.enabled <;> simp [Option.filter, h]

theorem redirectValues_eq (q : Request) :
    q.redirectValues = ((contentsOf .redirect q.entries).getLast?.map (·.2)).getD [] := by
  rw [redirectValues, entry?_eq_getLast?, contentsOf, List.getLast?_map]
  cases (q.entries.filter (·.kind = .redirect)).getLast? <;> rfl

/-- Two lists of entries give the same plan if the last contents of each kind are the same. -/
theorem plan_of_contentsOf (style : MacroStyle) {q : Request} {es : List Entry}
    (h : ∀ kind, (contentsOf kind es).getLast? = (contentsOf kind q.entries).getLast?) :
    ({ q with entries := es } : Request).plan style = q.plan style := by
  refine plan_congr Iff.rfl rfl rfl rfl (fun kind _ => ?_) fun _ => redirectTarget_congr ?_ style
  · rw [values?_eq, values?_eq, h]
  · rw [redirectValues_eq, redirectValues_eq, h]

/-! Changes of the entries -/

/-- Entries of different kinds may change places. -/
theorem plan_reorder (style : MacroStyle) {q : Request} {es : List Entry}
    (h : ∀ kind, es.filter (·.kind = kind) = q.entries.filter (·.kind = kind)) :
    ({ q with entries := es } : Request).plan style = q.plan style := by
  apply plan_of_contentsOf
  intro kind
  rw [contentsOf, contentsOf, h kind]

/-- An entry in front of another one of its kind is never looked at. -/
theorem plan_insert_shadowed (style : MacroStyle) {q : Request} {before after : List Entry}
    {e : Entry} (h : q.entries = before ++ after) (hlater : ∃ e' ∈ after, e'.kind = e.kind) :
    ({ q with entries := before ++ e :: after } : Request).plan style = q.plan style := by
  apply plan_of_contentsOf
  intro kind
  rw [h, contentsOf_append, contentsOf_append, contentsOf_cons]
  split
  next hkind =>
    obtain ⟨e', he', hsame⟩ := hlater
    have hne : contentsOf kind after ≠ [] := by
      have hmem : e' ∈ after.filter (·.kind = kind) := by simp [he', hsame, hkind]
      simpa [contentsOf] using List.ne_nil_of_mem hmem
    -- The last one is behind the new entry, which it does not notice.
    rw [List.getLast?_append_of_ne_nil _ hne,
      List.getLast?_append_of_ne_nil _ (List.cons_ne_nil _ _), List.getLast?_cons_of_ne_nil hne]
  next => rfl

/-- A plan sees the single values of an entry and not how they are written down. -/
theorem plan_respace (style : MacroStyle) {q : Request} {before after : List Entry} {e : Entry}
    {raws : List String} (h : q.entries = before ++ e :: after)
    (hraws : Relation.EqvGen Respaced e.rawValues raws) :
    ({ q with entries := before ++ { e with rawValues := raws } :: after } : Request).plan style =
      q.plan style := by
  have htokens : e.tokens = ({ e with rawValues := raws } : Entry).tokens :=
    tokens_of_eqvGen e hraws
  apply plan_of_contentsOf
  intro kind
  rw [h, contentsOf_append, contentsOf_append, contentsOf_cons, contentsOf_cons, htokens]

/-! The same content -/

/-- Two requests that a build cannot tell apart. Where no entry for a kind is in force and
enabled, neither of them asks for any values. -/
structure SameContent (q q' : Request) : Prop where
  hasDomain : q.HasDomain
  hasDomain' : q'.HasDomain
  name : HostName.canonical (Text.trim q.domain.toList) =
    HostName.canonical (Text.trim q'.domain.toList)
  qualifier : q.qualifier = q'.qualifier
  redirectEnabled : q.redirectEnabled = q'.redirectEnabled
  asks : ∀ kind ≠ .redirect, ∀ values, q.Asks kind values ↔ q'.Asks kind values
  target : q.redirectEnabled = true → ∀ value, q.Target value ↔ q'.Target value

/-- Requests in which look-ups find the same values have the same content. -/
theorem sameContent_of_values {q q' : Request} (hdomain : q.HasDomain) (hdomain' : q'.HasDomain)
    (hname : HostName.canonical (Text.trim q.domain.toList) =
      HostName.canonical (Text.trim q'.domain.toList))
    (hqualifier : q.qualifier = q'.qualifier) (henabled : q.redirectEnabled = q'.redirectEnabled)
    (hvalues : ∀ kind ≠ .redirect, q.values? kind = q'.values? kind)
    (htarget : q.redirectValues.head? = q'.redirectValues.head?) : q.SameContent q' where
  hasDomain := hdomain
  hasDomain' := hdomain'
  name := hname
  qualifier := hqualifier
  redirectEnabled := henabled
  asks := by
    intro kind hkind values
    rw [asks_iff, asks_iff, hvalues kind hkind]
  target := by
    intro _ value
    rw [target_iff, target_iff, htarget]

/-- Requests of the same content are planned alike, rejections included. -/
theorem SameContent.plan_eq {q q' : Request} (h : q.SameContent q') (style : MacroStyle) :
    q.plan style = q'.plan style := by
  have hblank : q.ownDomain = "" ↔ q'.ownDomain = "" := by
    simp [ownDomain_eq_empty_iff, h.hasDomain, h.hasDomain']
  have hname : HostName.canonical q.ownDomain.toList = HostName.canonical q'.ownDomain.toList := by
    rw [ownDomain, ownDomain, String.toList_ofList, String.toList_ofList, h.name]
  refine plan_congr hblank hname h.redirectEnabled h.qualifier (fun kind hkind => ?_) fun hon => ?_
  · apply Option.ext
    intro values
    rw [← asks_iff, ← asks_iff, h.asks kind hkind]
  · apply redirectTarget_congr
    apply Option.ext
    intro value
    rw [← target_iff, ← target_iff, h.target (h.redirectEnabled.trans hon)]

end Request

/-- A build tells two requests apart by their content only. So it does not depend on the
order of entries of different kinds, on an entry in front of another one of its kind, or on
how the values are spread over blanks and raw values. -/
theorem build_depends_on_content (s : Settings) (q : Request) :
    (∀ q', q.SameContent q' → s.build q = s.build q') ∧
      (∀ es : List Entry,
        (∀ kind, es.filter (·.kind = kind) = q.entries.filter (·.kind = kind)) →
          s.build { q with entries := es } = s.build q) ∧
      (∀ before e after, q.entries = before ++ after → (∃ e' ∈ after, e'.kind = e.kind) →
        s.build { q with entries := before ++ e :: after } = s.build q) ∧
      ∀ before e after raws, q.entries = before ++ e :: after →
        Relation.EqvGen Respaced e.rawValues raws →
          s.build { q with entries := before ++ { e with rawValues := raws } :: after } =
            s.build q := by
  refine ⟨fun q' h => Settings.build_congr (h.plan_eq _), fun es h => ?_,
    fun before e after h hlater => ?_, fun before e after raws h hraws => ?_⟩
  · exact Settings.build_congr (Request.plan_reorder _ h)
  · exact Settings.build_congr (Request.plan_insert_shadowed _ h hlater)
  · exact Settings.build_congr (Request.plan_respace _ h hraws)

/-- The same content in another order, with another spelling of the domain, an idle entry,
an entry that is replaced, and a no-break space for a break between values. One pair of requests
is rejected, as it asks for a redirect to nowhere and one value is bad, and one is built. -/
theorem build_depends_on_content_spellings :
    let ip4 : Entry := .of .ip4 ["192.0.2.1"]
    let a : Entry := .of .a ["example.com\u00a0bad", ""]
    let b : Entry := .of .a ["example.com\u00a0Mail.Example.NET.", ""]
    let q : Request := ⟨" Example.COM. ", [a, ip4], true, .fail⟩
    let q' : Request := ⟨"example.com", [.of .ip4 ["bad"], ip4, ⟨.mx, false, ["bad"]⟩,
      { a with rawValues := ["example.com", "bad"] }], true, .fail⟩
    let p : Request := ⟨" Example.COM. ", [b, ip4], false, .fail⟩
    let p' : Request := ⟨"example.com", [.of .ip4 ["bad"], ip4, ⟨.mx, false, ["bad"]⟩,
      { b with rawValues := ["example.com", "Mail.Example.NET."] }], false, .fail⟩
    (default : Settings).build q = .rejected [⟨some .a, .invalidDomain, some "bad"⟩,
        ⟨some .redirect, .missingRedirect, none⟩] ∧
      (default : Settings).build q = (default : Settings).build q' ∧
      (default : Settings).build { q with entries := [ip4, a] } = (default : Settings).build q ∧
      (default : Settings).build { q with entries := [a, .of .ip4 ["bad"], ip4] } =
        (default : Settings).build q ∧
      (default : Settings).build
          { q with entries := [{ a with rawValues := ["example.com", "bad"] }, ip4] } =
        (default : Settings).build q ∧
      (default : Settings).build p = .record "v=spf1 ip4:192.0.2.1 a a:mail.example.net -all" ∧
      (default : Settings).build p = (default : Settings).build p' := by
  intro ip4 a b q q' p p'
  obtain ⟨hsame, hreorder, hshadowed, hrespaced⟩ := build_depends_on_content default q
  have hspelling : HostName.canonical (Text.trim " Example.COM. ".toList) =
      HostName.canonical (Text.trim "example.com".toList) := by decide +kernel
  have hcontent : q.SameContent q' := by
    refine Request.sameContent_of_values ⟨'E', by decide +kernel, by decide⟩
      ⟨'e', by decide +kernel, by decide⟩ hspelling rfl rfl (fun kind hkind => ?_)
      (by decide +kernel)
    cases kind with
    | redirect => exact absurd rfl hkind
    | _ => decide +kernel
  have hcontent' : p.SameContent p' := by
    refine Request.sameContent_of_values ⟨'E', by decide +kernel, by decide⟩
      ⟨'e', by decide +kernel, by decide⟩ hspelling rfl rfl (fun kind hkind => ?_)
      (by decide +kernel)
    cases kind with
    | redirect => exact absurd rfl hkind
    | _ => decide +kernel
  have hraws : Relation.EqvGen Respaced a.rawValues ["example.com", "bad"] := by
    have hcut := Respaced.cut [] [""] "example.com".toList "bad".toList
      (by decide : Text.isBlank '\u00a0' = true)
    have hdrop := Respaced.drop ["example.com", "bad"] [] (List.forall_mem_nil _)
    exact .trans _ _ _ (.rel _ _ hcut) (.rel _ _ hdrop)
  refine ⟨by decide +kernel, hsame q' hcontent, hreorder [ip4, a] fun kind => ?_,
    hshadowed [a] (.of .ip4 ["bad"]) [ip4] rfl ⟨ip4, by simp, rfl⟩,
    hrespaced [] a [ip4] _ rfl hraws, by decide +kernel,
    (build_depends_on_content default p).1 p' hcontent'⟩
  cases kind <;> rfl

end SenderPolicy

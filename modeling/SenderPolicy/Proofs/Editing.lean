import SenderPolicy.Proofs.Content

/-! Setting an entry replaces the first one of its kind, and the last one is in force. So a new
entry takes effect as long as its kind is not repeated, and is hidden otherwise. -/
namespace SenderPolicy

/-- The new entry takes the place of the first one of its kind. -/
theorem filter_setEntry (kind : Kind) (new : Entry) (es : List Entry) :
    (setEntry new es).filter (·.kind = kind) =
      if kind = new.kind then new :: (es.filter (·.kind = kind)).tail
      else es.filter (·.kind = kind) := by
  induction es with
  | nil =>
    by_cases h : kind = new.kind
    · simp [setEntry, h]
    · simp [setEntry, h, Ne.symm h]
  | cons e es ih =>
    rw [setEntry]
    by_cases he : e.kind = new.kind
    · by_cases h : kind = new.kind
      · simp [he, h]
      · simp [he, h, Ne.symm h]
    · rw [if_neg he, List.filter_cons, ih]
      by_cases h : kind = new.kind
      · simp [h, he]
      · simp [h, List.filter_cons]

namespace Request

def Repeats (q : Request) (kind : Kind) : Prop :=
  1 < (q.entries.filter (·.kind = kind)).length

def replace (q : Request) (new : Entry) : Request :=
  -- The request with the new entry for all the entries of its kind.
  { q with entries := q.entries.filter (·.kind ≠ new.kind) ++ [new] }

instance (q : Request) (kind : Kind) : Decidable (q.Repeats kind) :=
  inferInstanceAs (Decidable (1 < _))

/-- A new entry has come into force, the entries in force for other kinds have stayed, and a
build sees nothing of the entries that were there for its kind. -/
structure TakesEffect (q q' : Request) (new : Entry) : Prop where
  inForce : q'.entry? new.kind = some new
  others : ∀ kind ≠ new.kind, q'.entry? kind = q.entry? kind
  build : ∀ s : Settings, s.build q' = s.build (q.replace new)

structure Unnoticed (q q' : Request) : Prop where
  -- The change is not noticed: all entries in force have stayed, and builds give the same.
  inForce : ∀ kind, q'.entry? kind = q.entry? kind
  build : ∀ s : Settings, s.build q' = s.build q

/-! Entries in force after a change -/

/-- Two requests that differ in entries which are not in force are planned alike. -/
theorem plan_of_same_entries (style : MacroStyle) {q q' : Request} (hdomain : q.domain = q'.domain)
    (hred : q.redirectEnabled = q'.redirectEnabled) (hqualifier : q.qualifier = q'.qualifier)
    (h : ∀ kind, q.entry? kind = q'.entry? kind) : q.plan style = q'.plan style := by
  have hown : q.ownDomain = q'.ownDomain := by rw [ownDomain, ownDomain, hdomain]
  refine plan_congr (by rw [hown]) (by rw [hown]) hred hqualifier (fun kind _ => ?_)
    fun _ => redirectTarget_congr ?_ style
  · rw [values?, values?, h]
  · rw [redirectValues, redirectValues, h]

theorem entry?_replace (q : Request) (new : Entry) (kind : Kind) :
    Request.entry? (q.replace new) kind = if kind = new.kind then some new else q.entry? kind := by
  rw [entry?_eq_getLast?, entry?_eq_getLast?, replace, List.filter_append, List.filter_filter]
  by_cases h : kind = new.kind
  · simp [h]
  · have hsame : q.entries.filter (fun e => decide (e.kind = kind) && decide (e.kind ≠ new.kind)) =
        q.entries.filter (·.kind = kind) := by
      apply List.filter_congr
      intro e _
      by_cases he : e.kind = kind
      · simp [he, h]
      · simp [he]
    have hnew : [new].filter (·.kind = kind) = [] := by simpa using Ne.symm h
    rw [hsame, hnew, List.append_nil, if_neg h]

/-- Setting an entry leaves the entries of other kinds in force. -/
theorem entry?_set_of_ne (q : Request) {new : Entry} {kind : Kind} (h : kind ≠ new.kind) :
    Request.entry? (q.set new) kind = q.entry? kind := by
  rw [entry?_eq_getLast?, entry?_eq_getLast?, set, filter_setEntry, if_neg h]

theorem entry?_set_of_not_repeats {q : Request} {new : Entry} (h : ¬ q.Repeats new.kind) :
    Request.entry? (q.set new) new.kind = some new := by
  have htail : (q.entries.filter (·.kind = new.kind)).tail = [] := by
    rw [← List.length_eq_zero_iff, List.length_tail]
    rw [Repeats] at h
    omega
  rw [entry?_eq_getLast?, set, filter_setEntry, if_pos rfl, htail]
  rfl

/-- The last entry of a repeated kind stays where it is. -/
theorem entry?_set_of_repeats {q : Request} {new : Entry} (h : q.Repeats new.kind) :
    Request.entry? (q.set new) new.kind = q.entry? new.kind := by
  rw [entry?_eq_getLast?, entry?_eq_getLast?, set, filter_setEntry, if_pos rfl]
  rw [Repeats] at h
  cases hentries : q.entries.filter (·.kind = new.kind) with
  | nil => simp [hentries] at h
  | cons e es =>
    have hes : es ≠ [] := by
      rintro rfl
      simp [hentries] at h
    rw [List.tail_cons, List.getLast?_cons_of_ne_nil hes, List.getLast?_cons_of_ne_nil hes]

theorem takesEffect_of_inForce {q : Request} {new : Entry}
    (h : Request.entry? (q.set new) new.kind = some new) : TakesEffect q (q.set new) new := by
  have hentry : ∀ kind, Request.entry? (q.set new) kind = Request.entry? (q.replace new) kind := by
    intro kind
    rw [entry?_replace]
    by_cases hkind : kind = new.kind
    · rw [if_pos hkind, hkind, h]
    · rw [if_neg hkind, q.entry?_set_of_ne hkind]
  refine ⟨h, fun kind hkind => q.entry?_set_of_ne hkind, fun s => Settings.build_congr ?_⟩
  exact plan_of_same_entries s.macroStyle (by rfl) (by rfl) (by rfl) hentry

/-- Setting an entry takes effect unless its kind is repeated and ends in another entry. -/
theorem takesEffect_set_iff (q : Request) (new : Entry) :
    TakesEffect q (q.set new) new ↔ ¬ q.Repeats new.kind ∨ q.entry? new.kind = some new := by
  by_cases hrepeats : q.Repeats new.kind
  · rw [or_iff_right (not_not_intro hrepeats), ← entry?_set_of_repeats hrepeats]
    exact ⟨TakesEffect.inForce, takesEffect_of_inForce⟩
  · exact iff_of_true (takesEffect_of_inForce (entry?_set_of_not_repeats hrepeats)) (.inl hrepeats)

/-- Where a kind is repeated, setting it changes nothing that can be noticed. -/
theorem unnoticed_set_of_repeats (q : Request) {new : Entry} (h : q.Repeats new.kind) :
    Unnoticed q (q.set new) := by
  have hentry : ∀ kind, Request.entry? (q.set new) kind = q.entry? kind := by
    intro kind
    by_cases hkind : kind = new.kind
    · rw [hkind, entry?_set_of_repeats h]
    · rw [q.entry?_set_of_ne hkind]
  exact ⟨hentry, fun s => Settings.build_congr
    (plan_of_same_entries s.macroStyle (by rfl) (by rfl) (by rfl) hentry)⟩

end Request

/-- A new entry takes effect exactly if its kind is not repeated in the request, or if the last
entry of the kind is the same already. For a repeated kind it goes unnoticed. The values of a
kind and the target of a redirect are set in the same way. -/
theorem setting_takes_effect_iff (q : Request) :
    (∀ new : Entry,
        (q.TakesEffect (q.set new) new ↔
          ¬ q.Repeats new.kind ∨ q.entry? new.kind = some new) ∧
        (q.Repeats new.kind → q.Unnoticed (q.set new))) ∧
      (∀ kind values,
        (q.TakesEffect (q.withValues kind values) ⟨kind, true, values⟩ ↔
          ¬ q.Repeats kind ∨ q.entry? kind = some ⟨kind, true, values⟩) ∧
        (q.Repeats kind → q.Unnoticed (q.withValues kind values))) ∧
      ∀ target,
        let switched : Request := { q with redirectEnabled := true }
        (q.withRedirect target).redirectEnabled = true ∧
        (switched.TakesEffect (q.withRedirect target) ⟨.redirect, true, [target]⟩ ↔
          ¬ q.Repeats .redirect ∨ q.entry? .redirect = some ⟨.redirect, true, [target]⟩) ∧
        (q.Repeats .redirect → switched.Unnoticed (q.withRedirect target)) := by
  refine ⟨fun new => ⟨q.takesEffect_set_iff new, q.unnoticed_set_of_repeats⟩,
    fun kind values => ⟨q.takesEffect_set_iff (.of kind values), fun h => ?_⟩, fun target => ?_⟩
  · exact q.unnoticed_set_of_repeats h
  · intro switched
    -- The switch is no entry, so it may as well be on before the target is set.
    have hset : q.withRedirect target = switched.set (.of .redirect [target]) := rfl
    rw [hset]
    exact ⟨rfl, switched.takesEffect_set_iff _, fun h => switched.unnoticed_set_of_repeats h⟩

/-- One kind comes once, another one twice, and there is no entry for the redirect yet. -/
theorem setting_takes_effect_once :
    let q : Request := ⟨"example.com", [.of .ip4 ["192.0.2.1"], .of .a ["a.example.com"],
      .of .ip4 ["192.0.2.2"]], false, .fail⟩
    q.TakesEffect (q.withValues .a ["example.com"]) (.of .a ["example.com"]) ∧
      (default : Settings).build (q.withValues .a ["example.com"]) =
        .record "v=spf1 ip4:192.0.2.2 a -all" ∧
      (q.Repeats .ip4 ∧ q.Unnoticed (q.withValues .ip4 ["198.51.100.7"])) ∧
      (default : Settings).build (q.withRedirect "spf.example.net") =
        .record "v=spf1 redirect=spf.example.net" := by
  intro q
  have hrepeats : q.Repeats .ip4 := by decide
  have ha : ¬ q.Repeats .a := by decide
  obtain ⟨-, hvalues, -⟩ := setting_takes_effect_iff q
  exact ⟨(hvalues .a ["example.com"]).1.mpr (.inl ha), by decide +kernel,
    ⟨hrepeats, (hvalues .ip4 ["198.51.100.7"]).2 hrepeats⟩, by decide +kernel⟩

/-- The last entry of a repeated kind hides a new one: values and target stay the old ones. -/
theorem new_entry_hidden_by_last :
    let q : Request := ⟨"example.com", [.of .ip4 ["192.0.2.1"], .of .ip4 ["192.0.2.2"]], false,
      .softFail⟩
    let q' : Request := ⟨"example.com", [.of .redirect ["a.example.net"],
      .of .redirect ["b.example.net"]], false, .softFail⟩
    Request.entry? (q.withValues .ip4 ["198.51.100.7"]) .ip4 ≠ some (.of .ip4 ["198.51.100.7"]) ∧
      (default : Settings).build (q.withValues .ip4 ["198.51.100.7"]) =
        .record "v=spf1 ip4:192.0.2.2 ~all" ∧
      Request.entry? (q'.withRedirect "c.example.net") .redirect ≠
        some (.of .redirect ["c.example.net"]) ∧
      (default : Settings).build (q'.withRedirect "c.example.net") =
        .record "v=spf1 redirect=b.example.net" := by
  decide +kernel

end SenderPolicy

import Mathlib.Algebra.GroupWithZero.Nat
import Mathlib.Data.List.Nodup
import SenderPolicy.Log
import SenderPolicy.Proofs.Loading

/-! Loading a record neither loses nor repeats a term: each directive but a terminal either
adds one value to the entry of its kind or causes one warning that names it. -/
namespace SenderPolicy

inductive Directive.Gives (domain : String) : Directive → Kind → String → Prop
  -- The directives that a request can say, each with its value: a pass of a mechanism that has a
  -- kind, without prefix lengths. A bare `a` or `mx` names the publishing domain.
  | inclusion (target : String) : Gives domain ⟨.pass, .inclusion target⟩ .inclusion target
  | ip4 (network : String) : Gives domain ⟨.pass, .ip4 network⟩ .ip4 network
  | ip6 (network : String) : Gives domain ⟨.pass, .ip6 network⟩ .ip6 network
  | existence (target : String) : Gives domain ⟨.pass, .existence target⟩ .existence target
  | a (target : String) : Gives domain ⟨.pass, .a (some target) .host⟩ .a target
  | bareA : Gives domain ⟨.pass, .a none .host⟩ .a domain
  | mx (target : String) : Gives domain ⟨.pass, .mx (some target) .host⟩ .mx target
  | bareMx : Gives domain ⟨.pass, .mx none .host⟩ .mx domain

inductive Spreads (domain : String) :
    List Directive → List (Kind × String) → List Event → Prop
  -- The values and the warnings of directives, in the order of the directives. A terminal adds to
  -- neither of them, and every other directive to exactly one.
  | nil : Spreads domain [] [] []
  | terminal {d : Directive} {ds : List Directive} {values : List (Kind × String)}
      {warnings : List Event} : d.mechanism = .all → Spreads domain ds values warnings →
        Spreads domain (d :: ds) values warnings
  | kept {d : Directive} {kind : Kind} {text : String} {ds : List Directive}
      {values : List (Kind × String)} {warnings : List Event} : d.Gives domain kind text →
        Spreads domain ds values warnings →
          Spreads domain (d :: ds) ((kind, text) :: values) warnings
  | skipped {d : Directive} {warning : Event} {ds : List Directive}
      {values : List (Kind × String)} {warnings : List Event} : d.mechanism ≠ .all →
        (∀ kind text, ¬ d.Gives domain kind text) → warning.level = .warn →
          warning.fields = [("term", d.render)] → Spreads domain ds values warnings →
            Spreads domain (d :: ds) values (warning :: warnings)

def FirstTerminal (ds : List Directive) (qualifier : Qualifier) : Prop :=
  (∃ before d after, ds = before ++ d :: after ∧ (∀ d' ∈ before, d'.mechanism ≠ .all) ∧
      d.mechanism = .all ∧ d.qualifier = qualifier) ∨
    (∀ d ∈ ds, d.mechanism ≠ .all) ∧ qualifier = .neutral

/-- A request and warnings that hold all that a record says. -/
structure Request.HoldsRecord (q : Request) (warnings : List Event) (r : Record)
    (domain : String) : Prop where
  domain_eq : q.domain = domain
  qualifier : FirstTerminal r.directives q.qualifier
  redirectEnabled_iff : q.redirectEnabled = true ↔ ∃ target, r.redirect? = some target
  redirect : q.entries.filter (·.kind = .redirect) =
    (r.redirect?.map fun target => (⟨.redirect, true, [target]⟩ : Entry)).toList
  nodup_kinds : (q.entries.map (·.kind)).Nodup
  filled : ∀ e ∈ q.entries, e.enabled = true ∧ e.rawValues ≠ []
  /-- Each entry holds the values of its kind in their order, and the entries are in the order
  of their first values, with the redirect behind them. -/
  spread : ∃ values, Spreads domain r.directives values warnings ∧
    (∀ kind ≠ .redirect, (q.entries.filter (·.kind = kind)).flatMap (·.rawValues) =
      (values.filter (·.1 = kind)).map (·.2)) ∧
    q.entries.Pairwise fun e e' => e'.kind = .redirect ∨
      (values.map (·.1)).idxOf e.kind < (values.map (·.1)).idxOf e'.kind
  length_add : ((q.entries.filter (·.kind ≠ .redirect)).map (·.rawValues.length)).sum +
    warnings.length = (r.directives.filter (·.mechanism ≠ .all)).length

/-! The values and the warnings of a record -/

theorem Directive.gives_iff {domain : String} {d : Directive} {kind : Kind} {text : String} :
    d.Gives domain kind text ↔ d.value? domain = some (kind, text) := by
  constructor
  · intro h
    cases h <;> rfl
  · intro h
    obtain ⟨qualifier, m⟩ := d
    obtain ⟨rfl, hm⟩ : qualifier = .pass ∧ m.value? domain = some (kind, text) :=
      Directive.value?_eq_some_iff.mp h
    -- Only a pass gives a value, so the mechanism decides.
    cases m with
    | inclusion _ | ip4 _ | ip6 _ | existence _ =>
      cases hm
      constructor
    | a target? length =>
      obtain ⟨rfl, rfl, rfl⟩ : length = .host ∧ .a = kind ∧ target?.getD domain = text := by
        simpa [Mechanism.value?] using hm
      cases target? with
      | none => exact .bareA
      | some target => exact .a target
    | mx target? length =>
      obtain ⟨rfl, rfl, rfl⟩ : length = .host ∧ .mx = kind ∧ target?.getD domain = text := by
        simpa [Mechanism.value?] using hm
      cases target? with
      | none => exact .bareMx
      | some target => exact .mx target
    | ptr _ | all => cases hm

/-- A warning quotes the term that it is about. -/
theorem Directive.warns_of_warning? {domain : String} {d : Directive} {warning : Event}
    (h : d.warning? domain = some warning) :
    warning.level = .warn ∧ warning.fields = [("term", d.render)] := by
  rw [Directive.warning?] at h
  split at h
  · cases h
  · split at h <;> cases h <;> exact ⟨rfl, rfl⟩

/-- Directive by directive, all but the terminals go to the values or to the warnings. -/
theorem spreads_filterMap (domain : String) (ds : List Directive) :
    Spreads domain ds (ds.filterMap (Directive.value? domain))
      (ds.filterMap (Directive.warning? domain)) := by
  induction ds with
  | nil => exact .nil
  | cons d ds ih =>
    rw [List.filterMap_cons, List.filterMap_cons]
    rcases d.load_eq domain with ⟨hm, -, hv, hw⟩ | ⟨kind, text, -, hv, hw⟩ |
      ⟨hm, hv, warning, -, hw⟩
    · rw [hv, hw]
      exact .terminal hm ih
    · rw [hv, hw]
      exact .kept (Directive.gives_iff.mpr hv) ih
    · rw [hv, hw]
      obtain ⟨hlevel, hfields⟩ := Directive.warns_of_warning? hw
      refine .skipped hm (fun kind text h => ?_) hlevel hfields ih
      rw [Directive.gives_iff, hv] at h
      cases h

theorem Directive.Gives.mechanism_ne {domain : String} {d : Directive} {kind : Kind}
    {text : String} (h : d.Gives domain kind text) : d.mechanism ≠ .all := by
  cases h <;> exact Mechanism.noConfusion

/-- No directive but a terminal goes missing, and none counts twice. -/
theorem Spreads.length_add {domain : String} {ds : List Directive}
    {values : List (Kind × String)} {warnings : List Event}
    (h : Spreads domain ds values warnings) :
    values.length + warnings.length = (ds.filter (·.mechanism ≠ .all)).length := by
  induction h with
  | nil => rfl
  | terminal hm _ ih =>
    rw [List.filter_cons_of_neg (by simpa using hm), ih]
  | kept hgives _ ih =>
    rw [List.filter_cons_of_pos (by simpa using hgives.mechanism_ne), List.length_cons,
      List.length_cons, ← ih]
    omega
  | skipped hm _ _ _ _ ih =>
    rw [List.filter_cons_of_pos (by simpa using hm), List.length_cons, List.length_cons, ← ih]
    omega

/-! The entries hold the values -/

/-- One more value in whichever group. -/
theorem Loading.sum_length_addValue (kind : Kind) (text : String)
    (groups : List (Kind × List String)) :
    ((addValue kind text groups).map (·.2.length)).sum = (groups.map (·.2.length)).sum + 1 := by
  induction groups with
  | nil => rfl
  | cons g groups ih =>
    obtain ⟨k, values⟩ := g
    rw [addValue]
    split
    · simp only [List.map_cons, List.sum_cons, List.length_append, List.length_singleton]
      omega
    · simp only [List.map_cons, List.sum_cons, ih]
      omega

/-- Each value that is added makes one group longer by one. -/
theorem Loading.sum_length_foldl_addValue (groups : List (Kind × List String))
    (values : List (Kind × String)) :
    ((values.foldl (fun groups v => addValue v.1 v.2 groups) groups).map (·.2.length)).sum =
      (groups.map (·.2.length)).sum + values.length := by
  induction values generalizing groups with
  | nil => rfl
  | cons v values ih =>
    rw [List.foldl_cons, ih, sum_length_addValue, List.length_cons]
    omega

theorem sum_length_groupsOf (values : List (Kind × String)) :
    ((groupsOf values).map (·.2.length)).sum = values.length := by
  have hfold := Loading.sum_length_foldl_addValue (groupsOf []) values
  rw [Loading.foldl_addValue] at hfold
  simpa [groupsOf, distinct] using hfold

/-- A member comes before all that is not found up to its place. -/
theorem idxOf_lt_idxOf {α : Type} [DecidableEq α] {xs before after : List α} {y z : α}
    (hxs : xs = before ++ y :: after) (hz : z ∉ before ++ [y]) : xs.idxOf y < xs.idxOf z := by
  have hy : xs.idxOf y ≤ before.length := by
    rw [hxs, List.idxOf_append]
    split
    next hmem => exact (List.idxOf_lt_length_of_mem hmem).le
    next => simp
  have hz' : before.length + 1 ≤ xs.idxOf z := by
    have hsplit : xs = (before ++ [y]) ++ after := by rw [hxs, List.append_assoc]; rfl
    rw [hsplit, List.idxOf_append_of_notMem hz, List.length_append, List.length_singleton]
    omega
  omega

namespace Record

theorem rawValues_entriesOf (kind : Kind) (values : List (Kind × String)) :
    ((entriesOf values).filter (·.kind = kind)).flatMap (·.rawValues) = textsOf kind values := by
  have hentries : (entriesOf values).filter (·.kind = kind) =
      ((distinct (values.map (·.1))).filter (· = kind)).map fun kind =>
        .of kind (textsOf kind values) := by
    rw [entriesOf, List.filter_map]
    rfl
  rw [hentries, List.filter_eq]
  by_cases hmem : kind ∈ values.map (·.1)
  · have hcount : (distinct (values.map (·.1))).count kind = 1 :=
      List.count_eq_one_of_mem (nodup_distinct _) (mem_distinct.mpr hmem)
    simp [hcount, Entry.of]
  · have hcount : (distinct (values.map (·.1))).count kind = 0 :=
      List.count_eq_zero_of_not_mem (mem_distinct.not.mpr hmem)
    simp [hcount, textsOf_eq_nil hmem]

/-- There is one entry for each kind, in the order of the first values. -/
theorem map_kind_entriesOf (values : List (Kind × String)) :
    (entriesOf values).map (·.kind) = distinct (values.map (·.1)) := by
  rw [entriesOf, List.map_map]
  exact List.map_id _

theorem filled_of_mem_entriesOf {values : List (Kind × String)} {e : Entry}
    (h : e ∈ entriesOf values) : e.enabled = true ∧ e.rawValues ≠ [] := by
  obtain ⟨kind, hkind, rfl⟩ := List.mem_map.mp h
  obtain ⟨v, hv, rfl⟩ := List.mem_map.mp (mem_distinct.mp hkind)
  refine ⟨rfl, List.ne_nil_of_mem (a := v.2) ?_⟩
  exact List.mem_map_of_mem (List.mem_filter.mpr ⟨hv, by simp⟩)

/-- Entries hold as many raw values as there are values. -/
theorem sum_length_entriesOf (values : List (Kind × String)) :
    ((entriesOf values).map (·.rawValues.length)).sum = values.length := by
  rw [← sum_length_groupsOf, entriesOf, groupsOf, List.map_map, List.map_map]
  rfl

/-- An entry comes before another if the first value of its kind does. -/
theorem pairwise_entriesOf (values : List (Kind × String)) :
    (entriesOf values).Pairwise fun e e' =>
      (values.map (·.1)).idxOf e.kind < (values.map (·.1)).idxOf e'.kind := by
  rw [entriesOf, List.pairwise_map]
  refine (pairwise_distinct (values.map (·.1))).imp fun {kind kind'} h => ?_
  obtain ⟨before, after, hsplit, hnew⟩ := h
  exact idxOf_lt_idxOf hsplit hnew

/-- The terminal of a record is its first `all`, and neutral if there is none. -/
theorem firstTerminal_terminal? (r : Record) :
    FirstTerminal r.directives (r.terminal?.getD .neutral) := by
  cases hfind : r.directives.find? (·.mechanism = .all) with
  | none =>
    refine .inr ⟨fun d hd => by simpa using List.find?_eq_none.mp hfind d hd, ?_⟩
    rw [terminal?, hfind]
    rfl
  | some d =>
    obtain ⟨hall, before, after, hsplit, hbefore⟩ := List.find?_eq_some_iff_append.mp hfind
    refine .inl ⟨before, d, after, hsplit, fun d' hd' => by simpa using hbefore d' hd',
      by simpa using hall, ?_⟩
    rw [terminal?, hfind]
    rfl

/-! The entries of a loaded request -/

/-- The entries of a loaded request are those of its values and one for the redirect. -/
theorem entries_toRequest (r : Record) (domain : String) : (r.toRequest domain).entries =
    entriesOf (r.values domain) ++ (r.redirect?.map (Entry.of .redirect [·])).toList := by
  rw [toRequest_eq]

theorem of_mem_redirect {redirect? : Option String} {e : Entry}
    (h : e ∈ (redirect?.map (Entry.of .redirect [·])).toList) :
    e.kind = .redirect ∧ e.enabled = true ∧ e.rawValues ≠ [] := by
  obtain ⟨target, -, rfl⟩ : ∃ target, redirect? = some target ∧ .of .redirect [target] = e := by
    simpa using h
  exact ⟨rfl, rfl, List.cons_ne_nil _ _⟩

theorem filter_redirect_toRequest (r : Record) (domain : String) :
    (r.toRequest domain).entries.filter (·.kind = .redirect) =
      (r.redirect?.map (Entry.of .redirect [·])).toList := by
  have hvalues : (entriesOf (r.values domain)).filter (·.kind = .redirect) = [] :=
    List.filter_eq_nil_iff.mpr fun e he => by simpa using kind_ne_redirect_of_mem_entriesOf he
  rw [entries_toRequest, List.filter_append, hvalues, List.nil_append]
  exact List.filter_eq_self.mpr fun e he => by simpa using (of_mem_redirect he).1

theorem filter_ne_redirect_toRequest (r : Record) (domain : String) :
    (r.toRequest domain).entries.filter (·.kind ≠ .redirect) = entriesOf (r.values domain) := by
  have hredirect : (r.redirect?.map (Entry.of .redirect [·])).toList.filter (·.kind ≠ .redirect) =
      [] := List.filter_eq_nil_iff.mpr fun e he => by simp [(of_mem_redirect he).1]
  rw [entries_toRequest, List.filter_append, hredirect, List.append_nil]
  exact List.filter_eq_self.mpr fun e he => by simpa using kind_ne_redirect_of_mem_entriesOf he

/-- Texts are kept kind by kind, none lost and none twice. -/
theorem rawValues_toRequest (r : Record) (domain : String) {kind : Kind} (h : kind ≠ .redirect) :
    ((r.toRequest domain).entries.filter (·.kind = kind)).flatMap (·.rawValues) =
      textsOf kind (r.values domain) := by
  have hredirect : (r.redirect?.map (Entry.of .redirect [·])).toList.filter (·.kind = kind) = [] :=
    List.filter_eq_nil_iff.mpr fun e he => by simpa [(of_mem_redirect he).1] using h.symm
  rw [entries_toRequest, List.filter_append, hredirect, List.append_nil, rawValues_entriesOf]

theorem nodup_kinds_toRequest (r : Record) (domain : String) :
    ((r.toRequest domain).entries.map (·.kind)).Nodup := by
  rw [entries_toRequest, List.map_append, map_kind_entriesOf, List.nodup_append]
  refine ⟨nodup_distinct _, by cases r.redirect? <;> simp, fun kind hkind kind' hkind' => ?_⟩
  obtain ⟨v, hv, rfl⟩ := List.mem_map.mp (mem_distinct.mp hkind)
  obtain ⟨e, he, rfl⟩ := List.mem_map.mp hkind'
  rw [(of_mem_redirect he).1]
  exact Kind.ne_redirect_of_mem (kind_mem_of_mem_values hv)

theorem filled_toRequest {r : Record} {domain : String} {e : Entry}
    (h : e ∈ (r.toRequest domain).entries) : e.enabled = true ∧ e.rawValues ≠ [] := by
  rw [entries_toRequest] at h
  rcases List.mem_append.mp h with h | h
  · exact filled_of_mem_entriesOf h
  · exact (of_mem_redirect h).2

/-- The redirect comes last, and before it the kinds as the record has them. -/
theorem pairwise_toRequest (r : Record) (domain : String) :
    (r.toRequest domain).entries.Pairwise fun e e' => e'.kind = .redirect ∨
      ((r.values domain).map (·.1)).idxOf e.kind < ((r.values domain).map (·.1)).idxOf e'.kind := by
  rw [entries_toRequest, List.pairwise_append]
  refine ⟨(pairwise_entriesOf _).imp .inr, ?_, fun e _ e' he' => .inl (of_mem_redirect he').1⟩
  cases r.redirect? <;> simp

end Record

/-- A loaded request holds each term of its record exactly once, as a value or as the warning
about it. -/
theorem loaded_request_holds_record (r : Record) (domain : String) :
    (r.toRequest domain).HoldsRecord (r.skipEvents domain) r domain := by
  have hspread : Spreads domain r.directives (r.values domain) (r.skipEvents domain) := by
    rw [Record.skipEvents_eq]
    exact spreads_filterMap domain r.directives
  exact
    { domain_eq := by rw [Record.toRequest_eq]
      qualifier := by
        rw [Record.qualifier_toRequest]
        exact r.firstTerminal_terminal?
      redirectEnabled_iff := by
        rw [Record.redirectEnabled_toRequest]
        exact Option.isSome_iff_exists
      redirect := r.filter_redirect_toRequest domain
      nodup_kinds := r.nodup_kinds_toRequest domain
      filled := fun _ he => Record.filled_toRequest he
      spread := ⟨r.values domain, hspread, fun _ hkind => r.rawValues_toRequest domain hkind,
        r.pairwise_toRequest domain⟩
      length_add := by
        rw [Record.filter_ne_redirect_toRequest, Record.sum_length_entriesOf, hspread.length_add] }

/-- Kinds that alternate, a terminal in between, and directives that no request can say. -/
example :
    let r : Record := ⟨[⟨.pass, .mx none .host⟩, ⟨.pass, .ip4 "192.0.2.1"⟩, ⟨.fail, .all⟩,
      ⟨.softFail, .ip4 "192.0.2.2"⟩, ⟨.pass, .mx (some "mail.example.com") .host⟩,
      ⟨.pass, .a none ⟨24, 128⟩⟩], some "spf.example.net", none⟩
    r.toRequest "example.com" = ⟨"example.com", [.of .mx ["example.com", "mail.example.com"],
        .of .ip4 ["192.0.2.1"], .of .redirect ["spf.example.net"]], true, .fail⟩ ∧
      r.skipEvents "example.com" = [.qualifiedSkipped ⟨.softFail, .ip4 "192.0.2.2"⟩,
        .unsupportedSkipped ⟨.pass, .a none ⟨24, 128⟩⟩] := by
  decide +kernel

end SenderPolicy

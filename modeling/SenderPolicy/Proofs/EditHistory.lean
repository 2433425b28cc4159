import SenderPolicy.Proofs.Editing
import SenderPolicy.Proofs.LoadedTerms

/-! A request that is edited step by step holds, in each of its fields, what was written there
last. The kinds of its entries stay distinct on the way, so that the entry that is replaced is
the one in force, and builds do not depend on the order in which entries have come. -/
namespace SenderPolicy

inductive Edit
  | withValues (kind : Kind) (values : List String)
  | set (e : Entry)
  | withRedirect (target : String)
  | switchRedirect (on : Bool)
  | withQualifier (qualifier : Qualifier)
  | withDomain (domain : String)
  deriving DecidableEq, Repr

namespace Edit

def apply (q : Request) : Edit → Request
  | withValues kind values => q.withValues kind values
  | set e => q.set e
  | withRedirect target => q.withRedirect target
  | switchRedirect on => q.switchRedirect on
  | withQualifier qualifier => q.withQualifier qualifier
  | withDomain domain => q.withDomain domain

/-! What an edit writes to each field, if it writes there -/

def entry? : Edit → Option Entry
  | withValues kind values => some (.of kind values)
  | set e => some e
  | withRedirect target => some (.of .redirect [target])
  | _ => none

def entryFor? (kind : Kind) (e : Edit) : Option Entry :=
  e.entry?.filter (·.kind = kind)

def switch? : Edit → Option Bool
  -- Setting a target switches to it.
  | withRedirect _ => some true
  | switchRedirect on => some on
  | _ => none

def qualifier? : Edit → Option Qualifier
  | withQualifier qualifier => some qualifier
  | _ => none

def domain? : Edit → Option String
  | withDomain domain => some domain
  | _ => none

/-- An edit writes its fields and leaves the others. -/
theorem apply_eq (q : Request) (e : Edit) : e.apply q =
    ⟨e.domain?.getD q.domain, e.entry?.elim q.entries fun new => setEntry new q.entries,
      e.switch?.getD q.redirectEnabled, e.qualifier?.getD q.qualifier⟩ := by
  cases e <;> rfl

def lastWrite? {α : Type} (write : Edit → Option α) (edits : List Edit) : Option α :=
  (edits.filterMap write).getLast?

/-- A later write counts before an earlier one. -/
theorem lastWrite?_cons {α : Type} (write : Edit → Option α) (e : Edit) (edits : List Edit) :
    lastWrite? write (e :: edits) = (lastWrite? write edits).or (write e) := by
  rw [lastWrite?, lastWrite?, List.filterMap_cons]
  cases write e with
  | none => rw [Option.or_none]
  | some x =>
    rw [List.getLast?_cons]
    cases (edits.filterMap write).getLast? <;> rfl

end Edit

namespace Request

def edited (q : Request) (edits : List Edit) : Request :=
  edits.foldl Edit.apply q

inductive IsStart : Request → Prop
  -- Where editing starts: a new request, with the standard qualifier or that of settings, or one
  -- that was loaded from a record.
  | empty (domain : String) : IsStart (.empty domain)
  | newRequest (s : Settings) (domain : String) : IsStart (s.newRequest domain)
  | loaded (r : Record) (domain : String) : IsStart (r.toRequest domain)

def HasDistinctKinds (q : Request) : Prop :=
  (q.entries.map (·.kind)).Nodup

structure HoldsLastWrites (start : Request) (edits : List Edit) (q : Request) : Prop where
  -- Each field holds what was written there last, or else what it held at the start.
  distinct : q.HasDistinctKinds
  entry : ∀ kind, q.entry? kind =
    (Edit.lastWrite? (Edit.entryFor? kind) edits).or (start.entry? kind)
  domain : q.domain = (Edit.lastWrite? Edit.domain? edits).getD start.domain
  redirectEnabled : q.redirectEnabled =
    (Edit.lastWrite? Edit.switch? edits).getD start.redirectEnabled
  qualifier : q.qualifier = (Edit.lastWrite? Edit.qualifier? edits).getD start.qualifier

/-- Both sequences of edits leave the same in each field: what they write there last, or what
it held at the start. How the edits of different fields follow each other is left open. -/
structure EndAlike (start : Request) (edits edits' : List Edit) : Prop where
  entry : ∀ kind, (Edit.lastWrite? (Edit.entryFor? kind) edits).or (start.entry? kind) =
    (Edit.lastWrite? (Edit.entryFor? kind) edits').or (start.entry? kind)
  domain : (Edit.lastWrite? Edit.domain? edits).getD start.domain =
    (Edit.lastWrite? Edit.domain? edits').getD start.domain
  redirectEnabled : (Edit.lastWrite? Edit.switch? edits).getD start.redirectEnabled =
    (Edit.lastWrite? Edit.switch? edits').getD start.redirectEnabled
  qualifier : (Edit.lastWrite? Edit.qualifier? edits).getD start.qualifier =
    (Edit.lastWrite? Edit.qualifier? edits').getD start.qualifier

end Request

/-! Distinct kinds -/

/-- A new entry joins the others at the end, unless it replaces one. -/
theorem map_kind_setEntry (new : Entry) (es : List Entry) : (setEntry new es).map (·.kind) =
    if new.kind ∈ es.map (·.kind) then es.map (·.kind) else es.map (·.kind) ++ [new.kind] := by
  induction es with
  | nil => rfl
  | cons e es ih =>
    rw [setEntry]
    by_cases he : e.kind = new.kind
    · simp [he]
    · rw [if_neg he, List.map_cons, ih]
      by_cases hmem : new.kind ∈ es.map (·.kind)
      · simp [hmem]
      · simp [hmem, Ne.symm he]

namespace Request

/-- One edit keeps the kinds of the entries distinct. -/
theorem HasDistinctKinds.apply {q : Request} (h : q.HasDistinctKinds) (e : Edit) :
    (e.apply q).HasDistinctKinds := by
  rw [HasDistinctKinds, Edit.apply_eq]
  cases e.entry? with
  | none => exact h
  | some new =>
    show ((setEntry new q.entries).map (·.kind)).Nodup
    rw [map_kind_setEntry]
    split
    next => exact h
    next hnew => exact (List.nodup_append.mpr ⟨h, List.nodup_singleton _, by simpa using hnew⟩)

/-- By induction on the edits, the kinds stay distinct all the time. -/
theorem HasDistinctKinds.edited {q : Request} (h : q.HasDistinctKinds) (edits : List Edit) :
    (q.edited edits).HasDistinctKinds := by
  induction edits generalizing q with
  | nil => exact h
  | cons e edits ih => exact ih (h.apply e)

/-- Every way to start gives entries of distinct kinds. -/
theorem IsStart.hasDistinctKinds {q : Request} (h : q.IsStart) : q.HasDistinctKinds := by
  cases h with
  | empty domain | newRequest s domain => exact List.nodup_nil
  | loaded r domain => exact r.nodup_kinds_toRequest domain

/-- With distinct kinds, the first entry of a kind is the one in force. -/
theorem HasDistinctKinds.not_repeats {q : Request} (h : q.HasDistinctKinds) (kind : Kind) :
    ¬ q.Repeats kind := by
  have hcount : (q.entries.map (·.kind)).count kind ≤ 1 := List.nodup_iff_count_le_one.mp h kind
  have hlength : (q.entries.filter (·.kind = kind)).length =
      (q.entries.map (·.kind)).count kind := by
    rw [List.count_eq_countP, List.countP_map, List.countP_eq_length_filter]
    rfl
  rw [Repeats, hlength]
  omega

/-! The last writes -/

/-- The entry in force is the one that an edit sets. -/
theorem entry?_apply {q : Request} (h : q.HasDistinctKinds) (e : Edit) (kind : Kind) :
    Request.entry? (e.apply q) kind = (e.entryFor? kind).or (q.entry? kind) := by
  have happly : (e.apply q).entries =
      e.entry?.elim q.entries fun new => setEntry new q.entries := by
    rw [Edit.apply_eq]
  rw [Edit.entryFor?, entry?, happly]
  cases e.entry? with
  | none => rfl
  | some new =>
    by_cases hkind : kind = new.kind
    · subst hkind
      have hset := entry?_set_of_not_repeats (h.not_repeats new.kind)
      simpa [set, entry?, Option.filter] using hset
    · have hset := q.entry?_set_of_ne hkind
      simpa [set, entry?, Option.filter, Ne.symm hkind] using hset

/-- If each edit writes a field or leaves it, the field holds the last write in the end. -/
theorem read_edited {α : Type} (read : Request → Option α) (write : Edit → Option α)
    (step : ∀ q : Request, q.HasDistinctKinds → ∀ e, read (Edit.apply q e) = (write e).or (read q))
    {q : Request} (h : q.HasDistinctKinds) (edits : List Edit) :
    read (q.edited edits) = (Edit.lastWrite? write edits).or (read q) := by
  -- The first edit is undone by a later write to the field, or it is the last one.
  induction edits generalizing q with
  | nil => rfl
  | cons e edits ih =>
    show read ((e.apply q).edited edits) = _
    rw [ih (h.apply e), step q h, Edit.lastWrite?_cons, Option.or_assoc]

/-- The same for a field that always holds something. -/
theorem get_edited {α : Type} (get : Request → α) (write : Edit → Option α)
    (step : ∀ (q : Request) (e : Edit), get (Edit.apply q e) = (write e).getD (get q))
    {q : Request} (h : q.HasDistinctKinds) (edits : List Edit) :
    get (q.edited edits) = (Edit.lastWrite? write edits).getD (get q) := by
  have hstep : ∀ q : Request, q.HasDistinctKinds → ∀ e,
      some (get (Edit.apply q e)) = (write e).or (some (get q)) := by
    intro q _ e
    rw [step]
    cases write e <;> rfl
  have hread := read_edited (fun q => some (get q)) write hstep h edits
  cases hlast : Edit.lastWrite? write edits with
  | none => simpa [hlast] using hread
  | some x => simpa [hlast] using hread

/-- By induction on the edits, a request holds the last write of each field, and in a field that was
not written it holds what it started with. -/
theorem holdsLastWrites_edited {start : Request} (h : start.HasDistinctKinds) (edits : List Edit) :
    start.HoldsLastWrites edits (start.edited edits) where
  distinct := h.edited edits
  entry kind := read_edited (fun q => q.entry? kind) (Edit.entryFor? kind)
    (fun _ hq e => entry?_apply hq e kind) h edits
  domain := get_edited (·.domain) Edit.domain? (fun q e => by rw [Edit.apply_eq]) h edits
  redirectEnabled := get_edited (·.redirectEnabled) Edit.switch?
    (fun q e => by rw [Edit.apply_eq]) h edits
  qualifier := get_edited (·.qualifier) Edit.qualifier?
    (fun q e => by rw [Edit.apply_eq]) h edits

/-- The order of the entries depends on the history, and builds do not depend on it. -/
theorem build_eq_of_endAlike {start : Request} (h : start.HasDistinctKinds)
    {edits edits' : List Edit} (hend : start.EndAlike edits edits') (s : Settings) :
    s.build (start.edited edits) = s.build (start.edited edits') := by
  have holds := holdsLastWrites_edited h edits
  have holds' := holdsLastWrites_edited h edits'
  apply Settings.build_congr
  apply plan_of_same_entries s.macroStyle
  · rw [holds.domain, hend.domain, holds'.domain]
  · rw [holds.redirectEnabled, hend.redirectEnabled, holds'.redirectEnabled]
  · rw [holds.qualifier, hend.qualifier, holds'.qualifier]
  · intro kind
    rw [holds.entry, hend.entry, holds'.entry]

/-! The switch on its own -/

theorem edited_append (q : Request) (edits edits' : List Edit) :
    q.edited (edits ++ edits') = (q.edited edits).edited edits' :=
  List.foldl_append

/-- A switch before an edit may as well come after it, unless the edit overrides it. -/
theorem apply_switchRedirect (q : Request) (on : Bool) (e : Edit) :
    Edit.apply (q.switchRedirect on) e = (e.apply q).switchRedirect (e.switch?.getD on) := by
  cases e <;> rfl

/-- The edits behind a switch see nothing of it. -/
theorem switchRedirect_edited (q : Request) (on : Bool) (edits : List Edit) :
    (q.switchRedirect on).edited edits =
      (q.edited edits).switchRedirect ((Edit.lastWrite? Edit.switch? edits).getD on) := by
  -- The switch is moved behind one edit after another. What it is set to may change on the way.
  induction edits generalizing q on with
  | nil => rfl
  | cons e edits ih =>
    have hlast : ((Edit.lastWrite? Edit.switch? edits).or e.switch?).getD on =
        (Edit.lastWrite? Edit.switch? edits).getD (e.switch?.getD on) := by
      cases Edit.lastWrite? Edit.switch? edits <;> rfl
    show (Edit.apply (q.switchRedirect on) e).edited edits = _
    rw [apply_switchRedirect, ih, Edit.lastWrite?_cons, hlast]
    rfl

/-- Switching off undoes an earlier switch. -/
theorem edited_on_off (q : Request) (edits : List Edit) :
    q.edited (.switchRedirect true :: edits ++ [.switchRedirect false]) =
      (q.edited edits).switchRedirect false := by
  rw [edited_append]
  show ((q.switchRedirect true).edited edits).switchRedirect false = _
  rw [switchRedirect_edited]
  rfl

/-- Switching off is no change where the switch is off and no edit touches it. -/
theorem edited_of_off {q : Request} (hoff : q.redirectEnabled = false) {edits : List Edit}
    (hnone : Edit.lastWrite? Edit.switch? edits = none) :
    (q.edited edits).switchRedirect false = q.edited edits := by
  have hq : q.switchRedirect false = q := by rw [switchRedirect, ← hoff]
  have hedited := q.switchRedirect_edited false edits
  rw [hq, hnone] at hedited
  exact hedited.symm

end Request

/-- A request that was edited holds the last write to each of its fields, and has one entry a
kind at most, so builds see nothing of the history but the last writes. In particular a switch
to the redirect and back leaves nothing: the entries stay, the request is the same as after
switching off alone, and if it was off and stays untouched, as without both switches. -/
theorem last_writes_decide_build {start : Request} (h : start.IsStart) :
    (∀ edits, start.HoldsLastWrites edits (start.edited edits)) ∧
      (∀ edits edits', start.EndAlike edits edits' →
        ∀ s : Settings, s.build (start.edited edits) = s.build (start.edited edits')) ∧
      ∀ before between after,
        let toggled := start.edited
          (before ++ .switchRedirect true :: between ++ .switchRedirect false :: after)
        let untoggled := start.edited (before ++ between ++ after)
        toggled.entries = untoggled.entries ∧
          toggled = start.edited (before ++ between ++ .switchRedirect false :: after) ∧
          ((start.edited before).redirectEnabled = false →
            Edit.lastWrite? Edit.switch? between = none → toggled = untoggled) := by
  have hdistinct := h.hasDistinctKinds
  refine ⟨Request.holdsLastWrites_edited hdistinct,
    fun _ _ hend => Request.build_eq_of_endAlike hdistinct hend, fun before between after => ?_⟩
  intro toggled untoggled
  -- Before the last edits, the two requests differ in the switch at most.
  let q := (start.edited before).edited between
  have hsplit : before ++ .switchRedirect true :: between ++ .switchRedirect false :: after =
      before ++ (.switchRedirect true :: between ++ [.switchRedirect false]) ++ after := by simp
  have htoggled : toggled = (q.switchRedirect false).edited after := by
    show start.edited _ = _
    rw [hsplit, Request.edited_append, Request.edited_append, Request.edited_on_off]
  have huntoggled : untoggled = q.edited after := by
    show start.edited _ = _
    rw [Request.edited_append, Request.edited_append]
  refine ⟨?_, ?_, fun hoff hnone => ?_⟩
  · rw [htoggled, huntoggled, Request.switchRedirect_edited]
    rfl
  · rw [htoggled, Request.edited_append, Request.edited_append]
    rfl
  · rw [htoggled, huntoggled, Request.edited_of_off hoff hnone]

/-- A record is loaded and edited in two ways, which leave the entries in different orders. -/
theorem last_writes_decide_build_loaded :
    let r : Record := ⟨[⟨.pass, .ip4 "192.0.2.1"⟩, ⟨.softFail, .all⟩], none, none⟩
    let start := r.toRequest "example.com"
    let between : List Edit := [.withValues .ip4 ["198.51.100.7"], .withDomain "example.org"]
    let after : List Edit := [.withQualifier .fail, .withValues .redirect ["spf.example.net"]]
    let toggled := start.edited ([.withValues .mx ["example.org"]] ++ .switchRedirect true ::
      between ++ .switchRedirect false :: after)
    let untoggled := [.withValues .mx ["example.org"]] ++ between ++ after
    let mixed : List Edit := [.withQualifier .fail, .withDomain "example.org",
      .withRedirect "spf.example.net", .withValues .mx ["mail.example.com"],
      .withValues .ip4 ["198.51.100.7"], .withValues .mx ["example.org"], .switchRedirect false]
    Record.ofText "v=spf1 ip4:192.0.2.1 ~all" = .ok r ∧ toggled = start.edited untoggled ∧
      (start.edited untoggled).entries.map (·.kind) = [.ip4, .mx, .redirect] ∧
      (start.edited mixed).entries.map (·.kind) = [.ip4, .redirect, .mx] ∧
      (∀ s : Settings, s.build (start.edited untoggled) = s.build (start.edited mixed)) ∧
      (default : Settings).build (start.edited mixed) =
        .record "v=spf1 ip4:198.51.100.7 mx -all" := by
  intro r start between after toggled untoggled mixed
  obtain ⟨-, hbuild, htoggle⟩ := last_writes_decide_build (.loaded r "example.com")
  have hend : start.EndAlike untoggled mixed :=
    ⟨fun kind => by cases kind <;> decide, by decide, by decide, by decide⟩
  have hoff : (start.edited [.withValues .mx ["example.org"]]).redirectEnabled = false := by decide
  have hnone : Edit.lastWrite? Edit.switch? between = none := by decide
  exact ⟨by decide +kernel, (htoggle _ between after).2.2 hoff hnone, by decide, by decide,
    hbuild untoggled mixed hend, by decide +kernel⟩

end SenderPolicy

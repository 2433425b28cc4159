import Mathlib.Data.List.Forall2
import Mathlib.Data.Option.Basic
import SenderPolicy.Cli.Run

/-! JSON values that state a request. Members may come in any order and others between them, as
long as no key is repeated, which holds for every value that was read. -/
namespace SenderPolicy

/-! Values that state entries and requests -/

inductive Json.Names (name : String) : Json → Prop
  | string : Names name (.string name)
  | key : Names name (.object [(name, .null)])

inductive Entry.StatedBy (e : Entry) : Json → Prop
  -- The members of an object, or the items of an array, state an entry. An enabled entry need not
  -- say so.
  | object {members : List (String × Json)} {kind : Json}
      (hkind : members.lookup "kind" = some kind) (hname : kind.Names e.kind.name)
      (henabled : (members.lookup "enabled").getD (.bool true) = .bool e.enabled)
      (hvalues : (members.lookup "raw_values").getD (.array []) =
        .array (e.rawValues.map .string)) : StatedBy e (.object members)
  | array {kind : Json} (hname : kind.Names e.kind.name) :
      StatedBy e (.array [kind, .bool e.enabled, .array (e.rawValues.map .string)])

/-- The members of an object state these parts of a request. A member that says what holds
without it may be left out, but for the qualifier, which has a member if one is stated. -/
structure StatesRequest (members : List (String × Json)) (domain : String)
    (entries : List Entry) (redirectEnabled : Bool) (qualifier? : Option Qualifier) : Prop where
  domain : members.lookup "domain" = some (.string domain)
  entries : ∃ items, (members.lookup "mechanisms").getD (.array []) = .array items ∧
    List.Forall₂ Entry.StatedBy entries items
  redirectEnabled : (members.lookup "redirect_enabled").getD (.bool false) = .bool redirectEnabled
  qualifier : Option.Rel (fun qualifier value => value.Names qualifier.name) qualifier?
    (members.lookup "qualifier")

namespace Json

/-! Keys of values that were read -/

def IsSettled (j : Json) : Prop :=
  -- Of repeated keys the last one was kept, at every depth.
  ∃ raw : Json, raw.lastMembers = j

/-- A tree that was settled comes from one, in which the last member of each name counts. -/
theorem isSettled_of_settle? {j raw : Json} (h : raw.settle? = some j) : j.IsSettled := by
  rw [settle?] at h
  split at h
  · exact ⟨raw, Option.some.inj h⟩
  · cases h

theorem key_mem_of_lastMembersOfMembers {members : List (String × Json)} {m : String × Json}
    (h : m ∈ lastMembersOfMembers members) : m.1 ∈ members.map (·.1) := by
  induction members with
  | nil => cases h
  | cons member members ih =>
    rw [lastMembersOfMembers] at h
    split at h
    · exact List.mem_cons_of_mem _ (ih h)
    · rcases List.mem_cons.mp h with rfl | h
      · exact List.mem_cons_self
      · exact List.mem_cons_of_mem _ (ih h)

/-- The last members of their names have distinct names. -/
theorem nodup_lastMembersOfMembers (members : List (String × Json)) :
    ((lastMembersOfMembers members).map (·.1)).Nodup := by
  induction members with
  | nil => exact List.nodup_nil
  | cons member members ih =>
    rw [lastMembersOfMembers]
    split
    next => exact ih
    next hnew =>
      refine List.nodup_cons.mpr ⟨fun hmem => hnew ?_, ih⟩
      obtain ⟨m, hm, hkey⟩ := List.mem_map.mp hmem
      obtain ⟨m', hm', hkey'⟩ := List.mem_map.mp (key_mem_of_lastMembersOfMembers hm)
      exact List.any_eq_true.mpr ⟨m', hm', by rw [hkey', hkey]; exact beq_self_eq_true _⟩

theorem isSettled_of_mem_lastMembersOfMembers {members : List (String × Json)}
    {m : String × Json} (h : m ∈ lastMembersOfMembers members) : m.2.IsSettled := by
  induction members with
  | nil => cases h
  | cons member members ih =>
    rw [lastMembersOfMembers] at h
    split at h
    · exact ih h
    · rcases List.mem_cons.mp h with rfl | h
      · exact ⟨_, rfl⟩
      · exact ih h

theorem isSettled_of_mem_lastMembersOfItems {items : List Json} {j : Json}
    (h : j ∈ lastMembersOfItems items) : j.IsSettled := by
  induction items with
  | nil => cases h
  | cons item items ih =>
    rcases List.mem_cons.mp h with rfl | h
    · exact ⟨_, rfl⟩
    · exact ih h

theorem IsSettled.exists_members {members : List (String × Json)}
    (h : (object members).IsSettled) : ∃ raw, members = lastMembersOfMembers raw := by
  obtain ⟨raw, hraw⟩ := h
  cases raw with
  | object raw => exact ⟨raw, (Json.object.inj hraw).symm⟩
  | _ => simp [lastMembers] at hraw

/-- No object of a settled tree has two members of one name. -/
theorem IsSettled.nodup {members : List (String × Json)} (h : (object members).IsSettled) :
    (members.map (·.1)).Nodup := by
  obtain ⟨raw, rfl⟩ := h.exists_members
  exact nodup_lastMembersOfMembers raw

theorem IsSettled.lookup {members : List (String × Json)} (h : (object members).IsSettled)
    {name : String} {j : Json} (hj : members.lookup name = some j) : j.IsSettled := by
  obtain ⟨raw, rfl⟩ := h.exists_members
  obtain ⟨before, after, hmembers, -⟩ := List.lookup_eq_some_iff.mp hj
  exact isSettled_of_mem_lastMembersOfMembers (m := (name, j)) (by rw [hmembers]; simp)

theorem IsSettled.of_mem {items : List Json} (h : (array items).IsSettled) {j : Json}
    (hj : j ∈ items) : j.IsSettled := by
  obtain ⟨raw, hraw⟩ := h
  cases raw with
  | array raw =>
    rw [← Json.array.inj hraw] at hj
    exact isSettled_of_mem_lastMembersOfItems hj
  | _ => simp [lastMembers] at hraw

/-! Reading fields -/

theorem lookup_eq_find? (members : List (String × Json)) (name : String) :
    members.lookup name = (members.find? (·.1 == name)).map (·.2) := by
  induction members with
  | nil => rfl
  | cons member members ih =>
    rw [List.lookup_cons, List.find?_cons, ih, BEq.comm]
    cases member.1 == name with
    | true => rfl
    | false => rfl

/-- With distinct keys, a look-up finds all that there is. -/
theorem filter_key {members : List (String × Json)} (h : (members.map (·.1)).Nodup)
    (name : String) : members.filter (·.1 == name) =
      ((members.lookup name).map (name, ·)).toList := by
  induction members with
  | nil => rfl
  | cons member members ih =>
    obtain ⟨key, value⟩ := member
    obtain ⟨hnew, hmembers⟩ := List.nodup_cons.mp h
    rw [List.filter_cons, List.lookup_cons]
    by_cases hkey : key = name
    · subst hkey
      -- The key does not come again, so nothing else is found.
      have hrest : members.filter (·.1 == key) = [] := by
        refine List.filter_eq_nil_iff.mpr fun m hm hsame => hnew ?_
        exact List.mem_map.mpr ⟨m, hm, eq_of_beq hsame⟩
      simp [hrest]
    · have hne : (name == key) = false := beq_eq_false_iff_ne.mpr (Ne.symm hkey)
      simp [hkey, hne, ih hmembers]

theorem mapM_eq_some_map {α β : Type} {f : α → Option β} {g : α → β}
    (h : ∀ a, f a = some (g a)) (xs : List α) : xs.mapM f = some (xs.map g) := by
  obtain rfl : f = fun a => pure (g a) := funext h
  exact List.mapM_pure

/-- Fields of an object with distinct keys are found by their names, in any order. -/
theorem fields?_object {members : List (String × Json)} (h : (members.map (·.1)).Nodup)
    (names : List String) :
    fields? names (.object members) = some (names.map fun name => members.lookup name) := by
  rw [fields?]
  apply mapM_eq_some_map
  intro name
  rw [filter_key h]
  cases members.lookup name <;> rfl

theorem hasMember_object (members : List (String × Json)) (name : String) :
    (object members).hasMember name = (members.lookup name).isSome := by
  rw [lookup_eq_find?, Option.isSome_map, List.isSome_find?, hasMember]

/-- Both forms in which a choice is named are read. -/
theorem Names.choice?_eq {name : String} {j : Json} (h : j.Names name) :
    j.choice? = some name := by
  cases h <;> rfl

theorem names_of_choice? {j : Json} {name : String} (h : j.choice? = some name) : j.Names name := by
  unfold choice? at h
  split at h
  next => exact Option.some.inj h ▸ .string
  next => exact Option.some.inj h ▸ .key
  next => cases h

/-- A standard value is what stands in its place in the tree. -/
theorem orElse_eq {α : Type} {standard : α} {read : Json → Option α} {left : Json}
    (h : read left = some standard) (j? : Option Json) :
    orElse standard read j? = read (j?.getD left) := by
  cases j? with
  | none => exact h.symm
  | some j => rfl

end Json

/-! Reading entries and requests -/

/-- An entry is read from every tree that states it. -/
theorem Entry.ofJson?_of_statedBy {e : Entry} {j : Json} (hsettled : j.IsSettled)
    (h : e.StatedBy j) : Entry.ofJson? j = some e := by
  have hstring : ∀ raw, Json.toString? (.string raw) = some raw := fun _ => rfl
  have hraws : Json.toList? Json.toString? (.array (e.rawValues.map .string)) =
      some e.rawValues := Json.toList?_map hstring e.rawValues
  cases h with
  | object hkind hname henabled hvalues =>
    have hstandard : Json.toBool? (.bool true) = some true := rfl
    have hnone : Json.toList? Json.toString? (.array []) = some [] := rfl
    rw [Entry.ofJson?, Json.fields?_object hsettled.nodup]
    simp only [List.map_cons, List.map_nil, Option.bind_eq_bind, Option.bind_some, hkind,
      hname.choice?_eq, Kind.ofName?_name, Json.orElse_eq hstandard, henabled,
      Json.orElse_eq hnone, hvalues, hraws]
    rfl
  | array hname =>
    simp [Entry.ofJson?, Json.fields?, Json.orElse, hname.choice?_eq, Kind.ofName?_name,
      Json.toBool?, hraws]

theorem mapM_ofJson?_of_statedBy {entries : List Entry} {items : List Json}
    (hsettled : ∀ j ∈ items, j.IsSettled) (h : List.Forall₂ Entry.StatedBy entries items) :
    items.mapM Entry.ofJson? = some entries := by
  induction h with
  | nil => rfl
  | cons he hes ih =>
    obtain ⟨hitem, hitems⟩ := List.forall_mem_cons.mp hsettled
    rw [List.mapM_cons, Entry.ofJson?_of_statedBy hitem he, ih hitems]
    rfl

/-- A stated request is read as it is, and a qualifier that is left out is that of the settings. -/
theorem requestOfJson?_of_states (s : Settings) {members : List (String × Json)} {domain : String}
    {entries : List Entry} {redirectEnabled : Bool} {qualifier? : Option Qualifier}
    (hsettled : (Json.object members).IsSettled)
    (h : StatesRequest members domain entries redirectEnabled qualifier?) :
    Cli.requestOfJson? s (.object members) =
      some ⟨domain, entries, redirectEnabled, qualifier?.getD s.defaultQualifier⟩ := by
  obtain ⟨items, hitems, hentries⟩ := h.entries
  -- The keys of the entries are distinct as well, since the whole value was read.
  have hitem : ∀ j ∈ items, j.IsSettled := by
    cases hmember : members.lookup "mechanisms" with
    | none =>
      rw [hmember] at hitems
      obtain rfl : [] = items := Json.array.inj hitems
      exact List.forall_mem_nil _
    | some j =>
      rw [hmember] at hitems
      obtain rfl : j = .array items := hitems
      exact fun _ => (hsettled.lookup hmember).of_mem
  have hread : Json.toList? Entry.ofJson? (.array items) = some entries :=
    mapM_ofJson?_of_statedBy hitem hentries
  have hnone : Json.toList? Entry.ofJson? (.array []) = some [] := rfl
  have hoff : Json.toBool? (.bool false) = some false := rfl
  have hbool : Json.toBool? (.bool redirectEnabled) = some redirectEnabled := rfl
  have hdomain : Json.toString? (.string domain) = some domain := rfl
  rw [Cli.requestOfJson?, Request.ofJson?, Json.fields?_object hsettled.nodup,
    Json.hasMember_object]
  simp only [List.map_cons, List.map_nil, Option.bind_eq_bind, Option.bind_some, h.domain,
    hdomain, Json.orElse_eq hnone, hitems, hread, Json.orElse_eq hoff, h.redirectEnabled, hbool]
  have hqualifier := h.qualifier
  cases hvalue : members.lookup "qualifier" with
  | none =>
    rw [hvalue] at hqualifier
    cases hqualifier
    rfl
  | some value =>
    rw [hvalue] at hqualifier
    cases hqualifier with
    | some hname => simp [Json.orElse, hname.choice?_eq, Qualifier.ofName?_name]

/-- What is read from the value of a file is the request of the file. -/
theorem Cli.request_of_file {files : Files} {path text : String} {raw j : Json} {s : Settings}
    {q : Request} (hfile : files.read path = .ok text) (htext : Json.ofText? text = some raw)
    (hsettle : raw.settle? = some j) (hread : requestOfJson? s j = some q) :
    Source.request files s (.file path) = .ok q := by
  simp only [Source.request, hfile, requestOfText?, htext, hsettle, hread, Option.bind_eq_bind,
    Option.bind_some]

end SenderPolicy

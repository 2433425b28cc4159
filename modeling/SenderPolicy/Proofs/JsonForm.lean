import SenderPolicy.Outcome.Json
import SenderPolicy.Proofs.RequestValue

/-! Requests and outcomes are read back from their JSON trees. No standard value stands in for one
that was written, and what is left out is not asked for. The tree of a request is also read as it
is where a tree is settled first. -/
namespace SenderPolicy

namespace Json

/-! Trees that settling leaves alone -/

structure IsPlain (bound : Nat) (j : Json) : Prop where
  -- All parts denote something, no key is repeated, and containers are nested `bound` deep at most.
  isMeaningful : j.isMeaningful = true
  depth_le : j.depth ≤ bound
  lastMembers_eq : j.lastMembers = j

theorem isPlain_string (bound : Nat) (s : String) : IsPlain bound (.string s) where
  isMeaningful := rfl
  depth_le := Nat.zero_le _
  lastMembers_eq := rfl

theorem isPlain_bool (bound : Nat) (b : Bool) : IsPlain bound (.bool b) where
  isMeaningful := rfl
  depth_le := Nat.zero_le _
  lastMembers_eq := rfl

theorem isPlain_array {bound : Nat} {items : List Json} (h : ∀ j ∈ items, IsPlain bound j) :
    IsPlain (bound + 1) (.array items) := by
  have hitems : areMeaningful items = true ∧ depthOfItems items ≤ bound ∧
      lastMembersOfItems items = items := by
    induction items with
    | nil => exact ⟨rfl, Nat.zero_le _, rfl⟩
    | cons j items ih =>
      obtain ⟨hj, htail⟩ := List.forall_mem_cons.mp h
      obtain ⟨hmeaningful, hdepth, hlast⟩ := ih htail
      refine ⟨?_, Nat.max_le.mpr ⟨hj.depth_le, hdepth⟩, ?_⟩
      · rw [areMeaningful, hj.isMeaningful, hmeaningful]
        rfl
      · rw [lastMembersOfItems, hj.lastMembers_eq, hlast]
  obtain ⟨hmeaningful, hdepth, hlast⟩ := hitems
  exact ⟨hmeaningful, by rw [depth]; omega, by rw [lastMembers, hlast]⟩

theorem isPlain_object {bound : Nat} {members : List (String × Json)}
    (hkeys : (members.map (·.1)).Nodup) (h : ∀ m ∈ members, IsPlain bound m.2) :
    IsPlain (bound + 1) (.object members) := by
  have hmembers : areMeaningfulMembers members = true ∧ depthOfMembers members ≤ bound ∧
      lastMembersOfMembers members = members := by
    induction members with
    | nil => exact ⟨rfl, Nat.zero_le _, rfl⟩
    | cons m members ih =>
      obtain ⟨hm, htail⟩ := List.forall_mem_cons.mp h
      obtain ⟨hnew, hrest⟩ := List.nodup_cons.mp hkeys
      obtain ⟨hmeaningful, hdepth, hlast⟩ := ih hrest htail
      -- No later member has the key, so this one stays.
      have hany : ¬ members.any (·.1 == m.1) = true := by
        intro hany
        obtain ⟨m', hm', hkey⟩ := List.any_eq_true.mp hany
        exact hnew (List.mem_map.mpr ⟨m', hm', eq_of_beq hkey⟩)
      refine ⟨?_, Nat.max_le.mpr ⟨hm.depth_le, hdepth⟩, ?_⟩
      · rw [areMeaningfulMembers, hm.isMeaningful, hmeaningful]
        rfl
      · rw [lastMembersOfMembers, if_neg hany, hm.lastMembers_eq, hlast]
  obtain ⟨hmeaningful, hdepth, hlast⟩ := hmembers
  exact ⟨hmeaningful, by rw [depth]; omega, by rw [lastMembers, hlast]⟩

/-- Settling has nothing to do on a plain tree that is not too deep. -/
theorem IsPlain.settle?_eq {bound : Nat} {j : Json} (h : IsPlain bound j) (hbound : bound ≤ maxDepth) :
    j.settle? = some j := by
  have hdepth : j.depth ≤ maxDepth := Nat.le_trans h.depth_le hbound
  rw [settle?, h.isMeaningful, h.lastMembers_eq, decide_eq_true hdepth]
  rfl

theorem toString?_string (s : String) : toString? (string s) = some s :=
  rfl

/-! Values that may be absent -/

section Absent

variable {α : Type} {read : Json → Option α} {write : α → Json}

/-- A value that may be absent is read back if its tree is never null. -/
theorem orNull_map (h : ∀ a, read (write a) = some a) (hnull : ∀ a, write a ≠ null)
    (a? : Option α) : orNull read (a?.map write) = some a? := by
  cases a? with
  | none => rfl
  | some a =>
    rw [Option.map_some, orNull, h]
    · rfl
    · exact hnull a

theorem orNull_map_getD (h : ∀ a, read (write a) = some a) (hnull : ∀ a, write a ≠ null)
    (a? : Option α) : orNull read (some ((a?.map write).getD null)) = some a? := by
  cases a? with
  | none => rfl
  | some a => exact orNull_map h hnull (some a)

end Absent

end Json

/-! Entries and requests -/

theorem Entry.ofJson?_toJson (e : Entry) : ofJson? e.toJson = some e := by
  have hraws : Json.toList? Json.toString? (.array (e.rawValues.map .string)) = some e.rawValues :=
    Json.toList?_map Json.toString?_string e.rawValues
  have hfields : e.toJson.fields? ["kind", "enabled", "raw_values"] =
      some [some (.string e.kind.name), some (.bool e.enabled),
        some (.array (e.rawValues.map .string))] := rfl
  simp [ofJson?, hfields, Json.choice?, Kind.ofName?_name, Json.orElse, Json.toBool?, hraws]

theorem Entry.isPlain_toJson (e : Entry) : Json.IsPlain 2 e.toJson := by
  refine Json.isPlain_object (by simp) ?_
  simp only [List.forall_mem_cons]
  refine ⟨Json.isPlain_string _ _, Json.isPlain_bool _ _, Json.isPlain_array ?_, by simp⟩
  exact List.forall_mem_map.mpr fun raw _ => Json.isPlain_string _ raw

/-- A request is read back from its tree, for its entries are. -/
theorem Request.ofJson?_toJson (q : Request) : ofJson? q.toJson = some q := by
  have hentries : Json.toList? Entry.ofJson? (.array (q.entries.map Entry.toJson)) =
      some q.entries := Json.toList?_map Entry.ofJson?_toJson q.entries
  have hfields : q.toJson.fields? ["domain", "mechanisms", "redirect_enabled", "qualifier"] =
      some [some (.string q.domain), some (.array (q.entries.map Entry.toJson)),
        some (.bool q.redirectEnabled), some (.string q.qualifier.name)] := rfl
  simp [ofJson?, hfields, Json.choice?, Qualifier.ofName?_name, Json.orElse, Json.toBool?,
    Json.toString?, hentries]

theorem Request.isPlain_toJson (q : Request) : Json.IsPlain 4 q.toJson := by
  refine Json.isPlain_object (by simp) ?_
  simp only [List.forall_mem_cons]
  refine ⟨Json.isPlain_string _ _, Json.isPlain_array ?_, Json.isPlain_bool _ _,
    Json.isPlain_string _ _, by simp⟩
  exact List.forall_mem_map.mpr fun e _ => e.isPlain_toJson

/-! Rejections and outcomes -/

/-- A rejection is read back from its tree, with or without a kind and a value. -/
theorem Rejection.ofJson?_toJson (r : Rejection) : ofJson? r.toJson = some r := by
  -- The member for the value is left out if there is none, and the one for the kind is null.
  have hfields : r.toJson.fields? ["mechanism", "error", "value"] =
      some [some ((r.kind?.map fun kind => .string kind.name).getD .null),
        some (.string r.reason.name), r.value?.map .string] := by
    obtain ⟨kind?, reason, value?⟩ := r
    cases kind? <;> cases value? <;> rfl
  have hkind : Json.orNull (fun j => j.choice?.bind fun name => Kind.ofName? name)
      (some ((r.kind?.map fun kind => .string kind.name).getD .null)) = some r.kind? :=
    Json.orNull_map_getD Kind.ofName?_name (by simp) r.kind?
  have hreason : (Json.string r.reason.name).choice? = some r.reason.name := rfl
  have hvalue : Json.orNull Json.toString? (r.value?.map .string) = some r.value? :=
    Json.orNull_map Json.toString?_string (by simp) r.value?
  rw [ofJson?, hfields]
  simp only [hkind, hreason, hvalue, Option.bind_eq_bind, Option.bind_some, Reason.ofName?_name]
  rfl

/-- Either outcome is read back, as its tag tells which of the two it is. -/
theorem Outcome.ofJson?_toJson (o : Outcome) : ofJson? o.toJson = some o := by
  cases o with
  | record text => rfl
  | rejected rejections =>
    rw [toJson, ofJson?, Json.toList?_map Rejection.ofJson?_toJson]
    rfl

theorem Rejection.hasMember_value (r : Rejection) :
    r.toJson.hasMember "value" = r.value?.isSome := by
  obtain ⟨kind?, reason, value?⟩ := r
  cases value? <;> rfl

/-- Every request is read back from its JSON tree, whether or not the tree is settled first, and
so is every outcome. An outcome has one member, which is named for what it is, and a rejection has
a value there exactly if it has one. So a build that is read back tells the same record or the
same messages. -/
theorem json_forms_read_back :
    (∀ q : Request, Request.ofJson? q.toJson = some q ∧
      q.toJson.settle?.bind Request.ofJson? = some q) ∧
    ∀ o : Outcome, Outcome.ofJson? o.toJson = some o ∧
      (∃ j, o.toJson = .object [(if o.isRecord then "record" else "errors", j)]) ∧
      (∀ r ∈ o.rejections, r.toJson.hasMember "value" = r.value?.isSome) ∧
      ∀ o', Outcome.ofJson? o.toJson = some o' → o'.isRecord = o.isRecord ∧
        o'.record? = o.record? ∧
        o'.rejections.map Rejection.message = o.rejections.map Rejection.message := by
  refine ⟨fun q => ⟨q.ofJson?_toJson, ?_⟩, fun o => ⟨o.ofJson?_toJson, ?_, ?_, ?_⟩⟩
  · rw [q.isPlain_toJson.settle?_eq (by decide), Option.bind_some, q.ofJson?_toJson]
  · cases o with
    | record text => exact ⟨_, rfl⟩
    | rejected rejections => exact ⟨_, rfl⟩
  · exact fun r _ => r.hasMember_value
  · intro o' ho'
    obtain rfl : o = o' := Option.some.inj (o.ofJson?_toJson.symm.trans ho')
    exact ⟨rfl, rfl, rfl⟩

/-- An entry that is off and another of its kind that is empty, with a quote in a value. -/
example :
    let q : Request := ⟨"", [⟨.ip4, false, ["\"a", ""]⟩, ⟨.ip4, true, []⟩], true, .neutral⟩
    Request.ofJson? q.toJson = some q := by
  decide +kernel

end SenderPolicy

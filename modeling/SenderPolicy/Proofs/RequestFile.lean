import SenderPolicy.Proofs.RequestValue

/-! The qualifier of a request that is read from a file. An object keeps the one that it states,
and without one that of the settings is taken. An array always gets that of the settings. -/
namespace SenderPolicy

/-- Where a list is read member by member, each result is at the place of its member. -/
theorem exists_getElem?_of_mapM {α β : Type} {f : α → Option β} {xs : List α} {ys : List β}
    (h : xs.mapM f = some ys) {i : Nat} {x : α} (hx : xs[i]? = some x) :
    ∃ y, f x = some y ∧ ys[i]? = some y := by
  induction xs generalizing ys i with
  | nil => simp at hx
  | cons x' xs ih =>
    simp only [List.mapM_cons, Option.bind_eq_bind, Option.bind_eq_some_iff, Option.pure_def,
      Option.some.injEq] at h
    obtain ⟨y, hy, rest, hrest, rfl⟩ := h
    cases i with
    | zero =>
      obtain rfl : x' = x := by simpa using hx
      exact ⟨y, hy, rfl⟩
    | succ i => exact ih hrest (by simpa using hx)

namespace Json

def field? (name : String) (place : Nat) : Json → Option Json
  -- What is given for a field: the member of this name, or the item at this place.
  | object members => members.lookup name
  | array items => items[place]?
  | _ => none

/-- The value that is read for a field is the one that is given for it. -/
theorem getElem?_of_fields? {names : List String} {j : Json} {values : List (Option Json)}
    (h : j.fields? names = some values) {place : Nat} {name : String}
    (hname : names[place]? = some name) : values[place]? = some (j.field? name place) := by
  cases j with
  | object members =>
    obtain ⟨value, hvalue, hget⟩ := exists_getElem?_of_mapM h hname
    rw [hget, field?, lookup_eq_find?, ← List.head?_filter]
    -- The reader gives up where the name comes twice, so the first member of it is the only one.
    split at hvalue
    next hfilter => rw [← Option.some.inj hvalue, hfilter]; rfl
    next hfilter => rw [← Option.some.inj hvalue, hfilter]; rfl
    next => cases hvalue
  | array items =>
    have hplace : place < names.length := (List.getElem?_eq_some_iff.mp hname).1
    rw [fields?] at h
    split at h
    next hlen =>
      obtain rfl := Option.some.inj h
      rw [List.getElem?_append, List.length_map, List.getElem?_map, List.getElem?_replicate, field?]
      -- Behind the last item there is nothing for the fields that are left.
      split
      next hgiven => rw [List.getElem?_eq_getElem hgiven, Option.map_some]
      next hgiven =>
        rw [if_pos (by omega), List.getElem?_eq_none (by omega)]
    next => cases h
  | _ => cases h

end Json

theorem Qualifier.eq_name_of_ofName? {s : String} {qualifier : Qualifier}
    (h : ofName? s = some qualifier) : s = qualifier.name := by
  have hname := List.find?_some h
  exact (eq_of_beq hname).symm

namespace Request

def statedQualifier? (j : Json) : Option Json :=
  j.field? "qualifier" 3

/-- A request is stated by an object or by an array. -/
theorem object_or_array_of_ofJson? {j : Json} {q : Request} (h : ofJson? j = some q) :
    (∃ members, j = .object members) ∨ ∃ items, j = .array items := by
  cases j with
  | object members => exact .inl ⟨members, rfl⟩
  | array items => exact .inr ⟨items, rfl⟩
  | _ => cases h

/-- A request that was read has the qualifier that is stated. -/
theorem names_of_ofJson? {j value : Json} {q : Request} (h : ofJson? j = some q)
    (hvalue : statedQualifier? j = some value) : value.Names q.qualifier.name := by
  rw [ofJson?, Option.bind_eq_bind, Option.bind_eq_some_iff] at h
  obtain ⟨values, hvalues, h⟩ := h
  split at h
  next domain mechanisms redirectEnabled qualifier =>
    simp only [Option.bind_eq_bind, Option.bind_eq_some_iff, Option.pure_def,
      Option.some.injEq] at h
    obtain ⟨-, -, -, -, -, -, -, -, read, hread, rfl⟩ := h
    have hstated : some qualifier = some (statedQualifier? j) :=
      Json.getElem?_of_fields? hvalues (show _[3]? = some "qualifier" from rfl)
    rw [Option.some.inj hstated, hvalue, Json.orElse, Option.bind_eq_some_iff] at hread
    obtain ⟨name, hname, hread⟩ := hread
    exact Qualifier.eq_name_of_ofName? hread ▸ Json.names_of_choice? hname
  next => cases h

end Request

namespace Cli

/-- The request of a file is the one that its value denotes, but for the qualifier. -/
theorem request_file_eq {files : Files} {path text : String} {raw j : Json} {q : Request}
    (s : Settings) (hfile : files.read path = .ok text) (htext : Json.ofText? text = some raw)
    (hsettle : raw.settle? = some j) (hq : Request.ofJson? j = some q) :
    Source.request files s (.file path) =
      .ok (if j.hasMember "qualifier" then q else q.withQualifier s.defaultQualifier) := by
  apply request_of_file hfile htext hsettle
  rw [requestOfJson?, hq]
  rfl

end Cli

/-- A request that is read from a file is what the file says, and where the file leaves the
qualifier out it has that of the settings. A qualifier that is stated is kept exactly if it
stands in an object, or is that of the settings anyway: in an array it is not looked for. -/
theorem stated_qualifier_kept_iff {files : Files} {path text : String} {raw j : Json} {q : Request}
    (s : Settings) (hfile : files.read path = .ok text) (htext : Json.ofText? text = some raw)
    (hsettle : raw.settle? = some j) (hq : Request.ofJson? j = some q) :
    ∃ q', Cli.Source.request files s (.file path) = .ok q' ∧
      q' = q.withQualifier q'.qualifier ∧
      (Request.statedQualifier? j = none → q'.qualifier = s.defaultQualifier) ∧
      (∀ items, j = .array items → q'.qualifier = s.defaultQualifier) ∧
      ∀ value, Request.statedQualifier? j = some value →
        value.Names q.qualifier.name ∧
        (q'.qualifier = q.qualifier ↔
          (∃ members, j = .object members) ∨ q.qualifier = s.defaultQualifier) := by
  refine ⟨_, Cli.request_file_eq s hfile htext hsettle hq, ?_⟩
  have hnames : ∀ value, Request.statedQualifier? j = some value →
      value.Names q.qualifier.name := fun value => Request.names_of_ofJson? hq
  rcases Request.object_or_array_of_ofJson? hq with ⟨members, rfl⟩ | ⟨items, rfl⟩
  · -- A member is looked for under the name that the reader goes by.
    have hmember : (Json.object members).hasMember "qualifier" =
        (Request.statedQualifier? (.object members)).isSome :=
      Json.hasMember_object members "qualifier"
    rw [hmember]
    cases hstated : Request.statedQualifier? (.object members) with
    | none => exact ⟨rfl, fun _ => rfl, by simp, by simp⟩
    | some value =>
      refine ⟨rfl, by simp, by simp, fun value' hvalue' => ?_⟩
      exact ⟨hnames value' (hstated.trans hvalue'), iff_of_true rfl (.inl ⟨members, rfl⟩)⟩
  · -- Whatever the array states, the qualifier is replaced.
    refine ⟨rfl, fun _ => rfl, fun _ _ => rfl, fun value hvalue => ⟨hnames value hvalue, ?_⟩⟩
    have harray : ¬ ∃ members, Json.array items = .object members := by simp
    rw [or_iff_right harray]
    exact eq_comm

/-- An object with a repeated key, whose last member counts and is a choice with a null. -/
theorem stated_qualifier_kept_repeated :
    let text := "\x7b\"qualifier\":0,\"domain\":\"a.b\",\"qualifier\":\x7b\"pass\":null\x7d\x7d"
    let files : Files := ⟨fun _ => true, fun _ => .ok text⟩
    let value : Json := .object [("pass", .null)]
    let raw : Json := .object [("qualifier", .ofNat 0), ("domain", .string "a.b"),
      ("qualifier", value)]
    let j : Json := .object [("domain", .string "a.b"), ("qualifier", value)]
    Json.ofText? text = some raw ∧ raw.settle? = some j ∧
      Request.ofJson? j = some ⟨"a.b", [], false, .pass⟩ ∧
      Request.statedQualifier? j = some value ∧
      ∃ q, Cli.Source.request files default (.file "r.json") = .ok q ∧ q.qualifier = .pass := by
  intro text files value raw j
  have hfile : files.read "r.json" = .ok text := rfl
  have htext : Json.ofText? text = some raw := by decide +kernel
  have hsettle : raw.settle? = some j := by rfl
  have hq : Request.ofJson? j = some ⟨"a.b", [], false, .pass⟩ := by decide +kernel
  have hstated : Request.statedQualifier? j = some value := rfl
  obtain ⟨q, hrequest, -, -, -, hkept⟩ :=
    stated_qualifier_kept_iff default hfile htext hsettle hq
  exact ⟨htext, hsettle, hq, hstated, q, hrequest, (hkept value hstated).2.mpr (.inl ⟨_, rfl⟩)⟩

/-- An array that states another qualifier than the settings does not keep it. -/
theorem stated_qualifier_lost_in_array :
    let text := "[\"a.b\",[],false,\"fail\"]"
    let files : Files := ⟨fun _ => true, fun _ => .ok text⟩
    let j : Json := .array [.string "a.b", .array [], .bool false, .string "fail"]
    Json.ofText? text = some j ∧ j.settle? = some j ∧
      Request.statedQualifier? j = some (.string "fail") ∧
      Request.ofJson? j = some ⟨"a.b", [], false, .fail⟩ ∧
      Cli.Source.request files default (.file "r.json") = .ok ⟨"a.b", [], false, .softFail⟩ := by
  intro text files j
  have hfile : files.read "r.json" = .ok text := rfl
  have htext : Json.ofText? text = some j := by decide +kernel
  have hsettle : j.settle? = some j := by rfl
  have hq : Request.ofJson? j = some ⟨"a.b", [], false, .fail⟩ := by decide +kernel
  exact ⟨htext, hsettle, rfl, hq, Cli.request_file_eq default hfile htext hsettle hq⟩

end SenderPolicy

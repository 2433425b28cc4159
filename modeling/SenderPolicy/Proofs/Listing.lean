import SenderPolicy.Proofs.Content
import SenderPolicy.Proofs.Distinct
import SenderPolicy.Proofs.PlanText

/-! What a planned list of mechanisms holds: every value of the entries in force, once, group
after group, and in each group in the order in which the values first come. -/
namespace SenderPolicy

namespace Mechanism

def kind? : Mechanism → Option Kind
  | inclusion _ => some .inclusion
  | ip4 _ => some .ip4
  | ip6 _ => some .ip6
  | a .. => some .a
  | mx .. => some .mx
  | existence _ => some .existence
  | ptr _ | all => none

def group : Mechanism → Nat
  | inclusion _ => 0
  | ip4 _ => 1
  | ip6 _ => 2
  | a .. => 3
  | mx .. => 4
  | existence _ => 5
  | ptr _ | all => 6

/-- Groups stand in the order in which a record is built. -/
theorem group_eq {m : Mechanism} {kind : Kind} (h : m.kind? = some kind) :
    m.group = Kind.buildOrder.idxOf kind := by
  cases m with
  | ptr | all => cases h
  | _ =>
    obtain rfl := Option.some.inj h
    rfl

theorem mem_buildOrder {m : Mechanism} {kind : Kind} (h : m.kind? = some kind) :
    kind ∈ Kind.buildOrder := by
  cases m with
  | ptr | all => cases h
  | _ =>
    obtain rfl := Option.some.inj h
    decide

/-- A group is of one kind. -/
theorem kind_eq_of_group_eq {m m' : Mechanism} {kind kind' : Kind} (h : m.kind? = some kind)
    (h' : m'.kind? = some kind') (hgroup : m.group = m'.group) : kind = kind' := by
  rw [group_eq h, group_eq h'] at hgroup
  exact (List.idxOf_inj (mem_buildOrder h)).mp hgroup

/-- Mechanisms that can be written have different texts. -/
theorem eq_of_render_eq {m m' : Mechanism} (h : m.IsWritable) (h' : m'.IsWritable)
    (htext : m.render = m'.render) : m = m' := by
  have hread := Record.readMechanism_render h
  rw [htext, Record.readMechanism_render h'] at hread
  exact (Except.ok.inj hread).symm

end Mechanism

inductive Yields (style : MacroStyle) (own value : String) : Kind → Mechanism → Prop
  -- A value of an entry asks for the mechanism with its normal form. Where that names the domain
  -- that publishes the record, `a` and `mx` are left bare.
  | inclusion {v : String} : validate style .inclusion value = .ok v →
      Yields style own value .inclusion (.inclusion v)
  | ip4 {v : String} : validate style .ip4 value = .ok v → Yields style own value .ip4 (.ip4 v)
  | ip6 {v : String} : validate style .ip6 value = .ok v → Yields style own value .ip6 (.ip6 v)
  | a {v : String} : validate style .a value = .ok v →
      HostName.canonical v.toList ≠ HostName.canonical own.toList →
        Yields style own value .a (.a (some v) .host)
  | ownA {v : String} : validate style .a value = .ok v →
      HostName.canonical v.toList = HostName.canonical own.toList →
        Yields style own value .a (.a none .host)
  | mx {v : String} : validate style .mx value = .ok v →
      HostName.canonical v.toList ≠ HostName.canonical own.toList →
        Yields style own value .mx (.mx (some v) .host)
  | ownMx {v : String} : validate style .mx value = .ok v →
      HostName.canonical v.toList = HostName.canonical own.toList →
        Yields style own value .mx (.mx none .host)
  | existence {v : String} : validate style .existence value = .ok v →
      Yields style own value .existence (.existence v)

/-- The own name in any spelling is left out as a target. -/
theorem targetBeside_eq (own value : String) : targetBeside own value =
    if HostName.canonical value.toList = HostName.canonical own.toList then none
    else some value := by
  rw [targetBeside, HostName.same]
  simp only [beq_iff_eq]

/-- What a value yields is the mechanism that a build makes of it. -/
theorem yields_iff {style : MacroStyle} {own value : String} {kind : Kind} {m : Mechanism} :
    Yields style own value kind m ↔ kind.mechanismOf? style own value = some m := by
  rw [Kind.mechanismOf?_eq_some_iff]
  constructor
  · intro h
    cases h with
    | inclusion hv | ip4 hv | ip6 hv | existence hv => exact ⟨_, hv, rfl⟩
    | a hv hname | mx hv hname =>
      exact ⟨_, hv, by rw [Kind.mechanism?, targetBeside_eq, if_neg hname]⟩
    | ownA hv hname | ownMx hv hname =>
      exact ⟨_, hv, by rw [Kind.mechanism?, targetBeside_eq, if_pos hname]⟩
  · intro h
    -- Each kind has its own constructor, and that of a host depends on whether it is the own name.
    obtain ⟨v, hv, hm⟩ := h
    cases kind with
    | inclusion =>
      obtain rfl := Option.some.inj hm
      exact .inclusion hv
    | ip4 =>
      obtain rfl := Option.some.inj hm
      exact .ip4 hv
    | ip6 =>
      obtain rfl := Option.some.inj hm
      exact .ip6 hv
    | existence =>
      obtain rfl := Option.some.inj hm
      exact .existence hv
    | a =>
      rw [Kind.mechanism?, targetBeside_eq] at hm
      obtain rfl := Option.some.inj hm
      split
      next hname => exact .ownA hv hname
      next hname => exact .a hv hname
    | mx =>
      rw [Kind.mechanism?, targetBeside_eq] at hm
      obtain rfl := Option.some.inj hm
      split
      next hname => exact .ownMx hv hname
      next hname => exact .mx hv hname
    | redirect | all => cases hm

/-- A value asks for one mechanism at most. -/
theorem Yields.unique {style : MacroStyle} {own value : String} {kind : Kind} {m m' : Mechanism}
    (h : Yields style own value kind m) (h' : Yields style own value kind m') : m = m' :=
  Option.some.inj ((yields_iff.mp h).symm.trans (yields_iff.mp h'))

theorem Yields.kind?_eq {style : MacroStyle} {own value : String} {kind : Kind} {m : Mechanism}
    (h : Yields style own value kind m) : m.kind? = some kind := by
  cases h <;> rfl

/-- Values have no prefix length for the hosts that they name. -/
theorem Yields.length_eq {style : MacroStyle} {own value : String} {kind : Kind} {m : Mechanism}
    (h : Yields style own value kind m) {target? : Option String} {l : DualLength}
    (hm : m = .a target? l ∨ m = .mx target? l) : l = .host := by
  rcases hm with rfl | rfl
  · cases h <;> rfl
  · cases h <;> rfl

namespace Request

/-- The mechanisms of a kind are what its values yield. -/
theorem mem_kindMechanisms_iff_yields {style : MacroStyle} {q : Request} {kind : Kind}
    {m : Mechanism} : m ∈ q.kindMechanisms style kind ↔
      ∃ values, q.Asks kind values ∧ ∃ value ∈ values, Yields style q.ownDomain value kind m := by
  simp only [mem_kindMechanisms_iff, yields_iff, asks_iff]
  cases q.values? kind <;> simp

theorem kind?_of_mem_kindMechanisms {style : MacroStyle} {q : Request} {kind : Kind}
    {m : Mechanism} (h : m ∈ q.kindMechanisms style kind) : m.kind? = some kind := by
  obtain ⟨values, -, value, -, hm⟩ := mem_kindMechanisms_iff_yields.mp h
  exact hm.kind?_eq

/-- What holds within each kind and from one group to a later one holds along the list. -/
theorem pairwise_mechanisms {style : MacroStyle} {q : Request} {r : Mechanism → Mechanism → Prop}
    (hkind : ∀ kind ∈ Kind.buildOrder, (q.kindMechanisms style kind).Pairwise r)
    (hgroup : ∀ m m', m.group < m'.group → r m m') : (q.mechanisms style).Pairwise r := by
  have horder : Kind.buildOrder.Pairwise fun kind kind' =>
      Kind.buildOrder.idxOf kind < Kind.buildOrder.idxOf kind' := by decide
  refine List.pairwise_flatMap.mpr ⟨hkind, horder.imp fun hlt m hm m' hm' => hgroup m m' ?_⟩
  rwa [Mechanism.group_eq (kind?_of_mem_kindMechanisms hm),
    Mechanism.group_eq (kind?_of_mem_kindMechanisms hm')]

def Precedes (style : MacroStyle) (q : Request) (kind : Kind) (m m' : Mechanism) : Prop :=
  ∃ before value after, q.Asks kind (before ++ value :: after) ∧
    Yields style q.ownDomain value kind m ∧
    ∀ earlier ∈ before ++ [value], ¬ Yields style q.ownDomain earlier kind m'

/-- The list holds what the values in force ask for: all of it, once, and nothing else. -/
structure Lists (style : MacroStyle) (q : Request) (list : List Mechanism) : Prop where
  sorted : list.Pairwise fun m m' => m.group ≤ m'.group
  nodup : list.Nodup
  texts : (list.map Mechanism.render).Nodup
  complete : ∀ kind ≠ .redirect, ∀ values, q.Asks kind values → ∀ value ∈ values,
    ∃ m ∈ list, Yields style q.ownDomain value kind m ∧
      ∀ m', Yields style q.ownDomain value kind m' → m' = m
  sound : ∀ m ∈ list, ∃ kind, m.kind? = some kind ∧
    ∃ values, q.Asks kind values ∧ ∃ value ∈ values, Yields style q.ownDomain value kind m
  firsts : list.Pairwise fun m m' => ∀ kind, m.kind? = some kind → m'.kind? = some kind →
    q.Precedes style kind m m'
  lengths : ∀ m ∈ list, ∀ target? l, m = .a target? l ∨ m = .mx target? l → l = .host

/-- The groups stand in the order of a record. -/
theorem sorted_mechanisms (style : MacroStyle) (q : Request) :
    (q.mechanisms style).Pairwise fun m m' => m.group ≤ m'.group := by
  refine pairwise_mechanisms (fun kind _ => ?_) fun m m' hlt => hlt.le
  refine List.pairwise_of_forall_mem_list fun m hm m' hm' => ?_
  rw [Mechanism.group_eq (kind?_of_mem_kindMechanisms hm),
    Mechanism.group_eq (kind?_of_mem_kindMechanisms hm')]

theorem nodup_mechanisms (style : MacroStyle) (q : Request) : (q.mechanisms style).Nodup := by
  refine pairwise_mechanisms (fun kind _ => ?_) fun m m' hlt => ?_
  · rw [kindMechanisms_eq]
    exact nodup_distinct _
  · rintro rfl
    exact lt_irrefl _ hlt

/-- Within a group mechanisms stand as their first values do. -/
theorem firsts_mechanisms (style : MacroStyle) (q : Request) :
    (q.mechanisms style).Pairwise fun m m' =>
      ∀ kind, m.kind? = some kind → m'.kind? = some kind → q.Precedes style kind m m' := by
  refine pairwise_mechanisms (fun kind _ => ?_) fun m m' hlt kind hm hm' => ?_
  · -- Within a kind, removing repetitions keeps the order of the first values.
    cases hvalues : q.values? kind with
    | none =>
      rw [kindMechanisms_eq, hvalues]
      exact .nil
    | some values =>
      have hfirsts := pairwise_distinct_filterMap (kind.mechanismOf? style q.ownDomain) values
      rw [kindMechanisms_eq, hvalues, Option.getD_some]
      refine hfirsts.imp_of_mem fun {m m'} hmem _ h kind' hm _ => ?_
      have hlisted : m ∈ q.kindMechanisms style kind := by rwa [kindMechanisms_eq, hvalues]
      obtain rfl := Option.some.inj ((kind?_of_mem_kindMechanisms hlisted).symm.trans hm)
      obtain ⟨before, value, after, rfl, hvalue, hearlier⟩ := h
      exact ⟨before, value, after, asks_iff.mpr hvalues, yields_iff.mpr hvalue,
        fun earlier hmem' hyields => hearlier earlier hmem' (yields_iff.mp hyields)⟩
  · -- Mechanisms of one kind are in one group.
    rw [Mechanism.group_eq hm, Mechanism.group_eq hm'] at hlt
    exact absurd hlt (lt_irrefl _)

/-- Every value of an entry in force is good, so it asks for a mechanism. -/
theorem complete_mechanisms {style : MacroStyle} {q : Request}
    (h : q.mechanismRejections style = []) {kind : Kind} (hkind : kind ≠ .redirect)
    {values : List String} (hvalues : q.Asks kind values) {value : String}
    (hvalue : value ∈ values) : ∃ m ∈ q.mechanisms style, Yields style q.ownDomain value kind m := by
  obtain ⟨hgood, hall⟩ := mechanismRejections_eq_nil_iff.mp h
  rw [asks_iff] at hvalues
  by_cases hterminal : kind = .all
  · -- The terminal has no values.
    subst hterminal
    rw [hvalues, Option.getD_some] at hall
    exact absurd hvalue (hall ▸ List.not_mem_nil)
  · have horder : kind ∈ Kind.buildOrder := Kind.mem_buildOrder_iff.mpr ⟨hkind, hterminal⟩
    obtain ⟨v, hv⟩ := (hgood kind horder values hvalues).2 value hvalue
    obtain ⟨m, hm⟩ := Kind.exists_mechanism? horder q.ownDomain v
    have hyields := yields_iff.mpr (Kind.mechanismOf?_eq_some_iff.mpr ⟨v, hv, hm⟩)
    refine ⟨m, List.mem_flatMap.mpr ⟨kind, horder, ?_⟩, hyields⟩
    exact mem_kindMechanisms_iff_yields.mpr ⟨values, asks_iff.mpr hvalues, value, hvalue, hyields⟩

/-- Each mechanism comes from a value of an entry in force. -/
theorem sound_mechanisms {style : MacroStyle} {q : Request} {m : Mechanism}
    (h : m ∈ q.mechanisms style) : ∃ kind, m.kind? = some kind ∧
      ∃ values, q.Asks kind values ∧ ∃ value ∈ values, Yields style q.ownDomain value kind m := by
  obtain ⟨kind, -, hmem⟩ := List.mem_flatMap.mp h
  exact ⟨kind, kind?_of_mem_kindMechanisms hmem, mem_kindMechanisms_iff_yields.mp hmem⟩

/-- Without rejections the planned mechanisms list all the values. -/
theorem lists_mechanisms {style : MacroStyle} {q : Request}
    (h : q.mechanismRejections style = []) : q.Lists style (q.mechanisms style) where
  sorted := sorted_mechanisms style q
  nodup := nodup_mechanisms style q
  texts := by
    refine List.pairwise_map.mpr ((nodup_mechanisms style q).imp_of_mem ?_)
    intro m m' hm hm' hne htext
    exact hne (Mechanism.eq_of_render_eq (isWritable_of_mem_mechanisms hm)
      (isWritable_of_mem_mechanisms hm') htext)
  complete kind hkind values hvalues value hvalue := by
    obtain ⟨m, hm, hyields⟩ := complete_mechanisms h hkind hvalues hvalue
    exact ⟨m, hm, hyields, fun m' hyields' => hyields'.unique hyields⟩
  sound m hm := sound_mechanisms hm
  firsts := firsts_mechanisms style q
  lengths m hm target? l hl := by
    obtain ⟨kind, -, values, -, value, -, hyields⟩ := sound_mechanisms hm
    exact hyields.length_eq hl

theorem Asks.unique {q : Request} {kind : Kind} {values values' : List String}
    (h : q.Asks kind values) (h' : q.Asks kind values') : values = values' :=
  Option.some.inj ((asks_iff.mp h).symm.trans (asks_iff.mp h'))

/-- Of two first values one comes before the other. -/
theorem Precedes.asymm {style : MacroStyle} {q : Request} {kind : Kind} {m m' : Mechanism}
    (h : q.Precedes style kind m m') : ¬ q.Precedes style kind m' m := by
  intro h'
  obtain ⟨before, value, after, hasks, hvalue, hbefore⟩ := h
  obtain ⟨before', value', after', hasks', hvalue', hbefore'⟩ := h'
  have hprefix : before ++ [value] <+: before ++ value :: after := ⟨after, by simp⟩
  have hprefix' : before' ++ [value'] <+: before ++ value :: after :=
    ⟨after', by simp [hasks.unique hasks']⟩
  -- One of the two values comes no later than the other one.
  rcases List.prefix_or_prefix_of_prefix hprefix hprefix' with hle | hle
  · exact hbefore' value (hle.subset (by simp)) hvalue
  · exact hbefore value' (hle.subset (by simp)) hvalue'

theorem Lists.subset {style : MacroStyle} {q : Request} {list list' : List Mechanism}
    (h : q.Lists style list) (h' : q.Lists style list') : list ⊆ list' := by
  intro m hm
  obtain ⟨kind, hkind, values, hvalues, value, hvalue, hyields⟩ := h.sound m hm
  obtain ⟨m', hm', hyields', -⟩ :=
    h'.complete kind (Kind.ne_redirect_of_mem (Mechanism.mem_buildOrder hkind)) values hvalues
      value hvalue
  rwa [hyields.unique hyields']

/-- Nothing about the list is left open. -/
theorem Lists.unique {style : MacroStyle} {q : Request} {list list' : List Mechanism}
    (h : q.Lists style list) (h' : q.Lists style list') : list = list' := by
  have hperm : list.Perm list' := (List.perm_ext_iff_of_nodup h.nodup h'.nodup).mpr fun m =>
    ⟨fun hm => h.subset h' hm, fun hm => h'.subset h hm⟩
  refine List.Perm.eq_of_pairwise (fun m m' hm hm' hle hle' => ?_) (h.sorted.and h.firsts)
    (h'.sorted.and h'.firsts) hperm
  -- Two mechanisms that both may come first are in one group, where one value comes first.
  obtain ⟨kind, hkind, -⟩ := h.sound m hm
  obtain ⟨kind', hkind', -⟩ := h'.sound m' hm'
  obtain rfl := Mechanism.kind_eq_of_group_eq hkind hkind' (Nat.le_antisymm hle.1 hle'.1)
  exact absurd (hle'.2 kind hkind' hkind) (hle.2 kind hkind hkind').asymm

end Request

/-- A planned list holds every value of the entries in force once, in the order of the groups
and of the values, and ends in the qualifier that was asked for. No other list does. -/
theorem plan_lists_values {style : MacroStyle} {q : Request} {list : List Mechanism}
    {terminal : Qualifier} (h : q.plan style = .ok (.mechanisms list terminal)) :
    terminal = q.qualifier ∧ q.Lists style list ∧
      ∀ list', q.Lists style list' → list' = list := by
  obtain ⟨-, hrejections, ⟨-, target, -, hplan⟩ | ⟨-, hplan⟩⟩ := Request.plan_eq_ok_iff.mp h
  · cases hplan
  · obtain ⟨rfl, rfl⟩ := Plan.mechanisms.inj hplan
    have hlists := Request.lists_mechanisms hrejections
    exact ⟨rfl, hlists, fun list' hlist' => hlist'.unique hlists⟩

/-- Values in two spellings, the own domain among them, a disabled entry, and an entry that a
later one replaces. -/
theorem plan_lists_values_spellings :
    let q : Request := ⟨" Example.COM. ", [
      .of .existence ["%i.example.org", "%\x7bi\x7d.example.org"], .of .ip6 ["bad"],
      .of .a ["mail.example.com example.com", "EXAMPLE.com."], ⟨.mx, false, ["bad"]⟩,
      .of .ip6 ["2001:DB8::1 2001:db8::/32", "2001:db8:0::1"],
      .of .inclusion ["_spf.Example.net."], .of .redirect ["bad"]], false, .softFail⟩
    let list : List Mechanism := [.inclusion "_spf.example.net", .ip6 "2001:db8::1",
      .ip6 "2001:db8::/32", .a (some "mail.example.com") .host, .a none .host,
      .existence "%\x7bi\x7d.example.org"]
    q.plan .braced = .ok (.mechanisms list .softFail) ∧ q.Lists .braced list := by
  intro q list
  have hplan : q.plan .braced = .ok (.mechanisms list .softFail) := by decide +kernel
  exact ⟨hplan, (plan_lists_values hplan).2.1⟩

end SenderPolicy

import SenderPolicy.Proofs.Validation

/-! The canonical text of networks. It is read back, so accepted spellings have one text exactly
if they denote one network. For an IPv6 address it is the recommended text. -/
namespace SenderPolicy

namespace Ipv6

/-! Runs of zero groups -/

structure ZeroRun.IsFirstLongest (run : ZeroRun) (groups : List UInt16) : Prop where
  -- The zero groups that a text leaves out: no run is longer, and none of this length begins
  -- earlier.
  eq_append : groups = run.before ++ List.replicate run.length 0 ++ run.after
  le_length {before after : List UInt16} {n : Nat} :
    groups = before ++ List.replicate n 0 ++ after → n ≤ run.length
  length_before_le {before after : List UInt16} :
    groups = before ++ List.replicate run.length 0 ++ after → run.before.length ≤ before.length

theorem ZeroRun.IsFirstLongest.unique {run run' : ZeroRun} {groups : List UInt16}
    (h : run.IsFirstLongest groups) (h' : run'.IsFirstLongest groups) : run = run' := by
  obtain ⟨before, n, after⟩ := run
  obtain ⟨before', n', after'⟩ := run'
  obtain rfl : n = n' := Nat.le_antisymm (h'.le_length h.eq_append) (h.le_length h'.eq_append)
  have hlen : before.length = before'.length :=
    Nat.le_antisymm (h.length_before_le h'.eq_append) (h'.length_before_le h.eq_append)
  have happ : before ++ List.replicate n 0 ++ after = before' ++ List.replicate n 0 ++ after' :=
    h.eq_append.symm.trans h'.eq_append
  rw [List.append_assoc, List.append_assoc] at happ
  -- Both runs begin at the same place, so the groups can be cut there.
  obtain ⟨rfl, hrest⟩ := List.append_inj happ hlen
  obtain rfl := List.append_cancel_left hrest
  rfl

theorem le_length_takeWhile {groups after : List UInt16} {n : Nat}
    (h : groups = List.replicate n 0 ++ after) :
    n ≤ (groups.takeWhile (· == 0)).length := by
  have hzero : ∀ g ∈ List.replicate n (0 : UInt16), (g == 0) = true := by
    intro g hg
    simp [List.eq_of_mem_replicate hg]
  rw [h, List.takeWhile_append_of_pos hzero, List.length_append, List.length_replicate]
  exact Nat.le_add_right _ _

/-- No run of zero groups is longer than the one that is found. -/
theorem le_length_longestZeroRun {groups before after : List UInt16} {n : Nat}
    (h : groups = before ++ List.replicate n 0 ++ after) : n ≤ (longestZeroRun groups).length := by
  induction groups generalizing before with
  | nil =>
    have hlen := congrArg List.length h
    simp only [List.length_nil, List.length_append, List.length_replicate] at hlen
    omega
  | cons g groups ih =>
    -- A run at the front is a part of the zeros there, and any other is one of the rest.
    have hrun : n ≤ ((g :: groups).takeWhile (· == 0)).length ∨
        n ≤ (longestZeroRun groups).length := by
      cases before with
      | nil => exact .inl (le_length_takeWhile h)
      | cons b before => exact .inr (ih (List.cons.inj h).2)
    rw [longestZeroRun]
    split <;> dsimp only <;> omega

/-- No run as long as the one that is found starts before it. -/
theorem length_before_longestZeroRun_le {groups before after : List UInt16}
    (h : groups = before ++ List.replicate (longestZeroRun groups).length 0 ++ after) :
    (longestZeroRun groups).before.length ≤ before.length := by
  induction groups generalizing before with
  | nil => exact Nat.zero_le _
  | cons g groups ih =>
    rw [longestZeroRun] at h ⊢
    split at h
    next hlater =>
      rw [if_pos hlater]
      exact Nat.zero_le _
    next hlater =>
      rw [if_neg hlater]
      cases before with
      | nil =>
        -- A run of this length at the very front would have been taken.
        exact absurd (le_length_takeWhile h) hlater
      | cons b before => exact Nat.succ_le_succ (ih (List.cons.inj h).2)

/-- The search finds the first longest run. -/
theorem longestZeroRun_isFirstLongest (groups : List UInt16) :
    (longestZeroRun groups).IsFirstLongest groups where
  eq_append := (longestZeroRun_append groups).symm
  le_length := le_length_longestZeroRun
  length_before_le := length_before_longestZeroRun_le

/-- Groups are shortened if there are two zero groups side by side. -/
theorem two_le_length_longestZeroRun_iff {groups : List UInt16} :
    2 ≤ (longestZeroRun groups).length ↔ [0, 0] <:+: groups := by
  constructor
  · intro h
    obtain ⟨n, hn⟩ := Nat.exists_eq_add_of_le h
    have hzeros : [0, 0] <:+: List.replicate (longestZeroRun groups).length (0 : UInt16) := by
      rw [hn, List.replicate_add]
      exact (List.prefix_append _ _).isInfix
    exact hzeros.trans ⟨_, _, longestZeroRun_append groups⟩
  · rintro ⟨before, after, h⟩
    exact le_length_longestZeroRun (n := 2) h.symm

/-! The recommended text -/

/-- The recommended text of an address (RFC 5952). A mapped address shows the dotted quad. Of
any other the first longest run of zero groups is left out, unless no two are adjacent. -/
inductive Recommends (a : Ipv6) : List Char → Prop
  | mapped {high low : UInt16} : a.groups = [0, 0, 0, 0, 0, 0xffff, high, low] →
      Recommends a ("::ffff:".toList ++ (Ipv4.ofGroups high low).toChars)
  | compressed {run : ZeroRun} : ¬ a.IsMapped → run.IsFirstLongest a.groups → 2 ≤ run.length →
      Recommends a (groupsText run.before ++ "::".toList ++ groupsText run.after)
  | full : ¬ a.IsMapped → ¬ [0, 0] <:+: a.groups → Recommends a (groupsText a.groups)

/-- An address has one recommended text, which is the one that it is written with. -/
theorem recommends_iff {a : Ipv6} {text : List Char} : a.Recommends text ↔ text = a.toChars := by
  constructor
  · intro h
    cases h with
    | mapped hgroups => exact (toChars_of_mapped hgroups).symm
    | compressed hmapped hrun hlen =>
      obtain rfl := hrun.unique (longestZeroRun_isFirstLongest a.groups)
      rw [toChars_of_not_isMapped hmapped, if_neg (by omega)]
    | full hmapped hzeros =>
      have hlen := mt two_le_length_longestZeroRun_iff.mp hzeros
      rw [toChars_of_not_isMapped hmapped, if_pos (by omega)]
  · rintro rfl
    -- The three forms exclude each other, so the text that is written is of the one that applies.
    by_cases hmapped : a.IsMapped
    · obtain ⟨high, low, hgroups⟩ := hmapped
      exact toChars_of_mapped hgroups ▸ .mapped hgroups
    · rw [toChars_of_not_isMapped hmapped]
      split
      next hlen =>
        have hzeros : ¬ [0, 0] <:+: a.groups := by
          rw [← two_le_length_longestZeroRun_iff]
          omega
        exact .full hmapped hzeros
      next hlen =>
        have hrun := longestZeroRun_isFirstLongest a.groups
        exact .compressed hmapped hrun (by omega)

end Ipv6

/-! Spellings of one network -/

namespace Network

section Lawful

variable {α : Type} [AddressFamily α] [LawfulFamily α]

/-- Networks are equal if their canonical texts are. -/
theorem toChars_inj {n n' : Network α} : n.toChars = n'.toChars ↔ n = n' := by
  refine ⟨fun h => ?_, fun h => h ▸ rfl⟩
  have hread := n.ofChars?_toChars
  rw [h, n'.ofChars?_toChars] at hread
  exact (Option.some.inj hread).symm

end Lawful

def DenotedBy {α : Type} [AddressFamily α] (n : Network α) (raw : String) : Prop :=
  ofChars? (Text.trim raw.toList) = some n

/-- Accepted spellings of networks have one text exactly if they denote the same address with
the same prefix length, or both without one. The values of a kind are such spellings. -/
structure TextDistinguishes (α : Type) [AddressFamily α] (kind : Kind) : Prop where
  text_eq_iff {s s' : List Char} {n n' : Network α} :
    ofChars? s = some n → ofChars? s' = some n' →
      (n.toChars = n'.toChars ↔ n.address = n'.address ∧ n.length? = n'.length?)
  accepted_iff {style : MacroStyle} {raw v : String} :
    validate style kind raw = .ok v ↔ ∃ n : Network α, n.DenotedBy raw ∧ v.toList = n.toChars
  accepted_eq_iff {style : MacroStyle} {raw raw' v v' : String} :
    validate style kind raw = .ok v → validate style kind raw' = .ok v' →
      (v = v' ↔ ∃ n : Network α, n.DenotedBy raw ∧ n.DenotedBy raw')

/-- Two accepted texts have the same normal form exactly if they spell one network. -/
theorem textDistinguishes {α : Type} [AddressFamily α] [LawfulFamily α] {kind : Kind}
    {reason : Reason}
    (hcheck : ∀ style s, Validation.check style kind s = Validation.network α reason s) :
    TextDistinguishes α kind where
  text_eq_iff {_ _ n n'} _ _ := by
    rw [toChars_inj]
    cases n
    cases n'
    simp only [mk.injEq]
  accepted_iff := by
    intro style raw v
    rw [validate_eq_ok_iff, hcheck, Validation.network_eq_ok_iff]
    rfl
  accepted_eq_iff := by
    intro style raw raw' v v' h h'
    rw [validate_eq_ok_iff, hcheck, Validation.network_eq_ok_iff] at h h'
    obtain ⟨n, hn, hv⟩ := h
    obtain ⟨n', hn', hv'⟩ := h'
    rw [← String.toList_inj, hv, hv', toChars_inj]
    constructor
    · rintro rfl
      exact ⟨n, hn, hn'⟩
    · rintro ⟨m, hm, hm'⟩
      exact (Option.some.inj (hn.symm.trans hm)).trans (Option.some.inj (hn'.symm.trans hm')).symm

end Network

/-- The text of every network is read back as that network, with its prefix length or without.
So two accepted spellings have one text exactly if they denote one network, and to compare texts
is enough to find repeated values. An IPv6 address is written with its recommended text. -/
theorem network_text_is_canonical :
    (∀ (a : Ipv4) (length? : Option (PrefixLength 32)),
      Network.ofChars? (Network.mk a length?).toChars = some (Network.mk a length?)) ∧
    (∀ (a : Ipv6) (length? : Option (PrefixLength 128)),
      Network.ofChars? (Network.mk a length?).toChars = some (Network.mk a length?)) ∧
    Network.TextDistinguishes Ipv4 .ip4 ∧ Network.TextDistinguishes Ipv6 .ip6 ∧
    ∀ (a : Ipv6) (text : List Char), a.Recommends text ↔ text = a.toChars :=
  ⟨fun a length? => Network.ofChars?_toChars (Network.mk a length?),
    fun a length? => Network.ofChars?_toChars (Network.mk a length?),
    Network.textDistinguishes fun _ _ => rfl, Network.textDistinguishes fun _ _ => rfl,
    fun _ _ => Ipv6.recommends_iff⟩

/-- Two runs of zero groups of one length, of which the first is left out. One spelling writes
both out, and the other ends in a dotted quad. -/
theorem network_text_is_canonical_tie :
    let raw := "2001:DB8:0:0:1:0:0:1/064"
    let raw' := "2001:db8::1:0:0.0.0.1/64"
    let v := "2001:db8::1:0:0:1/64"
    validate .compact .ip6 raw = .ok v ∧ validate .compact .ip6 raw' = .ok v ∧
      ∃ n : Network Ipv6, n.DenotedBy raw ∧ n.DenotedBy raw' ∧
        Network.ofChars? v.toList = some n := by
  intro raw raw' v
  have hraw : validate .compact .ip6 raw = .ok v := by decide +kernel
  have hraw' : validate .compact .ip6 raw' = .ok v := by decide +kernel
  obtain ⟨-, hread, -, hvalues, -⟩ := network_text_is_canonical
  obtain ⟨n, hn, hn'⟩ := (hvalues.accepted_eq_iff hraw hraw').mp rfl
  obtain ⟨m, hm, hv⟩ := hvalues.accepted_iff.mp hraw
  obtain rfl : m = n := Option.some.inj (hm.symm.trans hn)
  refine ⟨hraw, hraw', m, hn, hn', ?_⟩
  rw [hv]
  exact hread m.address m.length?

end SenderPolicy

import SenderPolicy.Proofs.Address.Ipv6
import SenderPolicy.Proofs.Except
import SenderPolicy.Record

/-! Directives that are written as terms of a record are read back from them. The
arguments for which this holds are described by `Mechanism.IsWritable`. -/
namespace SenderPolicy

namespace DualLength

def Follows (l : DualLength) (target : List Char) : Prop :=
  -- The last slash of the target and the lengths is that of a length: the target has none, or it
  -- has no doubled one and the first length is written behind it.
  '/' ∉ target ∨
    l.v4 ≠ host.v4 ∧ Text.cutDouble '/' target = none ∧ target.getLast? ≠ some '/'

theorem Follows.cutDouble_eq_none {l : DualLength} {target : List Char} (h : l.Follows target) :
    Text.cutDouble '/' target = none := by
  rcases h with h | ⟨-, h, -⟩
  · exact Text.cutDouble_eq_none h
  · exact h

theorem Follows.getLast?_ne {l : DualLength} {target : List Char} (h : l.Follows target) :
    target.getLast? ≠ some '/' := by
  rcases h with h | ⟨-, -, h⟩
  · exact fun hlast => h (List.mem_of_getLast? hlast)
  · exact h

end DualLength

namespace Mechanism

def IsWritable : Mechanism → Prop
  -- Arguments that a term can carry: words, behind which a prefix length is told from the argument,
  -- and networks in canonical text.
  | all => True
  | inclusion target | existence target => Text.IsWord target.toList
  | a target? l | mx target? l =>
    ∀ target ∈ target?, Text.IsWord target.toList ∧ l.Follows target.toList
  | ptr target? => ∀ target ∈ target?, Text.IsWord target.toList
  | ip4 network => ∃ n : Network Ipv4, network.toList = n.toChars
  | ip6 network => ∃ n : Network Ipv6, network.toList = n.toChars

end Mechanism

namespace DualLength

def text4 (l : DualLength) : List Char :=
  if l.v4 = host.v4 then [] else '/' :: l.v4.toChars

def text6 (l : DualLength) : List Char :=
  if l.v6 = host.v6 then [] else '/' :: '/' :: l.v6.toChars

theorem toList_render (l : DualLength) : l.render.toList = l.text4 ++ l.text6 := by
  rw [render, text4, text6, String.toList_append]
  split <;> split <;> simp

theorem isDigit_or_slash_of_mem {l : DualLength} {c : Char} (h : c ∈ l.text4 ++ l.text6) :
    c.isDigit = true ∨ c = '/' := by
  rw [List.mem_append, text4, text6] at h
  rcases h with h | h
  · split at h
    · simp at h
    · rcases List.mem_cons.mp h with h | h
      · exact .inr h
      · exact .inl (PrefixLength.isDigit_of_mem_toChars h)
  · split at h
    · simp at h
    · rcases List.mem_cons.mp h with h | h
      · exact .inr h
      · rcases List.mem_cons.mp h with h | h
        · exact .inr h
        · exact .inl (PrefixLength.isDigit_of_mem_toChars h)

theorem colon_not_mem (l : DualLength) : ':' ∉ l.text4 ++ l.text6 := by
  intro h
  rcases isDigit_or_slash_of_mem h with h | h
  · exact absurd h (by decide)
  · exact absurd h (by decide)

theorem equals_not_mem (l : DualLength) : '=' ∉ l.text4 ++ l.text6 := by
  intro h
  rcases isDigit_or_slash_of_mem h with h | h
  · exact absurd h (by decide)
  · exact absurd h (by decide)

theorem isGraphic_of_mem {l : DualLength} {c : Char} (h : c ∈ l.text4 ++ l.text6) :
    Text.IsGraphic c := by
  rcases isDigit_or_slash_of_mem h with h | rfl
  · exact (isAddressChar_of_isDigit h).isGraphic
  · decide

end DualLength

namespace Mechanism

def keyword : Mechanism → String
  | all => "all"
  | inclusion _ => "include"
  | a .. => "a"
  | mx .. => "mx"
  | ptr _ => "ptr"
  | ip4 _ => "ip4"
  | ip6 _ => "ip6"
  | existence _ => "exists"

def argument : Mechanism → List Char
  | all => []
  | inclusion text | ip4 text | ip6 text | existence text => ':' :: text.toList
  | a target? l | mx target? l => (renderTarget target?).toList ++ (l.text4 ++ l.text6)
  | ptr target? => (renderTarget target?).toList

theorem toList_render (m : Mechanism) : m.render.toList = m.keyword.toList ++ m.argument := by
  cases m <;> simp [render, keyword, argument, DualLength.toList_render]

theorem isAlphanum_of_mem_keyword {m : Mechanism} {c : Char} (h : c ∈ m.keyword.toList) :
    c.isAlphanum = true := by
  have keywords : ∀ m : Mechanism, m.keyword.toList.all Char.isAlphanum = true := by
    intro m
    cases m <;> simp [keyword]
  exact List.all_eq_true.mp (keywords m) c h

theorem keyword_ne_nil (m : Mechanism) : m.keyword.toList ≠ [] := by
  cases m <;> simp [keyword]

theorem colon_not_mem_keyword (m : Mechanism) : ':' ∉ m.keyword.toList := fun h =>
  absurd (isAlphanum_of_mem_keyword h) (by decide)

theorem slash_not_mem_keyword (m : Mechanism) : '/' ∉ m.keyword.toList := fun h =>
  absurd (isAlphanum_of_mem_keyword h) (by decide)

end Mechanism

namespace Record

/-! Prefix lengths behind a target -/

/-- Up to 255 the length of a term is read like that of a network. -/
theorem readLength_eq {max : Nat} (hmax : max < 256) (s : List Char) :
    readLength max s =
      match PrefixLength.ofChars? max s with
      | some n => .ok n
      | none => .error (.invalidLength (String.ofList s)) := by
  rw [readLength, PrefixLength.ofChars?]
  by_cases hplain : s ≠ [] ∧ s.length ≤ 3 ∧ s.all Char.isDigit = true
  · -- Plain digits have no sign, so the number is the same. One that is no byte is above `max`.
    rw [if_pos hplain, Text.byte?_of_all_isDigit hplain.1 hplain.2.2]
    by_cases hbyte : Nat.ofDigitChars 10 s 0 < 256
    · have hval : (UInt8.ofNat (Nat.ofDigitChars 10 s 0)).toNat = Nat.ofDigitChars 10 s 0 :=
        UInt8.toNat_ofNat_of_lt' hbyte
      by_cases hle : Nat.ofDigitChars 10 s 0 ≤ max
      · simp [hbyte, hval, hle, hplain]
      · simp [hbyte, hval, hle]
    · have hle : ¬ Nat.ofDigitChars 10 s 0 ≤ max := by omega
      simp [hbyte, hle]
  · rw [if_neg hplain]
    cases Text.byte? s with
    | none => rfl
    | some n => exact dif_neg fun h => hplain h.2

/-- A length is read back, as long as it is below 256. -/
theorem readLength_toChars {max : Nat} (hmax : max < 256) (n : PrefixLength max) :
    readLength max n.toChars = .ok n := by
  rw [readLength_eq hmax, PrefixLength.ofChars?_toChars (by omega)]

/-- The first length is found behind the last slash. -/
theorem takeLength4_append {target : List Char} {l : DualLength} (h : l.Follows target) :
    takeLength4 (target ++ l.text4) = .ok (target, l.v4) := by
  rw [takeLength4, DualLength.text4]
  by_cases hfull : l.v4 = DualLength.host.v4
  · have hslash : '/' ∉ target := h.resolve_right fun hwritten => hwritten.1 hfull
    rw [if_pos hfull, List.append_nil, Text.cutLast_eq_none_iff.mpr hslash, hfull]
  · rw [if_neg hfull, Text.cutLast_append _ l.v4.slash_not_mem_toChars]
    simp only [readLength_toChars (by decide : 32 < 256)]
    rfl

/-- The second length is found behind the doubled slash. -/
theorem takeLength6_append {target : List Char} (hdouble : Text.cutDouble '/' target = none)
    (hend : target.getLast? ≠ some '/') (l : DualLength) :
    takeLength6 (target ++ (l.text4 ++ l.text6)) = .ok (target ++ l.text4, l.v6) := by
  -- In front of the second length no slash is doubled, and none is the last sign.
  have hsingle : Text.cutDouble '/' (target ++ l.text4) = none := by
    rw [DualLength.text4]
    split
    · rw [List.append_nil, hdouble]
    · exact Text.cutDouble_single hdouble hend l.v4.slash_not_mem_toChars
  have hlast : (target ++ l.text4).getLast? ≠ some '/' := by
    have hdigits : l.v4.toChars.getLast? ≠ some '/' := fun hl =>
      l.v4.slash_not_mem_toChars (List.mem_of_getLast? hl)
    have hne : l.v4.toChars ≠ [] := Text.decimal_ne_nil _
    rw [DualLength.text4]
    split
    · rwa [List.append_nil]
    · rwa [List.getLast?_append_of_ne_nil _ (by simp), List.getLast?_cons_of_ne_nil hne]
  rw [← List.append_assoc, takeLength6, DualLength.text6]
  by_cases hfull : l.v6 = DualLength.host.v6
  · rw [if_pos hfull, List.append_nil, hsingle, hfull]
  · rw [if_neg hfull, Text.cutDouble_append_cons_cons hsingle hlast]
    simp only [readLength_toChars (by decide : 128 < 256)]
    rfl

/-- A target and both lengths are told apart again. -/
theorem targetAndLength_append {target : List Char} {l : DualLength} (h : l.Follows target) :
    targetAndLength (target ++ (l.text4 ++ l.text6)) = .ok (targetOf target, l) := by
  rw [targetAndLength, takeLength6_append h.cutDouble_eq_none h.getLast?_ne, ok_bind]
  dsimp only
  rw [takeLength4_append h]
  rfl

/-- A canonical network is read as it stands. -/
theorem readNetwork_of_canonical {α : Type} [AddressFamily α] [LawfulFamily α]
    (invalid : String → RecordError) {network : String} {n : Network α}
    (h : network.toList = n.toChars) : readNetwork α invalid network.toList = .ok network := by
  rw [readNetwork, h, n.split?_toChars, n.ofChars?_toChars]
  simp [← h]

/-! Mechanisms by their names -/

/-- The first colon ends the name. -/
theorem splitTerm_colon {name : List Char} (h : ':' ∉ name) (argument : List Char) :
    splitTerm (name ++ ':' :: argument) = (name, some argument) := by
  rw [splitTerm, Text.cutFirst_append h]

/-- Without a colon the name ends at the first slash. -/
theorem splitTerm_length {name : List Char} (hcolon : ':' ∉ name) (hslash : '/' ∉ name)
    (l : DualLength) : ∃ argument?, splitTerm (name ++ (l.text4 ++ l.text6)) = (name, argument?) ∧
      argument?.getD [] = l.text4 ++ l.text6 := by
  have hnone : Text.cutFirst ':' (name ++ (l.text4 ++ l.text6)) = none := by
    rw [Text.cutFirst_eq_none_iff, List.mem_append, not_or]
    exact ⟨hcolon, l.colon_not_mem⟩
  rw [splitTerm, hnone]
  -- Without a target the argument is what starts at the first slash.
  cases htext : l.text4 ++ l.text6 with
  | nil =>
    rw [List.append_nil, Text.cutFirst_eq_none_iff.mpr hslash]
    exact ⟨none, rfl, rfl⟩
  | cons c rest =>
    have hc : c = '/' := by
      rw [DualLength.text4, DualLength.text6] at htext
      split at htext <;> split at htext
      · cases htext
      all_goals exact (List.cons.inj htext).1.symm
    rw [hc, Text.cutFirst_append hslash]
    exact ⟨some ('/' :: rest), rfl, rfl⟩

/-- With or without a target, the name is followed by the target and the lengths. -/
theorem splitTerm_target {name : List Char} (hcolon : ':' ∉ name) (hslash : '/' ∉ name)
    {target? : Option String}
    {l : DualLength} (h : ∀ target ∈ target?, Text.IsWord target.toList ∧ l.Follows target.toList) :
    ∃ argument?, splitTerm (name ++ ((Mechanism.renderTarget target?).toList ++
      (l.text4 ++ l.text6))) = (name, argument?) ∧
      targetAndLength (argument?.getD []) = .ok (target?, l) := by
  -- A target comes with a colon of its own. Without one the lengths follow the name directly.
  cases target? with
  | none =>
    obtain ⟨argument?, hsplit, hargument⟩ := splitTerm_length hcolon hslash l
    refine ⟨argument?, by simpa [Mechanism.renderTarget] using hsplit, ?_⟩
    rw [hargument]
    exact targetAndLength_append (.inl List.not_mem_nil)
  | some target =>
    obtain ⟨hword, htarget⟩ := h target rfl
    refine ⟨some (target.toList ++ (l.text4 ++ l.text6)), ?_, ?_⟩
    · simpa [Mechanism.renderTarget] using
        splitTerm_colon hcolon (target.toList ++ (l.text4 ++ l.text6))
    · have hne : target ≠ "" := by
        rintro rfl
        exact hword.ne_nil rfl
      rw [Option.getD_some, targetAndLength_append htarget]
      simp [targetOf, hne]

theorem required_of_ne_nil {name : String} {s : List Char} (h : s ≠ []) :
    required name (some s) = .ok s := by
  obtain ⟨c, cs, rfl⟩ := List.exists_cons_of_ne_nil h
  rfl

/-- A mechanism that can be written is read back. -/
theorem readMechanism_render {m : Mechanism} (h : m.IsWritable) :
    readMechanism m.render.toList = .ok m := by
  have hcolon := m.colon_not_mem_keyword
  -- The keyword is split off at the colon or at the slash, and selects the reader.
  cases m with
  | all => rfl
  | inclusion target | existence target =>
    rw [readMechanism, Mechanism.toList_render, Mechanism.argument, splitTerm_colon hcolon]
    simp [Mechanism.keyword, Text.lower, required_of_ne_nil h.ne_nil]
  | a target? l | mx target? l =>
    obtain ⟨argument?, hsplit, hargument⟩ :=
      splitTerm_target hcolon (Mechanism.slash_not_mem_keyword _) h
    rw [readMechanism, Mechanism.toList_render, Mechanism.argument, hsplit]
    simp [Mechanism.keyword, Text.lower, hargument]
  | ptr target? =>
    cases target? with
    | none => rfl
    | some target =>
      have hne : target ≠ "" := by
        rintro rfl
        exact (h "" rfl).ne_nil rfl
      have hargument : (Mechanism.ptr (some target)).argument = ':' :: target.toList := by
        simp [Mechanism.argument, Mechanism.renderTarget]
      rw [readMechanism, Mechanism.toList_render, hargument, splitTerm_colon hcolon]
      simp [Mechanism.keyword, Text.lower, targetOf, hne]
  | ip4 network | ip6 network =>
    obtain ⟨n, hn⟩ := h
    have hne : network.toList ≠ [] := hn ▸ n.toChars_ne_nil
    rw [readMechanism, Mechanism.toList_render, Mechanism.argument, splitTerm_colon hcolon]
    simp [Mechanism.keyword, Text.lower, required_of_ne_nil hne, readNetwork_of_canonical _ hn]

end Record
end SenderPolicy

import SenderPolicy.Proofs.Text.Words
import SenderPolicy.Text.Letters

/-! Numbers that are written in digits and read again, in decimal and in hexadecimal, and
numbers of bytes that are read from plain digits. -/
namespace SenderPolicy.Text

theorem isDigit_of_mem_decimal {n : Nat} {c : Char} (h : c ∈ decimal n) : c.isDigit = true :=
  Nat.isDigit_of_mem_toDigits (by decide) (by decide) h

theorem all_isDigit_decimal (n : Nat) : (decimal n).all Char.isDigit = true :=
  List.all_eq_true.mpr fun _ hc => isDigit_of_mem_decimal hc

theorem decimal_ne_nil (n : Nat) : decimal n ≠ [] :=
  Nat.toDigits_ne_nil

theorem length_decimal_le_three {n : Nat} (h : n < 1000) : (decimal n).length ≤ 3 :=
  (Nat.length_toDigits_le_iff (by decide) (by decide)).mpr h

/-- Decimal numbers have no leading zero, but for zero itself. -/
theorem head?_decimal_ne_zero {n : Nat} (h : n ≠ 0) : (decimal n).head? ≠ some '0' := by
  induction n using Nat.strongRecOn with
  | ind n ih =>
    rw [decimal, Nat.toDigits_eq_if (by decide)]
    by_cases hn : n < 10
    · have digits : ∀ m < 10, m ≠ 0 → Nat.digitChar m ≠ '0' := by decide
      simpa [hn] using digits n hn h
    · have hhead := ih (n / 10) (by omega) (by omega)
      obtain ⟨c, cs, hcs⟩ := List.exists_cons_of_ne_nil (decimal_ne_nil (n / 10))
      rw [hcs] at hhead
      rw [decimal] at hcs
      rw [if_neg hn, hcs]
      simpa using hhead

theorem length_decimal_eq_one {n : Nat} (h : (decimal n).head? = some '0') :
    (decimal n).length = 1 := by
  have hn : n = 0 := Decidable.byContradiction fun hn => head?_decimal_ne_zero hn h
  rw [hn]
  rfl

theorem digitValue?_digitChar {d : Nat} (h : d < 16) : digitValue? 16 d.digitChar = some d := by
  have digits : ∀ d < 16, digitValue? 16 (Nat.digitChar d) = some d := by decide
  exact digits d h

/-- One more digit multiplies the value by the base and adds to it. -/
theorem natOfDigits?_append_singleton {base n d : Nat} {s : List Char} {c : Char}
    (hs : natOfDigits? base s = some n) (hc : digitValue? base c = some d) :
    natOfDigits? base (s ++ [c]) = some (base * n + d) := by
  rw [natOfDigits?] at hs ⊢
  rw [List.foldlM_append, hs]
  simp [hc]

/-- A number is read back from its hexadecimal digits. -/
theorem natOfDigits?_toDigits (n : Nat) : natOfDigits? 16 (Nat.toDigits 16 n) = some n := by
  induction n using Nat.strongRecOn with
  | ind n ih =>
    rw [Nat.toDigits_eq_if (by decide)]
    by_cases hn : n < 16
    · rw [if_pos hn, natOfDigits?]
      simp [digitValue?_digitChar hn]
    · -- The last digit is read behind a shorter number.
      have hrest := ih (n / 16) (by omega)
      have hdigit := digitValue?_digitChar (Nat.mod_lt n (by decide : 0 < 16))
      rw [if_neg hn, natOfDigits?_append_singleton hrest hdigit, Nat.div_add_mod]

theorem natOfDigits?_eq_none {base : Nat} {s : List Char} {c : Char} (hc : c ∈ s)
    (h : digitValue? base c = none) : natOfDigits? base s = none := by
  -- The digits in front of `c` give some number, so the start of the fold is left open.
  have fold : ∀ n, s.foldlM (fun n c => (digitValue? base c).map (base * n + ·)) n = none := by
    induction s with
    | nil => simp at hc
    | cons d s ih =>
      intro n
      rw [List.foldlM_cons]
      rcases List.mem_cons.mp hc with rfl | hc
      · simp [h]
      · cases digitValue? base d with
        | none => rfl
        | some v => simpa using ih hc _
  exact fold 0

theorem mem_toDigits {n : Nat} {c : Char} (h : c ∈ Nat.toDigits 16 n) :
    ∃ d < 16, c = Nat.digitChar d := by
  induction n using Nat.strongRecOn with
  | ind n ih =>
    rw [Nat.toDigits_eq_if (by decide)] at h
    by_cases hn : n < 16
    · rw [if_pos hn, List.mem_singleton] at h
      exact ⟨n, hn, h⟩
    · rw [if_neg hn, List.mem_append, List.mem_singleton] at h
      rcases h with h | h
      · exact ih (n / 16) (by omega) h
      · exact ⟨n % 16, Nat.mod_lt n (by decide), h⟩

/-! Numbers of bytes -/

theorem afterPlus_of_all_isDigit {s : List Char} (h : s.all Char.isDigit = true) :
    afterPlus s = s := by
  unfold afterPlus
  split
  next rest => exact absurd (List.all_eq_true.mp h '+' List.mem_cons_self) (by decide)
  next => rfl

theorem byte?_of_all_isDigit {s : List Char} (hne : s ≠ []) (h : s.all Char.isDigit = true) :
    byte? s = if Nat.ofDigitChars 10 s 0 < 256 then some (UInt8.ofNat (Nat.ofDigitChars 10 s 0))
      else none := by
  simp only [byte?, afterPlus_of_all_isDigit h, ne_eq, hne, not_false_eq_true, h, true_and]

end SenderPolicy.Text

import Outbox.Text.Digit
import Mathlib.Algebra.Group.Nat.Defs
import Mathlib.Data.List.Basic

/-!
# Digits give back their number

In every base up to sixteen.
-/

namespace Outbox.Text

variable {base n : Nat}

theorem hexValue?_digitChar (h : n < 16) : hexValue? n.digitChar = some n := by
  revert n
  decide

theorem digit?_digitChar (hb : base ≤ 16) (h : n < base) : digit? base n.digitChar = some n := by
  simp [digit?, hexValue?_digitChar (Nat.lt_of_lt_of_le h hb), h]

theorem foldlM_toDigits (h1 : 1 < base) (hb : base ≤ 16) (n : Nat) :
    (Nat.toDigits base n).foldlM (fun m c => (digit? base c).map (m * base + ·)) 0 = some n := by
  induction n using Nat.strongRecOn with
  | ind n ih =>
    by_cases h : n < base
    · rw [Nat.toDigits_of_lt_base h]
      simp [digit?_digitChar hb h]
    · have hmod := digit?_digitChar hb (Nat.mod_lt n (Nat.zero_lt_of_lt h1))
      have hlt : n / base < n := Nat.div_lt_self (by omega) h1
      rw [Nat.toDigits_of_base_le h1 (Nat.not_lt.1 h), List.foldlM_append, ih _ hlt]
      simp [hmod, Nat.div_add_mod']

theorem digits?_toDigits (h1 : 1 < base) (hb : base ≤ 16) (n : Nat) :
    digits? base (Nat.toDigits base n) = some n := by
  rw [digits?, if_neg, foldlM_toDigits h1 hb]
  simp [Nat.toDigits_ne_nil]

theorem below?_toDigits (h1 : 1 < base) (hb : base ≤ 16) {bound : Nat} (h : n < bound) :
    below? base bound (Nat.toDigits base n) = some n := by
  simp [below?, digits?_toDigits h1 hb, h]

theorem length_toDigits_le (h1 : 1 < base) {k : Nat} (h : n < base ^ (k + 1)) :
    (Nat.toDigits base n).length ≤ k + 1 := by
  induction k generalizing n with
  | zero =>
    rw [Nat.toDigits_of_lt_base (by simpa using h)]
    exact Nat.le_refl _
  | succ k ih =>
    by_cases hn : n < base
    · rw [Nat.toDigits_of_lt_base hn]
      exact Nat.succ_le_succ (Nat.zero_le _)
    · have hdiv : n / base < base ^ (k + 1) :=
        Nat.div_lt_of_lt_mul (Nat.lt_of_lt_of_eq h (Nat.pow_succ'))
      rw [Nat.toDigits_of_base_le h1 (Nat.not_lt.1 hn), List.length_append]
      exact Nat.succ_le_succ (ih hdiv)

/-- What holds of every digit of a base up to sixteen holds of each that is written. -/
theorem of_mem_toDigits (h1 : 1 < base) (hb : base ≤ 16) {P : Char → Prop}
    (hP : ∀ d < 16, P d.digitChar) {c : Char} (h : c ∈ Nat.toDigits base n) : P c := by
  induction n using Nat.strongRecOn with
  | ind n ih =>
    by_cases hn : n < base
    · rw [Nat.toDigits_of_lt_base hn, List.mem_singleton] at h
      exact h ▸ hP n (Nat.lt_of_lt_of_le hn hb)
    · rw [Nat.toDigits_of_base_le h1 (Nat.not_lt.1 hn), List.mem_append, List.mem_singleton] at h
      rcases h with h | rfl
      · exact ih _ (Nat.div_lt_self (by omega) h1) h
      · exact hP _ (Nat.lt_of_lt_of_le (Nat.mod_lt n (Nat.zero_lt_of_lt h1)) hb)

/-- A character that is no digit is not written. -/
theorem not_mem_toDigits (h1 : 1 < base) (hb : base ≤ 16) {c : Char}
    (hc : ∀ d < 16, c ≠ d.digitChar) (n : Nat) : c ∉ Nat.toDigits base n := fun h =>
  of_mem_toDigits (P := (c ≠ ·)) h1 hb hc h rfl

/-! ### Decimal digits -/

theorem isDigit_of_mem_toDigits {c : Char} (h : c ∈ Nat.toDigits 10 n) : c.isDigit :=
  Nat.isDigit_of_mem_toDigits (by decide) (by decide) h

/-- Only the number zero begins with a zero. -/
theorem head?_toDigits (h : (Nat.toDigits 10 n).head? = some '0') : n = 0 := by
  induction n using Nat.strongRecOn with
  | ind n ih =>
    by_cases hn : n < 10
    · have hdigit : ∀ m < 10, [m.digitChar].head? = some '0' → m = 0 := by decide
      rw [Nat.toDigits_of_lt_base hn] at h
      exact hdigit n hn h
    · rw [Nat.toDigits_of_base_le (by decide) (Nat.not_lt.1 hn),
        List.head?_append_of_ne_nil _ Nat.toDigits_ne_nil] at h
      have := ih (n / 10) (by omega) h
      omega

theorem toDigits_inj {m : Nat} : Nat.toDigits 10 m = Nat.toDigits 10 n ↔ m = n := by
  refine ⟨fun h => ?_, congrArg _⟩
  rw [← Nat.ofDigitChars_ten_toDigits (n := m), h, Nat.ofDigitChars_ten_toDigits]

/-- A greater number has no fewer digits. -/
theorem length_toDigits_mono {m : Nat} (h : m ≤ n) :
    (Nat.toDigits 10 m).length ≤ (Nat.toDigits 10 n).length := by
  have hpos : 0 < (Nat.toDigits 10 n).length := Nat.length_toDigits_pos
  refine (Nat.length_toDigits_le_iff (by decide) hpos).2 (Nat.lt_of_le_of_lt h ?_)
  exact (Nat.length_toDigits_le_iff (by decide) hpos).1 (Nat.le_refl _)

/-! ### Numbers that are read -/

theorem lt_of_digit? {c : Char} (h : digit? base c = some n) : n < base := by
  unfold digit? at h
  cases hc : hexValue? c with
  | none => simp [hc] at h
  | some m =>
    simp only [hc, Option.bind_eq_bind, Option.bind_some, Option.ite_none_right_eq_some,
      Option.some.injEq] at h
    exact h.2 ▸ h.1

/-- So many digits write no greater number. -/
theorem lt_of_digits? {cs : List Char} (h : digits? base cs = some n) : n < base ^ cs.length := by
  have hfold : ∀ (cs : List Char) (m : Nat),
      cs.foldlM (fun m c => (digit? base c).map (m * base + ·)) m = some n →
      n < (m + 1) * base ^ cs.length := by
    intro cs
    induction cs with
    | nil =>
      intro m h
      cases h
      simp
    | cons c cs ih =>
      intro m h
      rw [List.foldlM_cons] at h
      obtain ⟨k, hk, h⟩ := Option.bind_eq_some_iff.1 h
      obtain ⟨d, hd, rfl⟩ := Option.map_eq_some_iff.1 hk
      have hle : m * base + d + 1 ≤ (m + 1) * base := by
        have hlt := lt_of_digit? hd
        rw [Nat.add_mul]
        omega
      refine Nat.lt_of_lt_of_le (ih _ h) ?_
      rw [List.length_cons, Nat.pow_succ', ← Nat.mul_assoc]
      exact Nat.mul_le_mul_right _ hle
  unfold digits? at h
  split at h
  · cases h
  · simpa using hfold cs 0 h

theorem lt_of_below? {bound : Nat} {cs : List Char} (h : below? base bound cs = some n) :
    n < bound := by
  unfold below? at h
  cases hcs : digits? base cs with
  | none => simp [hcs] at h
  | some m =>
    simp only [hcs, Option.bind_eq_bind, Option.bind_some, Option.ite_none_right_eq_some,
      Option.some.injEq] at h
    exact h.2 ▸ h.1

end Outbox.Text

import Outbox.Proofs.Json.RoundTrip
import Outbox.Proofs.Text.Digit
import Mathlib.Data.List.TakeWhile

/-!
# Integers are read back

The digits of a number are read as the number as long as it fits 64 bits, and a minus sign in front
of them makes it negative (`readsBack_integer`).
-/

namespace Outbox.Json

variable {n m : Nat} {cs : List Char}

theorem le_ofDigitChars (cs : List Char) (m : Nat) : m ≤ Nat.ofDigitChars 10 cs m := by
  induction cs generalizing m with
  | nil => exact Nat.le_refl m
  | cons c cs ih =>
    rw [Nat.ofDigitChars_cons]
    have h := ih (10 * m + (c.toNat - '0'.toNat))
    omega

/-- As long as the number fits, no digit is left over. -/
theorem appendDigits_eq (h : Nat.ofDigitChars 10 cs m ≤ significandLimit) :
    appendDigits cs m = (Nat.ofDigitChars 10 cs m, 0) := by
  induction cs generalizing m with
  | nil => rfl
  | cons c cs ih =>
    have hstep : m * 10 + digit c = 10 * m + (c.toNat - '0'.toNat) := by
      rw [digit, Nat.mul_comm]
    rw [Nat.ofDigitChars_cons] at h ⊢
    have hle := Nat.le_trans (le_ofDigitChars cs _) h
    rw [appendDigits, hstep, if_neg (Nat.not_lt.2 hle), ih h]

/-- Digits are read to their end. -/
theorem readNumber_toDigits (negative : Bool) (n : Nat) :
    readNumber negative (Nat.toDigits 10 n) =
      some ((Numeral.mk negative (Nat.toDigits 10 n) none none).value, []) := by
  have htake : (Nat.toDigits 10 n).takeWhile Char.isDigit = Nat.toDigits 10 n :=
    List.takeWhile_eq_self_iff.2 fun _ => Text.isDigit_of_mem_toDigits
  have hdrop : (Nat.toDigits 10 n).dropWhile Char.isDigit = [] :=
    List.dropWhile_eq_nil_iff.2 fun _ => Text.isDigit_of_mem_toDigits
  have hwhole : ¬((Nat.toDigits 10 n).isEmpty ∨
      (Nat.toDigits 10 n).head? = some '0' ∧ (Nat.toDigits 10 n).length > 1) := by
    rintro (hempty | ⟨hhead, hlength⟩)
    · exact Nat.toDigits_ne_nil (List.isEmpty_iff.1 hempty)
    · rw [Text.head?_toDigits hhead] at hlength
      exact absurd hlength (by decide)
  rw [readNumber, htake, hdrop]
  simp only [if_neg hwhole]
  rfl

theorem isBlank_of_isDigit {c : Char} (h : c.isDigit) : isBlank c = false := by
  simp only [isBlank, Bool.or_eq_false_iff, decide_eq_false_iff_not]
  refine ⟨⟨⟨?_, ?_⟩, ?_⟩, ?_⟩ <;> rintro rfl <;> exact absurd h (by decide)

theorem value_plain (h : n ≤ significandLimit) :
    (Numeral.mk false (Nat.toDigits 10 n) none none).value = .integer n := by
  have hdigits : appendDigits (Nat.toDigits 10 n) 0 = (n, 0) := by
    rw [appendDigits_eq] <;> rw [Nat.ofDigitChars_ten_toDigits]
    exact h
  simp [Numeral.value, hdigits]

theorem value_minus (hpos : 1 ≤ n) (h : n ≤ Nat.pow 2 63) :
    (Numeral.mk true (Nat.toDigits 10 n) none none).value = .integer (-n) := by
  have hlimit : Nat.pow 2 63 ≤ significandLimit := by decide
  have hdigits : appendDigits (Nat.toDigits 10 n) 0 = (n, 0) := by
    rw [appendDigits_eq] <;> rw [Nat.ofDigitChars_ten_toDigits]
    exact Nat.le_trans h hlimit
  have hfits : 1 ≤ n ∧ n ≤ Nat.pow 2 63 := ⟨hpos, h⟩
  simp only [Numeral.value, hdigits, if_pos hfits]
  rfl

/-- Whole numbers of 64 bits are read back, with a sign or without. -/
theorem readsBack_integer {i : Int} (hl : -(Nat.pow 2 63 : Int) ≤ i) (hg : i < Nat.pow 2 64) :
    (Number.integer i).ReadsBack := by
  unfold Number.ReadsBack
  rw [Number.render]
  cases i with
  | ofNat n =>
    have hchars : (toString (Int.ofNat n)).toList = Nat.toDigits 10 n := Nat.toList_repr
    have hn : n ≤ significandLimit := Nat.le_sub_one_of_lt (Int.ofNat_lt.1 hg)
    have hread := readNumber_toDigits false n
    rw [value_plain hn] at hread
    obtain ⟨c, ds, hcs⟩ := List.exists_cons_of_ne_nil (Nat.toDigits_ne_nil (n := n) (b := 10))
    have hdigit : c.isDigit := Text.isDigit_of_mem_toDigits (hcs ▸ List.mem_cons_self)
    rw [hchars]
    rw [hcs] at hread ⊢
    exact readValue_digit (skipBlank_of_not (isBlank_of_isDigit hdigit) ds) hdigit hread
  | negSucc n =>
    have hchars : (toString (Int.negSucc n)).toList = '-' :: Nat.toDigits 10 (n + 1) := by
      change ("-" ++ (n + 1).repr).toList = _
      rw [String.toList_append, Nat.toList_repr]
      rfl
    have hn : n + 1 ≤ Nat.pow 2 63 := by
      rw [Int.negSucc_eq, Int.neg_le_neg_iff] at hl
      exact Int.ofNat_le.1 hl
    have hread := readNumber_toDigits true (n + 1)
    rw [value_minus (Nat.succ_pos n) hn] at hread
    rw [hchars, readValue, skipBlank_of_not rfl]
    simp only [hread]
    rfl

end Outbox.Json

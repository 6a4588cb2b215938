import Outbox.Proofs.Text.Digit
import Outbox.Toml.Scalar
import Mathlib.Data.List.Basic
import Mathlib.Data.List.TakeWhile

/-!
# Integers are read as they were written

The digits of a number give back the number, and neither a sign before them nor the end of the line
behind them makes anything else of the word.
-/

namespace Outbox

namespace Toml
variable {n : Nat} {ds r : List Char} {c : Char}

theorem decimal?_toDigits (n : Nat) : decimal? (Nat.toDigits 10 n) = some n := by
  have hzero : ¬ ((Nat.toDigits 10 n).head? = some '0' ∧ (Nat.toDigits 10 n).length > 1) := by
    rintro ⟨hhead, hlength⟩
    rw [Text.head?_toDigits hhead] at hlength
    exact absurd hlength (by decide)
  have hgroup : '_' ∉ Nat.toDigits 10 n := fun h =>
    absurd (Text.isDigit_of_mem_toDigits h) (by decide)
  have hgrouped : grouped? (Nat.toDigits 10 n) = some (Nat.toDigits 10 n) := by
    simp [grouped?, List.splitOn_eq_singleton hgroup, Nat.toDigits_ne_nil]
  rw [decimal?, if_neg hzero, numeral?, hgrouped]
  exact Text.digits?_toDigits (by decide) (by decide) n

/-- A word of digits behind at most one other character is no date and no time. -/
theorem isMoment_cons (h : ∀ d ∈ ds, d.isDigit) (c : Char) : isMoment (c :: ds) = false := by
  have hdate : takeDate? (c :: ds) = none := by
    unfold takeDate?
    split
    · rename_i heq
      have hmem : '-' ∈ ds := by
        rw [(List.cons.inj heq).2]
        simp
      exact absurd (h _ hmem) (by decide)
    · rfl
  have htime : takeTime? (c :: ds) = none := by
    unfold takeTime?
    split
    · rename_i heq
      have hmem : ':' ∈ ds := by
        rw [(List.cons.inj heq).2]
        simp
      exact absurd (h _ hmem) (by decide)
    · rfl
  simp [isMoment, hdate, htime]

/-- Digits behind at most a sign are no float. -/
theorem floatOf?_eq_none {negative : Bool} {cs : List Char} (h : ∀ d ∈ ds, d.isDigit)
    (hsign : takeSign cs = (negative, ds)) : floatOf? cs = none := by
  have hnot : ∀ {c : Char}, c.isDigit = false → c ∉ ds := fun hc hmem =>
    absurd (h _ hmem) (by simp [hc])
  have hnamed : namedFloat? negative ds = none := by
    unfold namedFloat?
    rw [if_neg, if_neg]
    · rintro rfl
      exact hnot (c := 'n') (by decide) (by decide)
    · rintro rfl
      exact hnot (c := 'n') (by decide) (by decide)
  have hbody : ds.takeWhile (fun c => !(decide (c = 'e') || decide (c = 'E'))) = ds :=
    List.takeWhile_eq_self_iff.2 fun c hc => by
      have he : c ≠ 'e' := fun h => hnot (c := 'e') (by decide) (h ▸ hc)
      have hE : c ≠ 'E' := fun h => hnot (c := 'E') (by decide) (h ▸ hc)
      simp [he, hE]
  have hwhole : ds.takeWhile (· ≠ '.') = ds :=
    List.takeWhile_eq_self_iff.2 fun c hc =>
      decide_eq_true fun h => hnot (c := '.') (by decide) (h ▸ hc)
  simp only [floatOf?, hsign, hnamed, hbody, hwhole, if_true]
  rfl

theorem takeSign_of_isDigit (h : c.isDigit) (ds : List Char) :
    takeSign (c :: ds) = (false, c :: ds) := by
  unfold takeSign
  split
  · rename_i heq
    exact absurd h (by rw [(List.cons.inj heq).1]; decide)
  · rename_i heq
    exact absurd h (by rw [(List.cons.inj heq).1]; decide)
  · rfl

theorem integerOf?_eq {negative : Bool} {cs : List Char} (h : ∀ d ∈ ds, d.isDigit)
    (hsign : takeSign cs = (negative, ds)) (hcs : cs = ds ∨ cs.head? ≠ some '0') :
    integerOf? cs = (decimal? ds).bind fun n => fitting? (if negative then -(n : Int) else n) := by
  have hbase : ∀ {c : Char} {t : List Char}, c.isDigit = false → cs ≠ '0' :: c :: t := by
    rintro c t hc rfl
    rcases hcs with rfl | hcs
    · exact absurd (h c (by simp)) (by simp [hc])
    · exact hcs rfl
  unfold integerOf?
  split
  · exact absurd rfl (hbase (c := 'x') (by decide))
  · exact absurd rfl (hbase (c := 'o') (by decide))
  · exact absurd rfl (hbase (c := 'b') (by decide))
  · rw [hsign]
    rfl

/-- The digits of a number, with a minus sign or without, are an integer and nothing else. -/
theorem ofWord?_digits {negative : Bool} (hds : ∀ d ∈ ds, d.isDigit)
    (hsign : takeSign (c :: ds) = (negative, Nat.toDigits 10 n))
    (hc : c :: ds = Nat.toDigits 10 n ∨ c ≠ '0') :
    ofWord? (c :: ds) = (fitting? (if negative then -(n : Int) else n)).map integer := by
  have hdigits : ∀ d ∈ Nat.toDigits 10 n, d.isDigit := fun d hd => Text.isDigit_of_mem_toDigits hd
  have hword : ∀ {d : Char} {w : String}, d.isDigit = false → d ∈ w.toList.tail →
      c :: ds ≠ w.toList := by
    intro d w hd hmem heq
    rw [← heq] at hmem
    exact absurd (hds d hmem) (by simp [hd])
  have hinteger := integerOf?_eq hdigits hsign (hc.imp_right fun h heq => h (Option.some.inj heq))
  rw [ofWord?, if_neg (hword (d := 'u') (by decide) (by decide)),
    if_neg (hword (d := 's') (by decide) (by decide)), isMoment_cons hds, if_neg (by decide),
    floatOf?_eq_none hdigits hsign, hinteger, decimal?_toDigits, Option.bind_some]

/-- The integer is in the range of the format. -/
def Fits (i : Int) : Prop := leastInteger ≤ i ∧ i ≤ greatestInteger

instance (i : Int) : Decidable (Fits i) := inferInstanceAs (Decidable (_ ∧ _))

/-- The characters write the integer: digits, behind a minus sign or without one. -/
inductive Numeral : Int → List Char → Prop
  | plain (n : Nat) : Numeral n (Nat.toDigits 10 n)
  | minus (n : Nat) : Numeral (-n) ('-' :: Nat.toDigits 10 n)

theorem numeral_toString (i : Int) : Numeral i (toString i).toList := by
  cases i with
  | ofNat n =>
    have hchars : (toString (Int.ofNat n)).toList = Nat.toDigits 10 n := Nat.toList_repr
    rw [hchars]
    exact .plain n
  | negSucc n =>
    have hchars : (toString (Int.negSucc n)).toList = '-' :: Nat.toDigits 10 (n + 1) := by
      change ("-" ++ (n + 1).repr).toList = _
      rw [String.toList_append, Nat.toList_repr]
      rfl
    rw [hchars]
    exact .minus (n + 1)

namespace Numeral
variable {i : Int} {cs : List Char}

theorem ne_nil (h : Numeral i cs) : cs ≠ [] := by
  cases h with
  | plain n => exact Nat.toDigits_ne_nil
  | minus n => exact List.cons_ne_nil _ _

theorem isWordChar (h : Numeral i cs) : ∀ c ∈ cs, isWordChar c := by
  have hdigit : ∀ {n c}, c ∈ Nat.toDigits 10 n → Toml.isWordChar c := by
    intro n c hc
    simp [Toml.isWordChar, Char.isAlphanum, Text.isDigit_of_mem_toDigits hc]
  cases h with
  | plain n => exact fun c hc => hdigit hc
  | minus n =>
    rintro c (_ | ⟨_, hc⟩)
    · decide
    · exact hdigit hc

theorem ofWord?_eq (h : Numeral i cs) (hi : Fits i) : ofWord? cs = some (integer i) := by
  have hfits : fitting? i = some i := if_pos hi
  cases h with
  | plain n =>
    obtain ⟨c, ds, hcs⟩ := List.exists_cons_of_ne_nil (Nat.toDigits_ne_nil (n := n) (b := 10))
    have hdigits : ∀ d ∈ c :: ds, d.isDigit := fun d hd => Text.isDigit_of_mem_toDigits (hcs ▸ hd)
    have hsign : takeSign (c :: ds) = (false, Nat.toDigits 10 n) := by
      rw [takeSign_of_isDigit (hdigits c List.mem_cons_self), hcs]
    rw [hcs, ofWord?_digits (fun d hd => hdigits d (List.mem_cons_of_mem _ hd)) hsign
      (.inl hcs.symm)]
    exact congrArg (Option.map integer) hfits
  | minus n =>
    rw [ofWord?_digits (fun d hd => Text.isDigit_of_mem_toDigits hd) rfl (.inr (by decide))]
    exact congrArg (Option.map integer) hfits

/-- The end of a line is the end of a word. -/
theorem readWord_append (h : Numeral i cs) (hi : Fits i) (r : List Char) :
    readWord (cs ++ '\n' :: r) = some (integer i, '\n' :: r) := by
  have hend : ¬ Toml.isWordChar '\n' := by decide
  have htake : (cs ++ '\n' :: r).takeWhile Toml.isWordChar = cs := by
    rw [List.takeWhile_append_of_pos h.isWordChar, List.takeWhile_cons_of_neg hend,
      List.append_nil]
  have hdrop : (cs ++ '\n' :: r).dropWhile Toml.isWordChar = '\n' :: r := by
    rw [List.dropWhile_append_of_pos h.isWordChar, List.dropWhile_cons_of_neg hend]
  simp only [readWord, htake, hdrop, h.ofWord?_eq hi, Option.map_some]
  rfl

end Numeral
end Toml
end Outbox

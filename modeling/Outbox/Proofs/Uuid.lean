import Outbox.Uuid
import Mathlib.Tactic.IntervalCases

/-!
# The text of an id names the id

The digits of an id give back its number, and reading finds them in their groups (`parse?_text`).
-/

namespace Outbox

theorem Text.hexValue?_lowerHexDigit {d : Nat} (h : d < 16) :
    hexValue? (lowerHexDigit d) = some d := by
  interval_cases d <;> rfl

namespace Uuid

/-- The low digits of a number, read behind others. -/
theorem ofDigits?_hexDigits (k n a : Nat) :
    ofDigits? ((hexDigits k n).map Text.lowerHexDigit) a = some (a * 16 ^ k + n % 16 ^ k) := by
  induction k generalizing a with
  | zero => simp [hexDigits, ofDigits?, Nat.mod_one]
  | succ k ih =>
    rw [hexDigits, List.map_cons, ofDigits?,
      Text.hexValue?_lowerHexDigit (Nat.mod_lt _ (by decide))]
    change ofDigits? _ (a * 16 + n / 16 ^ k % 16) = _
    -- both sides are the digits before, the first of the digits here, and the rest
    rw [ih, Nat.pow_succ, Nat.mod_mul, Nat.add_mul, Nat.mul_comm (16 ^ k) (n / 16 ^ k % 16),
      Nat.mul_assoc, Nat.mul_comm 16 (16 ^ k), Nat.add_assoc,
      Nat.add_comm (n / 16 ^ k % 16 * 16 ^ k)]

theorem ofSimple?_digits (u : Uuid) : ofSimple? u.digits = some u := by
  have hlen : u.digits.length = 32 := rfl
  have hlt : u.toNat < 16 ^ 32 := Nat.lt_of_lt_of_eq u.isLt (by decide)
  have hn : ofDigits? u.digits 0 = some u.toNat := by
    rw [digits, ofDigits?_hexDigits, Nat.mod_eq_of_lt hlt, Nat.zero_mul, Nat.zero_add]
  simp only [ofSimple?, hlen, hn, ne_eq, not_true_eq_false, if_false, Option.bind_eq_bind,
    Option.bind_some]
  exact dif_pos u.isLt

theorem ofGroups?_chars (u : Uuid) : ofGroups? u.chars = some u := by
  rw [ofGroups?, if_pos ⟨rfl, rfl, rfl, rfl, rfl⟩]
  exact ofSimple?_digits u

theorem toLower_lowerHexDigit_ne {d : Nat} (h : d < 16) :
    'u' ≠ (Text.lowerHexDigit d).toLower := by
  interval_cases d <;> decide

theorem urn_isPrefixOf_chars (u : Uuid) : urn.isPrefixOf (u.chars.map Char.toLower) = false := by
  obtain ⟨d, cs, hd, hcs⟩ : ∃ d cs, d < 16 ∧ u.chars = Text.lowerHexDigit d :: cs :=
    ⟨u.toNat / 16 ^ 31 % 16, _, Nat.mod_lt _ (by decide), rfl⟩
  have hurn : urn = 'u' :: urn.tail := rfl
  rw [hcs, hurn, List.map_cons, List.isPrefixOf_cons_cons,
    beq_eq_false_iff_ne.2 (toLower_lowerHexDigit_ne hd), Bool.false_and]

/-- An id is found by its text. -/
theorem parse?_text (u : Uuid) : parse? u.text = some u := by
  have hlen : u.chars.length = 36 := rfl
  -- as long as no other form, and no name: the text is read as groups
  rw [parse?, text, String.toList_ofList]
  simp [hlen, urn_isPrefixOf_chars, ofGroups?_chars]

theorem decode_toJson (u : Uuid) : decode u.toJson = .ok u := by
  rw [toJson, Json.text, decode, parse?_text]

end Uuid
end Outbox

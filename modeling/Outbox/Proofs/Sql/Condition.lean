import Outbox.Sql.Expr

/-!
# Conditions on rows

A condition holds of a row if its value is true, so in a condition it does not matter whether a part
is false or unknown: `holds` goes through `AND` and `OR` as if there were two truth values. Times of
whole microseconds are compared as they are, though the database counts from another year.
-/

namespace Outbox

namespace Instant
variable {s t : Instant}

/-- The database can hold the time as it is. -/
def IsMicro (t : Instant) : Prop := (1000 : Int) ∣ t

instance (t : Instant) : Decidable t.IsMicro := inferInstanceAs (Decidable ((1000 : Int) ∣ t))

theorem IsMicro.ofMicroseconds (h : t.IsMicro) : ofMicroseconds t.microseconds = t := by
  unfold IsMicro at h
  unfold Instant.ofMicroseconds microseconds year2000 perSecond
  delta Instant at *
  have hd : (1000 : Int) ∣ t - 946684800 * 1000000000 := by omega
  rw [Int.tdiv_mul_cancel hd]
  omega

theorem IsMicro.microseconds_lt_iff (hs : s.IsMicro) (ht : t.IsMicro) :
    s.microseconds < t.microseconds ↔ s < t := by
  have hs := hs.ofMicroseconds
  have ht := ht.ofMicroseconds
  unfold Instant.ofMicroseconds at hs ht
  delta Instant at *
  omega

theorem IsMicro.microseconds_le_iff (hs : s.IsMicro) (ht : t.IsMicro) :
    s.microseconds ≤ t.microseconds ↔ s ≤ t := by
  rw [← Int.not_lt, ht.microseconds_lt_iff hs]
  exact Int.not_lt

theorem IsMicro.microseconds_inj (hs : s.IsMicro) (ht : t.IsMicro) :
    s.microseconds = t.microseconds ↔ s = t := by
  constructor
  · intro h
    rw [← hs.ofMicroseconds, h, ht.ofMicroseconds]
  · rintro rfl
    rfl

end Instant

namespace Sql

/-! ### Comparing values -/

namespace Comparison
variable {op : Comparison}

@[simp] theorem value_null_left (v : Value) : op.value .null v = .null := by
  cases v <;> rfl

@[simp] theorem value_eq_uuid (a b : Uuid) :
    Comparison.eq.value (.uuid a) (.uuid b) = .truth (a = b) := by
  have h : compare a.toNat b.toNat = .eq ↔ a = b :=
    Nat.compare_eq_eq.trans ⟨fun h => Uuid.ext h, congrArg _⟩
  simp [value, Value.order?, holds, h]

@[simp] theorem value_eq_text (a b : String) :
    Comparison.eq.value (.text a) (.text b) = .truth (a = b) := by
  have h : compare a b = .eq ↔ a = b := Std.LawfulEqOrd.compare_eq_iff_eq
  simp [value, Value.order?, holds, h]

@[simp] theorem value_eq_status (a b : Status) :
    Comparison.eq.value (.status a) (.status b) = .truth (a = b) := by
  cases a <;> cases b <;> decide

@[simp] theorem value_lt_integer (a b : Int) :
    Comparison.lt.value (.integer a) (.integer b) = .truth (a < b) := by
  simp [value, Value.order?, holds, Int.compare_eq_lt]

@[simp] theorem value_ge_integer (a b : Int) :
    Comparison.ge.value (.integer a) (.integer b) = .truth (b ≤ a) := by
  simp [value, Value.order?, holds, Int.compare_ne_lt]

theorem value_eq_instant {a b : Instant} (ha : a.IsMicro) (hb : b.IsMicro) :
    Comparison.eq.value (.ofInstant a) (.ofInstant b) = .truth (a = b) := by
  have h : compare a.microseconds b.microseconds = .eq ↔ a = b :=
    Int.compare_eq_eq.trans (ha.microseconds_inj hb)
  simp [value, Value.order?, Value.ofInstant, holds, h]

theorem value_lt_instant {a b : Instant} (ha : a.IsMicro) (hb : b.IsMicro) :
    Comparison.lt.value (.ofInstant a) (.ofInstant b) = .truth (a < b) := by
  have h : compare a.microseconds b.microseconds = .lt ↔ a < b :=
    Int.compare_eq_lt.trans (ha.microseconds_lt_iff hb)
  simp [value, Value.order?, Value.ofInstant, holds, h]

end Comparison

/-! ### Conditions -/

theorem Value.and_eq_true {v w : Value} :
    v.and w = .truth true ↔ v = .truth true ∧ w = .truth true := by
  unfold Value.and
  split <;> simp_all

theorem Value.or_eq_true {v w : Value} :
    v.or w = .truth true ↔ v = .truth true ∨ w = .truth true := by
  unfold Value.or
  split <;> simp_all

namespace Expr
variable (params : List Value) (r : Row)

theorem holds_and (a b : Expr) :
    (Expr.and a b).holds params r = (a.holds params r && b.holds params r) := by
  simp [holds, eval, Value.and_eq_true]

theorem holds_or (a b : Expr) :
    (Expr.or a b).holds params r = (a.holds params r || b.holds params r) := by
  simp [holds, eval, Value.or_eq_true]

theorem holds_isNull (e : Expr) :
    (Expr.isNull e).holds params r = decide (e.eval r params = .null) := by
  simp [holds, eval]

theorem holds_compare (op : Comparison) (a b : Expr) : (Expr.compare op a b).holds params r =
    decide (op.value (a.eval r params) (b.eval r params) = .truth true) := rfl

end Expr
end Sql
end Outbox

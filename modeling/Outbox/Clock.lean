/-!
# Points in time

Times are counted in nanoseconds from the beginning of 1970 UTC. A calendar date exists for the
years -9999 to 9999; a time outside of them cannot be represented.
-/

namespace Outbox

/-- A point in time, in nanoseconds from the beginning of 1970. -/
abbrev Instant := Int

/-- A span of time in milliseconds. -/
abbrev Millis := Nat

namespace Instant

def perSecond : Int := 1000000000

def perMilli : Int := 1000000

/-- The beginning of the year -9999. -/
def earliest : Instant := -377705116800 * perSecond

/-- The end of the year 9999. -/
def latest : Instant := 253402300800 * perSecond - 1

/-- The time has a calendar date. -/
def IsRepresentable (t : Instant) : Prop := earliest ≤ t ∧ t ≤ latest

instance (t : Instant) : Decidable (IsRepresentable t) :=
  inferInstanceAs (Decidable (_ ∧ _))

/-- The time a span earlier, if it is representable. -/
def before? (t : Instant) (d : Millis) : Option Instant :=
  let r : Instant := t - d * perMilli
  if IsRepresentable r then some r else none

/-- The largest whole second not after the time. -/
def seconds (t : Instant) : Int := t.fdiv perSecond

/-- The beginning of the year 2000. -/
def year2000 : Instant := 946684800 * perSecond

/-- The time in whole microseconds from the beginning of the year 2000, cut toward it. -/
def microseconds (t : Instant) : Int := (t - year2000).tdiv 1000

/-- The time so many microseconds from the beginning of the year 2000. -/
def ofMicroseconds (n : Int) : Instant := year2000 + n * 1000

theorem before?_eq_some_iff {t : Instant} {d : Millis} {r : Instant} :
    before? t d = some r ↔ r = t - d * perMilli ∧ IsRepresentable r := by
  unfold before?
  simp only [Option.ite_none_right_eq_some, Option.some.injEq]
  constructor
  · rintro ⟨h, rfl⟩
    exact ⟨rfl, h⟩
  · rintro ⟨rfl, h⟩
    exact ⟨h, rfl⟩

end Instant
end Outbox

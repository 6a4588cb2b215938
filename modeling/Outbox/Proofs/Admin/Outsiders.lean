import Outbox.Proofs.Entry.Change
import Outbox.Scenario.Session

/-!
# What outsiders learn

An outsider is whoever shows no secret that is verified. The response to an outsider is the one
under which no secret is ever verified, so it depends on the request alone
(`handler_of_isOutsider`); and that response is there before the store is asked for anything
(`exists_respond`). Two worlds with different tables and faults therefore answer an outsider alike
and stay as they are.
-/

namespace Outbox

namespace Admin

/-- The request shows no secret, or none that could be one, or a wrong one. -/
def Request.IsOutsider (r : Request) (verify : String → Bool) : Prop :=
  ∀ s, r.secret = some s → s.toList.all isSecretChar → verify s = false

namespace Request
variable {r : Request} {verify : String → Bool}

theorem isOutsider_of_none (r : Request) : r.IsOutsider fun _ => false := fun _ _ _ => rfl

theorem exists_authorize_eq_error (h : r.IsOutsider verify) :
    ∃ e, authorize verify r.secret = .error e := by
  cases hs : r.secret with
  | none => exact ⟨.missing, rfl⟩
  | some s =>
    unfold authorize
    by_cases hall : s.toList.all isSecretChar
    · exact ⟨.wrong, by simp [hall, h s hs hall]⟩
    · exact ⟨.invalid, by simp [hall]⟩

/-- Which secrets others could show makes no difference to an outsider. -/
theorem authorize_of_isOutsider (h : r.IsOutsider verify) :
    authorize verify r.secret = authorize (fun _ => false) r.secret := by
  cases hs : r.secret with
  | none => rfl
  | some s =>
    unfold authorize
    by_cases hall : s.toList.all isSecretChar
    · simp [hall, h s hs hall]
    · simp [hall]

theorem handler_of_isOutsider (h : r.IsOutsider verify) :
    r.handler verify = r.handler fun _ => false := by
  unfold handler
  rw [authorize_of_isOutsider h]

end Request

/-- Whoever is let in nowhere but at open places never has the store asked. -/
theorem Resource.exists_respond_of_isOpen {place : Resource} (h : place.isOpen) (r : Request) :
    ∃ s, place.handler r = .respond s := by
  cases place with
  | health => exact ⟨_, rfl⟩
  | entries | entry | replay | stats => cases h

namespace Request
variable {r : Request} {verify : String → Bool}

/-- An outsider has the response at once: no handler that asks the store is reached. -/
theorem exists_respond (h : r.IsOutsider verify) : ∃ s, r.handler verify = .respond s := by
  obtain ⟨e, he⟩ := exists_authorize_eq_error h
  unfold handler
  cases Resource.ofPath? r.path with
  | none => exact ⟨_, rfl⟩
  | some place =>
    simp only [he]
    split
    · exact ⟨_, rfl⟩
    · split <;> rename_i hopen
      · exact Resource.exists_respond_of_isOpen hopen r
      · cases e <;> exact ⟨_, rfl⟩

end Request
end Admin

namespace Scenario.World
open Admin (Request Response)

theorem serve_respond (w : World) (s : Response) : w.serve (.respond s) = (.ok s, w) := by
  rw [serve]
  split <;> rename_i h
  · cases h
    rfl
  · cases h
  · cases h

/-- An outsider gets the same response from any two worlds, however their tables, faults and
settings differ, and leaves both worlds as they are. -/
theorem outsider_learns_nothing {w w' : World} {r : Request}
    (h : r.IsOutsider (Secret.verify w.admin.value))
    (h' : r.IsOutsider (Secret.verify w'.admin.value)) :
    ∃ s, w.command (.request r) = (.ok (.responded s), w) ∧
      w'.command (.request r) = (.ok (.responded s), w') := by
  -- the response comes from the request alone, before either world is looked at
  obtain ⟨s, hs⟩ := Request.exists_respond r.isOutsider_of_none
  have hserve : ∀ {w : World}, r.IsOutsider (Secret.verify w.admin.value) →
      w.command (.request r) = (.ok (.responded (r.deliver s)), w) := by
    intro w h
    have hh : w.handler r = .respond s := (Request.handler_of_isOutsider h).trans hs
    simp only [command, hh, serve_respond]
  exact ⟨r.deliver s, hserve h, hserve h'⟩

/-- Somebody with a wrong secret asks to put an entry back. -/
def guess : Request :=
  { method := "POST", target := "/admin/entries/" ++ Uuid.nil.text ++ "/replay",
    secret := some "guess" }

/-- A wrong secret neither tells whether there is an entry to be put back, nor puts it back. -/
theorem guess_learns_nothing :
    guess.IsOutsider (Secret.verify (ofTable [] 0).admin.value) ∧
    ∃ s, (ofTable [] 0).command (.request guess) = (.ok (.responded s), ofTable [] 0) ∧
      (ofTable [{ Entry.sample with id := .nil, status := .failed }] 0).command (.request guess) =
        (.ok (.responded s), ofTable [{ Entry.sample with id := .nil, status := .failed }] 0) := by
  have hverify : ∀ s, Secret.verify "" s = false := fun _ => rfl
  have hout : guess.IsOutsider (Secret.verify "") := fun s _ _ => hverify s
  exact ⟨hout, outsider_learns_nothing hout hout⟩

end Scenario.World
end Outbox

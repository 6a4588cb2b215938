import Outbox.Admin.Handler
import Outbox.Proofs.Config.Rewrite
import Outbox.Proofs.Secret.Phc
import Mathlib.Data.Bool.AllAny

/-!
# Which secrets let an administrator in

A configuration may have any secret that is not blank, but a request can show only characters of
ASCII. The hash made of an accepted secret verifies that secret, so a secret without control
characters lets its holder in just if it is written in ASCII (`accepted_secret_lets_in_iff`).
-/

namespace Outbox

/-- A control character. -/
def Text.IsControlChar (c : Char) : Prop := c.toNat < 0x20 ∨ 0x7F ≤ c.toNat ∧ c.toNat ≤ 0x9F

instance (c : Char) : Decidable (Text.IsControlChar c) := inferInstanceAs (Decidable (_ ∨ _))

namespace Admin

open Config

variable {verify : String → Bool} {s : String}

/-- Of all but the control characters those of ASCII can stand in a secret. -/
theorem isSecretChar_iff {c : Char} (h : ¬ Text.IsControlChar c) :
    isSecretChar c ↔ c.toNat < 0x80 := by
  by_cases htab : c = '\t'
  · subst htab
    exact absurd h (by decide)
  · simp only [Text.IsControlChar] at h
    simp only [isSecretChar, htab, decide_false, Bool.false_or, Bool.and_eq_true,
      decide_eq_true_eq]
    omega

theorem all_isSecretChar_iff (h : ∀ c ∈ s.toList, ¬ Text.IsControlChar c) :
    s.toList.all isSecretChar ↔ ∀ c ∈ s.toList, c.toNat < 0x80 := by
  rw [List.all_eq_true]
  exact forall₂_congr fun c hc => isSecretChar_iff (h c hc)

/-- The right secret is let in unless it could not be shown. -/
theorem authorize_of_verify (h : verify s = true) :
    authorize verify (some s) =
      if s.toList.all isSecretChar then .ok () else .error .invalid := by
  unfold authorize
  by_cases hall : s.toList.all isSecretChar <;> simp [hall, h]

/-- What becomes of a request is decided by the secret that it shows, wherever not everybody is let
in. -/
theorem Request.handler_of_place {r : Request} {place : Resource}
    (hplace : Resource.ofPath? r.path = some place) (hallows : place.allows r.method)
    (hopen : place.isOpen = false) :
    r.handler verify = match authorize verify r.secret with
      | .error e => e.handler
      | .ok () => place.handler r := by
  have hopen' : ¬place.isOpen := by simp [hopen]
  unfold handler
  rw [hplace]
  exact (if_neg (not_not.2 hallows)).trans (if_neg hopen')

end Admin

namespace Config

open Admin (Request Resource AuthError authorize)

variable {env : Environment} {d d' : Disk} {f : ConfigFile} {l : Loaded} {s : String}

/-- The hash that is loaded verifies the secret that it was made from. -/
theorem verify_loaded (hs : d.file = .text s) (hf : ConfigFile.parse? s = some f)
    (hplain : isHashed f.secret = false) (hsalt : env.salt.length = 16)
    (hload : load env d = .ok (l, d')) : Secret.verify l.secretHash f.secret = true := by
  obtain ⟨-, -, rfl, -⟩ := load_eq_ok hs hf hplain hload
  exact Secret.Phc.verify_ofSecret (by omega) f.secret

/-- A plain secret without control characters that was accepted and hashed lets its holder in just
if all its characters are in ASCII. With any other character each request that shows it is refused,
at every place that is not open to all. -/
theorem accepted_secret_lets_in_iff (hs : d.file = .text s) (hf : ConfigFile.parse? s = some f)
    (hplain : isHashed f.secret = false) (hsalt : env.salt.length = 16)
    (hload : load env d = .ok (l, d')) (hc : ∀ c ∈ f.secret.toList, ¬ Text.IsControlChar c) :
    (authorize (Secret.verify l.secretHash) (some f.secret) = .ok () ↔
      ∀ c ∈ f.secret.toList, c.toNat < 0x80) ∧
    ∀ (r : Request) (place : Resource), Resource.ofPath? r.path = some place →
      place.allows r.method → place.isOpen = false → r.secret = some f.secret →
        ((∀ c ∈ f.secret.toList, c.toNat < 0x80) →
          r.handler (Secret.verify l.secretHash) = place.handler r) ∧
        ((∃ c ∈ f.secret.toList, 0x80 ≤ c.toNat) →
          r.handler (Secret.verify l.secretHash) = AuthError.invalid.handler) := by
  have hauth := Admin.authorize_of_verify (verify_loaded hs hf hplain hsalt hload)
  have hall := Admin.all_isSecretChar_iff hc
  constructor
  · rw [hauth, ← hall]
    split <;> rename_i h <;> simp [h]
  · intro r place hplace hallows hopen hsecret
    rw [Request.handler_of_place hplace hallows hopen, hsecret, hauth]
    constructor
    · intro hascii
      rw [if_pos (hall.2 hascii)]
    · rintro ⟨c, hmem, hge⟩
      rw [if_neg fun h => Nat.not_lt.2 hge (hall.1 h c hmem)]

/-- A machine with a name, and with random bytes for a new hash. -/
def salted : Environment := { host none with salt := List.replicate 16 0 }

theorem load_fileOn (secret : String) (hblank : Text.isBlank secret = false)
    (hplain : isHashed secret = false) :
    ∃ l d', load salted ⟨.text (fileOn 3000 secret).render, false⟩ = .ok (l, d') ∧
      l.hashed = true := by
  have hcheck : check (fileOn 3000 secret) (instanceId none salted) = .ok () := by
    -- the two files differ in their secrets only, and neither is blank
    have hsecret : Text.isBlank (fileOn 3000 secret).secret = false := hblank
    have hplainFile : Text.isBlank plainFile.secret = false := by decide
    refine Eq.trans ?_ (check_plainFile none)
    simp only [check, hsecret, hplainFile]
    rfl
  refine ⟨.ofFile salted (fileOn 3000 secret) (rewritten salted (fileOn 3000 secret)).secret,
    ⟨.text (rewritten salted (fileOn 3000 secret)).render, false⟩, ?_, ?_⟩
  · rw [load_of_plain rfl (parse?_fileOn secret (by decide +kernel)) hplain]
    change (check (fileOn 3000 secret) (instanceId none salted)).bind _ = _
    rw [hcheck]
    rfl
  · simp [Loaded.ofFile, fileOn, hplain]

/-- Somebody asks how many entries there are. -/
def askStats (secret : String) : Request :=
  { method := "GET", target := "/admin/stats", secret := some secret }

theorem phrase_lets_in :
    let secret := "open sesame"
    ∃ l d', load salted ⟨.text (fileOn 3000 secret).render, false⟩ = .ok (l, d') ∧
      isHashed secret = false ∧ salted.salt.length = 16 ∧
      (∀ c ∈ secret.toList, ¬ Text.IsControlChar c) ∧
      (askStats secret).handler (Secret.verify l.secretHash) = .count := by
  intro secret
  obtain ⟨l, d', hload, -⟩ := load_fileOn secret (by decide) (by decide)
  have hclean : ∀ c ∈ secret.toList, ¬ Text.IsControlChar c :=
    List.all_iff_forall_prop.1 (by decide)
  have hascii : ∀ c ∈ secret.toList, c.toNat < 0x80 := List.all_iff_forall_prop.1 (by decide)
  have hlets := accepted_secret_lets_in_iff rfl (parse?_fileOn secret (by decide +kernel))
    (by decide) rfl hload hclean
  exact ⟨l, d', hload, by decide, rfl, hclean,
    (hlets.2 (askStats secret) .stats (by decide) (by decide) rfl rfl).1 hascii⟩

/-- A secret with letters beyond ASCII is accepted, its hash verifies it, and nobody who shows it is
let in. -/
theorem umlauts_locked_out :
    let secret := "pässwörd"
    ∃ l d', load salted ⟨.text (fileOn 3000 secret).render, false⟩ = .ok (l, d') ∧
      l.hashed = true ∧ (∀ c ∈ secret.toList, ¬ Text.IsControlChar c) ∧
      Secret.verify l.secretHash secret = true ∧
      authorize (Secret.verify l.secretHash) (some secret) = .error .invalid ∧
      (askStats secret).handler (Secret.verify l.secretHash) =
        .respond ⟨400, "invalid Mopl-Admin-Authorization header"⟩ := by
  intro secret
  obtain ⟨l, d', hload, hhashed⟩ := load_fileOn secret (by decide) (by decide)
  have hclean : ∀ c ∈ secret.toList, ¬ Text.IsControlChar c :=
    List.all_iff_forall_prop.1 (by decide)
  have hverify := verify_loaded rfl (parse?_fileOn secret (by decide +kernel)) (by decide) rfl hload
  have hauth : authorize (Secret.verify l.secretHash) (some secret) = .error .invalid :=
    (Admin.authorize_of_verify hverify).trans (if_neg (by decide))
  refine ⟨l, d', hload, hhashed, hclean, hverify, hauth, ?_⟩
  rw [Request.handler_of_place (show Resource.ofPath? _ = some .stats by decide) (by decide) rfl,
    show (askStats secret).secret = some secret from rfl, hauth]
  rfl

end Config
end Outbox

import Outbox.Secret.Phc

/-!
# A hash verifies the secret that it was made from

The text of a hash is read back with its parameters, salt and digest (`parse?_text`), so verifying
the secret makes the same digest again (`verify_ofSecret`). The salt must be of a usual size.
-/

namespace Outbox.Secret

namespace Base64

theorem value?_char {n : Nat} (h : n < 64) : value? (char n) = some n := by
  revert n
  decide

/-- Bytes are read back from base 64. -/
theorem decode?_encode {bs : List Nat} (h : ∀ b ∈ bs, b < 256) : decode? (encode bs) = some bs := by
  fun_induction encode bs with
  | case1 => rfl
  | case2 a =>
    have ha := h a (by simp)
    simp only [decode?, value?_char (show a / 4 < 64 by omega),
      value?_char (show a % 4 * 16 < 64 by omega), Option.bind_eq_bind, Option.bind_some]
    rw [if_neg (by omega)]
    simp
    omega
  | case3 a b =>
    have ha := h a (by simp)
    have hb := h b (by simp)
    simp only [decode?, value?_char (show a / 4 < 64 by omega),
      value?_char (show a % 4 * 16 + b / 16 < 64 by omega),
      value?_char (show b % 16 * 4 < 64 by omega), Option.bind_eq_bind, Option.bind_some]
    rw [if_neg (by omega)]
    simp
    omega
  | case4 a b c r ih =>
    have ha := h a (by simp)
    have hb := h b (by simp)
    have hc := h c (by simp)
    simp only [decode?, value?_char (show a / 4 < 64 by omega),
      value?_char (show a % 4 * 16 + b / 16 < 64 by omega),
      value?_char (show b % 16 * 4 + c / 64 < 64 by omega),
      value?_char (show c % 64 < 64 by omega), ih fun x hx => h x (by simp [hx]),
      Option.bind_eq_bind, Option.bind_some]
    simp
    omega

theorem length_encode (bs : List Nat) : (encode bs).length = (4 * bs.length + 2) / 3 := by
  fun_induction encode bs with
  | case1 => rfl
  | case2 | case3 => simp
  | case4 a b c r ih =>
    simp only [List.length_cons, ih]
    omega

theorem exists_char_of_mem {bs : List Nat} (h : ∀ b ∈ bs, b < 256) {x : Char}
    (hx : x ∈ encode bs) : ∃ n < 64, x = char n := by
  fun_induction encode bs with
  | case1 => cases hx
  | case2 a =>
    have ha := h a (by simp)
    simp only [List.mem_cons, List.not_mem_nil, or_false] at hx
    rcases hx with rfl | rfl <;> exact ⟨_, by omega, rfl⟩
  | case3 a b =>
    have ha := h a (by simp)
    have hb := h b (by simp)
    simp only [List.mem_cons, List.not_mem_nil, or_false] at hx
    rcases hx with rfl | rfl | rfl <;> exact ⟨_, by omega, rfl⟩
  | case4 a b c r ih =>
    have ha := h a (by simp)
    have hb := h b (by simp)
    have hc := h c (by simp)
    simp only [List.mem_cons] at hx
    rcases hx with rfl | rfl | rfl | rfl | hx
    iterate 4 exact ⟨_, by omega, rfl⟩
    exact ih (fun x hx => h x (by simp [hx])) hx

end Base64

/-! ### Lengths of digests -/

namespace Blake2b

theorem size_absorb (h : Array UInt64) (done : Nat) (bs : List UInt8) :
    (absorb h done bs).size = 8 := by
  fun_induction absorb h done bs with
  | case1 => simp [compress]
  | case2 _ _ _ _ ih => exact ih

theorem length_hash {length : Nat} (h : length ≤ 64) (bs : List UInt8) :
    (hash length bs).length = length := by
  simp only [hash, bytes, List.length_take, List.length_flatMap, List.length_map, List.length_range,
    List.map_const', List.sum_replicate_nat, Array.length_toList, size_absorb]
  exact Nat.min_eq_left h

end Blake2b

theorem Argon2.length_hash {p : Params} (h : p.length ≤ 64) (password salt : List UInt8) :
    (hash p password salt).length = p.length := by
  simp only [hash, longHash, if_pos h]
  exact Blake2b.length_hash h _

/-! ### Reading back -/

namespace Phc

/-- Bytes as a field of a hash. -/
def field (bs : List UInt8) : List Char := Base64.encode (bs.map UInt8.toNat)

variable {bs salt digest : List UInt8}

theorem exists_char_of_mem_field {x : Char} (hx : x ∈ field bs) :
    ∃ n < 64, x = Base64.char n := by
  refine Base64.exists_char_of_mem (fun b hb => ?_) hx
  obtain ⟨u, -, rfl⟩ := List.mem_map.1 hb
  exact u.toNat_lt

theorem not_dollar_mem_field (bs : List UInt8) : '$' ∉ field bs := by
  intro h
  obtain ⟨n, hn, hx⟩ := exists_char_of_mem_field h
  have hnone : ∀ n < 64, '$' ≠ Base64.char n := by decide
  exact hnone n hn hx

theorem length_field (bs : List UInt8) : (field bs).length = (4 * bs.length + 2) / 3 := by
  rw [field, Base64.length_encode, List.length_map]

theorem isValue_field (h : bs.length ≤ 48) : isValue (field bs) := by
  have hall : (field bs).all isValueChar := List.all_eq_true.2 fun x hx => by
    obtain ⟨n, hn, rfl⟩ := exists_char_of_mem_field hx
    have hvalue : ∀ n < 64, isValueChar (Base64.char n) := by decide
    exact hvalue n hn
  have hlength := length_field bs
  rw [isValue, hall, Bool.and_true]
  exact decide_eq_true (by omega)

theorem bytes?_field {limit : Nat} (h : bs.length ≤ limit) : bytes? limit (field bs) = some bs := by
  have hmap : (bs.map UInt8.toNat).map UInt8.ofNat = bs := by
    rw [List.map_map]
    exact List.map_id'' (fun u => UInt8.ofNat_toNat) bs
  have hread : Base64.decode? (field bs) = some (bs.map UInt8.toNat) :=
    Base64.decode?_encode fun b hb => by
      obtain ⟨u, -, rfl⟩ := List.mem_map.1 hb
      exact u.toNat_lt
  rw [bytes?, hread, Option.bind_eq_bind, Option.bind_some, if_pos (by simpa using h), hmap]

/-- The fields of a hash with the usual parameters. -/
theorem splitOn_text (salt digest : List UInt8) :
    (text ⟨defaultParams, salt, digest⟩).toList.splitOn '$' =
      [[], "argon2id".toList, "v=19".toList, "m=19456,t=2,p=1".toList, field salt,
        field digest] := by
  have hparams : paramsText defaultParams = "m=19456,t=2,p=1" := by decide +kernel
  have hversion : s!"v={defaultParams.version}" = "v=19" := by decide +kernel
  have htext : (text ⟨defaultParams, salt, digest⟩).toList =
      ['$'].intercalate [[], "argon2id".toList, "v=19".toList, "m=19456,t=2,p=1".toList,
        field salt, field digest] := by
    simp only [text, hparams, hversion, String.toList_intercalate, List.map_cons, List.map_nil,
      String.toList_ofList]
    rfl
  rw [htext]
  refine List.splitOn_intercalate _ (fun l hl => ?_) (by simp)
  simp only [List.mem_cons, List.not_mem_nil, or_false] at hl
  rcases hl with rfl | rfl | rfl | rfl | rfl | rfl
  · simp
  · decide
  · decide
  · decide
  · exact not_dollar_mem_field salt
  · exact not_dollar_mem_field digest

theorem takeVersion_default (fs : List (List Char)) :
    takeVersion ("v=19".toList :: fs) = some (false, fs) := by
  rw [takeVersion, if_pos (by decide)]
  rfl

theorem takeParams_default (fs : List (List Char)) :
    takeParams defaultParams ("m=19456,t=2,p=1".toList :: fs) = some (defaultParams, fs) := by
  have hread : params? defaultParams "m=19456,t=2,p=1".toList = some defaultParams := by
    decide +kernel
  rw [takeParams, if_pos (by decide), hread]
  rfl

/-- A hash with the usual parameters is read back from its text. -/
theorem parse?_text (hsalt : 8 ≤ salt.length ∧ salt.length ≤ 48) (hdigest : digest.length = 32) :
    parse? (text ⟨defaultParams, salt, digest⟩) = some ⟨defaultParams, salt, digest⟩ := by
  have hname : isName "argon2id".toList = true := by decide
  have hvariant : variant? "argon2id".toList = some .id := by decide
  have hfield : ¬((field salt).length < 4 ∨ ¬isValue (field salt) = true) := by
    have hlength := length_field salt
    rw [isValue_field hsalt.2]
    simp
    omega
  have husable : ¬(salt.length < 8 ∨ digest.length < 10 ∨ ¬areUsable defaultParams = true) := by
    rw [show areUsable defaultParams = true from rfl]
    simp
    omega
  have hp : ({ defaultParams with variant := .id, isOld := false } : Argon2.Params) =
      defaultParams := rfl
  have hlength : ({ defaultParams with length := digest.length } : Argon2.Params) =
      defaultParams := by rw [hdigest]; rfl
  rw [parse?, splitOn_text]
  simp only [hname, hvariant, takeVersion_default, not_true, if_false, Option.bind_eq_bind,
    Option.bind_some]
  rw [hp]
  simp only [takeParams_default, Option.bind_some, if_neg hfield,
    bytes?_field (show salt.length ≤ 64 by omega), bytes?_field (show digest.length ≤ 64 by omega),
    hlength]
  exact if_neg husable

/-- A secret is verified by every hash that was made from it. -/
theorem verify_ofSecret (hsalt : 8 ≤ salt.length ∧ salt.length ≤ 48) (secret : String) :
    verify (ofSecret defaultParams salt secret).text secret = true := by
  have hdigest : (Argon2.hash defaultParams (secretBytes secret) salt).length = 32 :=
    Argon2.length_hash (by decide) _ _
  rw [verify, ofSecret, parse?_text hsalt hdigest]
  exact decide_eq_true rfl

end Phc
end Outbox.Secret

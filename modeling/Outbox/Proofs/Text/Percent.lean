import Outbox.Text.Percent

/-!
# Percent encoding

A text of which all characters are kept is not changed by encoding, and a text without percent signs
not by decoding. What was encoded is decoded to its bytes, as long as the percent sign itself is not
kept (`percentDecode_percentEncode`).
-/

namespace Outbox.Text

variable {keep : Char → Bool} {cs : List Char} {c : Char}

theorem hexValue?_upperHexDigit {d : Nat} (h : d < 16) :
    hexValue? (upperHexDigit d) = some d := by
  revert d
  decide

/-! ### Bytes -/

theorem utf8Char_of_lt (h : c.toNat < 0x80) : utf8Char c = [c.toNat] := if_pos h

theorem lt_of_mem_utf8Char {b : Nat} (h : b ∈ utf8Char c) : b < 256 := by
  have hc : c.toNat < 0x110000 := by
    rcases c.valid with h | h
    · exact Nat.lt_trans h (by decide)
    · exact h.2
  unfold utf8Char at h
  simp only at h
  split at h
  · simp only [List.mem_singleton] at h
    omega
  · split at h
    · simp only [List.mem_cons, List.not_mem_nil, or_false] at h
      omega
    · split at h
      · simp only [List.mem_cons, List.not_mem_nil, or_false] at h
        omega
      · simp only [List.mem_cons, List.not_mem_nil, or_false] at h
        omega

theorem utf8Char_ne_nil (c : Char) : utf8Char c ≠ [] := by
  unfold utf8Char
  simp only
  repeat' split
  all_goals exact List.cons_ne_nil _ _

/-- Only a character of ASCII begins with a byte of ASCII. -/
theorem toNat_of_utf8Char {b : Nat} {bs : List Nat} (h : utf8Char c = b :: bs) (hb : b < 0x80) :
    c.toNat = b := by
  unfold utf8Char at h
  simp only at h
  repeat' split at h
  all_goals
    have := (List.cons.inj h).1
    omega

/-- The bytes of a text of ASCII are read as that text. -/
theorem ofUtf8?_utf8 (h : ∀ c ∈ cs, c.toNat < 0x80) : ofUtf8? (utf8 cs) = some cs := by
  have hdecode : decodeUtf8 (utf8 cs) = cs.map some := by
    induction cs with
    | nil => rw [utf8, List.flatMap_nil, decodeUtf8, List.map_nil]
    | cons c cs ih =>
      obtain ⟨hc, hcs⟩ := List.forall_mem_cons.1 h
      have hnext : ∀ r, nextChar c.toNat r = (some c, r) := fun r => by
        unfold nextChar
        rw [if_pos hc, Char.ofNat_toNat]
      rw [utf8, List.flatMap_cons, utf8Char_of_lt hc, List.singleton_append, decodeUtf8, hnext,
        ← utf8, ih hcs, List.map_cons]
  rw [ofUtf8?, hdecode]
  clear h hdecode
  induction cs with
  | nil => rfl
  | cons c cs ih =>
    rw [List.map_cons, List.mapM_cons, ih]
    rfl

/-! ### Encoding -/

theorem percentEncode_cons (keep : Char → Bool) (c : Char) (cs : List Char) :
    percentEncode keep (c :: cs) =
      (if keep c then [c] else (utf8Char c).flatMap percentByte) ++ percentEncode keep cs := rfl

/-- Nothing is encoded in a text of characters that are kept. -/
theorem percentEncode_of_forall (h : ∀ c ∈ cs, keep c) : percentEncode keep cs = cs := by
  induction cs with
  | nil => rfl
  | cons c cs ih =>
    obtain ⟨hc, hcs⟩ := List.forall_mem_cons.1 h
    rw [percentEncode_cons, if_pos hc, ih hcs, List.singleton_append]

/-- What holds of the characters kept, of the percent sign and of all digits holds of every
character of an encoded text. -/
theorem of_mem_percentEncode {P : Char → Prop} (hkeep : ∀ c ∈ cs, keep c → P c) (hsign : P '%')
    (hdigit : ∀ d < 16, P (upperHexDigit d)) (h : c ∈ percentEncode keep cs) : P c := by
  obtain ⟨x, hx, h⟩ := List.mem_flatMap.1 h
  split at h <;> rename_i hkept
  · rw [List.mem_singleton.1 h]
    exact hkeep x hx hkept
  · obtain ⟨b, hb, h⟩ := List.mem_flatMap.1 h
    have hlt := lt_of_mem_utf8Char hb
    simp only [percentByte, List.mem_cons, List.not_mem_nil, or_false] at h
    rcases h with rfl | rfl | rfl
    · exact hsign
    · exact hdigit _ (by omega)
    · exact hdigit _ (Nat.mod_lt _ (by decide))

theorem percentEncode_ne_nil (h : cs ≠ []) : percentEncode keep cs ≠ [] := by
  obtain ⟨c, cs, rfl⟩ := List.exists_cons_of_ne_nil h
  rw [percentEncode_cons]
  intro hnil
  have hfirst := (List.append_eq_nil_iff.1 hnil).1
  split at hfirst
  · cases hfirst
  · obtain ⟨b, bs, hbs⟩ := List.exists_cons_of_ne_nil (utf8Char_ne_nil c)
    rw [hbs, List.flatMap_cons] at hfirst
    cases hfirst

/-! ### Decoding -/

theorem percentDecode_cons_of_ne (h : c ≠ '%') (cs : List Char) :
    percentDecode (c :: cs) = utf8Char c ++ percentDecode cs := by
  rw [percentDecode]
  exact fun _ _ _ hc _ => h hc

/-- Nothing is decoded in a text without percent signs. -/
theorem percentDecode_of_not_mem (h : '%' ∉ cs) : percentDecode cs = utf8 cs := by
  induction cs with
  | nil => rw [percentDecode]; rfl
  | cons c cs ih =>
    obtain ⟨hc, hcs⟩ := not_or.1 (fun hmem => h (List.mem_cons.2 hmem))
    rw [percentDecode_cons_of_ne (Ne.symm hc), ih hcs]
    rfl

theorem percentDecode_percentByte {b : Nat} (h : b < 256) (r : List Char) :
    percentDecode (percentByte b ++ r) = b :: percentDecode r := by
  have hhigh := hexValue?_upperHexDigit (show b / 16 < 16 by omega)
  have hlow := hexValue?_upperHexDigit (Nat.mod_lt b (by decide : 16 > 0))
  change percentDecode ('%' :: upperHexDigit (b / 16) :: upperHexDigit (b % 16) :: r) = _
  rw [percentDecode, hhigh, hlow]
  simp only
  rw [Nat.div_add_mod']

theorem percentDecode_flatMap_percentByte {bs : List Nat} (h : ∀ b ∈ bs, b < 256) (r : List Char) :
    percentDecode (bs.flatMap percentByte ++ r) = bs ++ percentDecode r := by
  induction bs with
  | nil => rfl
  | cons b bs ih =>
    obtain ⟨hb, hbs⟩ := List.forall_mem_cons.1 h
    rw [List.flatMap_cons, List.append_assoc, percentDecode_percentByte hb, ih hbs,
      List.cons_append]

/-- An encoded text is decoded to its bytes. -/
theorem percentDecode_percentEncode (h : keep '%' = false) (cs : List Char) :
    percentDecode (percentEncode keep cs) = utf8 cs := by
  induction cs with
  | nil => rw [percentEncode, List.flatMap_nil, percentDecode]; rfl
  | cons c cs ih =>
    have hutf8 : utf8 (c :: cs) = utf8Char c ++ utf8 cs := rfl
    rw [percentEncode_cons, hutf8]
    split <;> rename_i hkept
    · have hne : c ≠ '%' := by
        rintro rfl
        rw [h] at hkept
        cases hkept
      rw [List.singleton_append, percentDecode_cons_of_ne hne, ih]
    · rw [percentDecode_flatMap_percentByte (fun b => lt_of_mem_utf8Char), ih]

end Outbox.Text

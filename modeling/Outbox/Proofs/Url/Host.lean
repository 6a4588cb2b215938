import Outbox.Proofs.Net.Ip
import Outbox.Proofs.Text.Percent
import Outbox.Url.Host
import Mathlib.Data.Bool.AllAny

/-!
# Texts of hosts

A host that was read is in normal form (`Host.normal_of_parse`): names of a scheme with a usual port
are in lower case and end in no number. The text of such a host is read back (`Host.parse_text`).
-/

namespace Outbox

open Net

/-- A piece holds characters of the text, and none of them is the separator. -/
theorem Text.of_mem_splitOn {sep c : Char} {cs l : List Char} (hl : l ∈ cs.splitOn sep)
    (hc : c ∈ l) : c ∈ cs ∧ c ≠ sep := by
  rw [List.splitOn] at hl
  induction cs generalizing l with
  | nil =>
    obtain rfl := List.mem_singleton.1 hl
    cases hc
  | cons x cs ih =>
    rw [List.splitOnP_cons_eq_if_modifyHead] at hl
    split at hl <;> rename_i hx
    · rcases List.mem_cons.1 hl with rfl | hl
      · cases hc
      · exact ⟨List.mem_cons_of_mem x (ih hl hc).1, (ih hl hc).2⟩
    · obtain ⟨l', ls, hls⟩ := List.exists_cons_of_ne_nil (List.splitOnP_ne_nil (· == sep) cs)
      rw [hls] at hl ih
      rcases List.mem_cons.1 hl with rfl | hl
      · rcases List.mem_cons.1 hc with rfl | hc
        · exact ⟨List.mem_cons_self, by simpa using hx⟩
        · obtain ⟨hmem, hne⟩ := ih List.mem_cons_self hc
          exact ⟨List.mem_cons_of_mem x hmem, hne⟩
      · obtain ⟨hmem, hne⟩ := ih (List.mem_cons_of_mem _ hl) hc
        exact ⟨List.mem_cons_of_mem x hmem, hne⟩

namespace Url

variable {special : Bool} {host : Host} {cs : List Char} {c : Char}

/-- A character of ASCII that is not in upper case. -/
def IsPlain (c : Char) : Prop := c.toNat < 0x80 ∧ ¬(0x41 ≤ c.toNat ∧ c.toNat ≤ 0x5A)

instance : DecidablePred IsPlain := fun _ => inferInstanceAs (Decidable (_ ∧ _))

/-! ### Names in lower case -/

theorem toNat_ofNat (n : Nat) : (Char.ofNat n).toNat = n ∨ (Char.ofNat n).toNat = 0 := by
  by_cases h : n.isValidChar
  · exact .inl ((congrArg Char.toNat (dif_pos h)).trans rfl)
  · exact .inr ((congrArg Char.toNat (dif_neg h)).trans rfl)

/-- Folding leaves no letter in upper case. -/
theorem isPlain_of_foldChar {x : Char} (h : foldChar x = some c) (hc : c.toNat < 0x80) :
    IsPlain c := by
  have hlower : ∀ n, ¬(0x41 ≤ lowerCode n ∧ lowerCode n ≤ 0x5A) := by
    intro n
    unfold lowerCode
    repeat' split
    all_goals omega
  have hofNat : ∀ n, IsPlain (Char.ofNat (lowerCode n)) ∨
      0x80 ≤ (Char.ofNat (lowerCode n)).toNat := by
    intro n
    have hn := hlower n
    unfold IsPlain
    rcases toNat_ofNat (lowerCode n) with h | h
    · rw [h]
      omega
    · rw [h]
      omega
  simp only [foldChar] at h
  split at h
  · cases h
  · split at h
    · cases h
      decide
    · split at h <;> obtain rfl := Option.some.inj h
      · exact (hofNat (x.toNat - 0xFEE0)).resolve_right (Nat.not_le.2 hc)
      · exact (hofNat x.toNat).resolve_right (Nat.not_le.2 hc)

theorem foldChar_of_isPlain (h : IsPlain c) : foldChar c = some c := by
  obtain ⟨hlt, hupper⟩ := h
  have hlower : lowerCode c.toNat = c.toNat := by
    unfold lowerCode
    rw [if_neg hupper, if_neg (by omega), if_neg (by omega), if_neg (by omega), if_neg (by omega)]
  simp only [foldChar]
  rw [if_neg (by omega), if_neg (by omega), if_neg (by omega), hlower, Char.ofNat_toNat]

namespace Punycode

theorem isPlain_digit {d : Nat} (h : d < 36) : IsPlain (digit d) := by
  revert d
  decide

theorem threshold_le (k bias : Nat) : threshold k bias ≤ 26 := by
  unfold threshold
  split
  · decide
  · split <;> omega

theorem isPlain_numeral {bias k q : Nat} (h : c ∈ numeral bias k q) : IsPlain c := by
  have hle := threshold_le
  fun_induction numeral bias k q with
  | case1 k q t hq =>
    rw [List.mem_singleton.1 h]
    exact isPlain_digit (Nat.lt_of_lt_of_le hq (Nat.le_trans (hle k bias) (by decide)))
  | case2 k q t hq ih =>
    have ht : t ≤ 26 := hle k bias
    rcases List.mem_cons.1 h with rfl | h
    · refine isPlain_digit ?_
      have := Nat.mod_lt (q - t) (show 36 - t > 0 by omega)
      omega
    · exact ih h

theorem isPlain_encodeCodes {plain n : Nat} {ms : List Nat} {s : State}
    (hs : ∀ c ∈ s.out, IsPlain c) (h : c ∈ (encodeCodes cs plain ms n s).out) : IsPlain c := by
  induction ms generalizing n s with
  | nil => exact hs c h
  | cons m ms ih =>
    refine ih ?_ h
    have hvisit : ∀ (s : State) (x : Char), (∀ c ∈ s.out, IsPlain c) →
        ∀ c ∈ (visit plain m s x).out, IsPlain c := by
      intro s x hs c hc
      unfold visit at hc
      split at hc
      · exact hs c hc
      · split at hc
        · rcases List.mem_append.1 hc with hc | hc
          · exact hs c hc
          · exact isPlain_numeral hc
        · exact hs c hc
    have hfold : ∀ (xs : List Char) (s : State), (∀ c ∈ s.out, IsPlain c) →
        ∀ c ∈ (xs.foldl (visit plain m) s).out, IsPlain c := by
      intro xs
      induction xs with
      | nil => exact fun s hs => hs
      | cons x xs ih => exact fun s hs => ih _ (hvisit s x hs)
    exact hfold cs _ hs

/-- An encoding is of characters of ASCII, in lower case if those of the text are. -/
theorem isPlain_encode (hcs : ∀ c ∈ cs, c.toNat < 0x80 → IsPlain c) (h : c ∈ encode cs) :
    IsPlain c := by
  simp only [encode] at h
  rcases List.mem_append.1 h with h | h
  · rcases List.mem_append.1 h with h | h
    · obtain ⟨hc, hlt⟩ := List.mem_filter.1 h
      exact hcs c hc (by simpa using hlt)
    · split at h
      · cases h
      · rw [List.mem_singleton.1 h]
        decide
  · exact isPlain_encodeCodes (fun _ hc => absurd hc List.not_mem_nil) h

end Punycode

theorem isPlain_plainName (h : c ∈ plainName cs) : IsPlain c := by
  refine Text.of_mem_intercalate (by decide) (fun l hl x hx => ?_) h
  obtain ⟨l, hl', rfl⟩ := List.mem_map.1 hl
  have hfold : ∀ x ∈ l, x.toNat < 0x80 → IsPlain x := by
    intro x hx
    obtain ⟨_, -, hy⟩ := List.mem_filterMap.1 (Text.of_mem_splitOn hl' hx).1
    exact isPlain_of_foldChar hy
  unfold plainLabel at hx
  split at hx <;> rename_i hall
  · exact hfold x hx (by simpa using List.all_eq_true.1 hall x hx)
  · rcases List.mem_append.1 hx with hx | hx
    · have hxn : ∀ x ∈ "xn--".toList, IsPlain x := List.all_iff_forall_prop.1 (by decide)
      exact hxn x hx
    · exact Punycode.isPlain_encode hfold hx

theorem plainName_of_forall (h : ∀ c ∈ cs, IsPlain c) : plainName cs = cs := by
  have hfold : cs.filterMap foldChar = cs := by
    induction cs with
    | nil => rfl
    | cons c cs ih =>
      obtain ⟨hc, hcs⟩ := List.forall_mem_cons.1 h
      rw [List.filterMap_cons_some (foldChar_of_isPlain hc), ih hcs]
  have hlabels : (cs.splitOn '.').map plainLabel = cs.splitOn '.' := by
    refine (List.map_congr_left fun l hl => ?_).trans (List.map_id _)
    rw [plainLabel, if_pos, id]
    exact List.all_eq_true.2 fun x hx => by simpa using (h x (Text.of_mem_splitOn hl hx).1).1
  rw [plainName, hfold, hlabels, List.intercalate_splitOn]

/-! ### Numbers -/

theorem byteText (n : Nat) (h : n < 256) : ipNumber? (Nat.toDigits 10 n) = some n ∧
    (Nat.toDigits 10 n).all Char.isDigit = true := by
  revert n
  decide +kernel

variable {ip : Ipv4}

theorem labels_text (ip : Ipv4) :
    labels ip.text.toList = [ip.a, ip.b, ip.c, ip.d].map (Nat.toDigits 10) := by
  have hsplit : ip.text.toList.splitOn '.' = [ip.a, ip.b, ip.c, ip.d].map (Nat.toDigits 10) := by
    rw [Ipv4.toList_text, List.splitOn_intercalate]
    · simp only [List.mem_map]
      rintro _ ⟨n, -, rfl⟩
      exact Text.not_mem_toDigits (by decide) (by decide) (by decide) n
    · exact List.cons_ne_nil _ _
  simp only [labels, hsplit]
  rw [if_neg]
  simp [Nat.toDigits_ne_nil]

theorem endsInNumber_text (h : ip.Valid) : endsInNumber ip.text.toList = true := by
  rw [endsInNumber, labels_text]
  simp [Nat.toDigits_ne_nil, (byteText ip.d h.d).2]

theorem ipv4?_text (h : ip.Valid) : ipv4? ip.text.toList = some ip := by
  obtain ⟨a, b, c, d⟩ := ip
  obtain ⟨ha, hb, hc, hd⟩ := h
  simp only at ha hb hc hd
  have hnumbers : ([a, b, c, d].map (Nat.toDigits 10)).mapM ipNumber? = some [a, b, c, d] := by
    simp [(byteText a ha).1, (byteText b hb).1, (byteText c hc).1, (byteText d hd).1]
  have hwhole : Ipv4.ofNat (((a * 256 + b) * 256 + c) * 256 + d) = ⟨a, b, c, d⟩ := by
    simp only [Ipv4.ofNat, Nat.pow_eq, Ipv4.mk.injEq]
    omega
  simp only [ipv4?, labels_text, hnumbers]
  simp only [List.length_map, List.length_cons, List.length_nil, Option.bind_eq_bind,
    Option.bind_some, List.getLast?_cons_cons, List.getLast?_singleton, List.dropLast]
  simp [hwhole]
  omega

theorem valid_of_ipv4? (h : ipv4? cs = some ip) : ip.Valid := by
  simp only [ipv4?, Option.bind_eq_bind] at h
  split at h
  · cases h
  · simp only [Option.bind_eq_some_iff] at h
    obtain ⟨ns, -, last, -, h⟩ := h
    split at h
    · cases h
    · cases h
      exact Ipv4.valid_ofNat _

/-! ### Hosts -/

/-- A character of a name of a scheme with a usual port. -/
def IsNameChar (c : Char) : Prop := IsPlain c ∧ isForbidden c = false

/-- A character of a name of any other scheme. -/
def IsEncodedChar (c : Char) : Prop := c = '%' ∨ isControl c = false ∧ isForbidden c = false

instance : DecidablePred IsNameChar := fun _ => inferInstanceAs (Decidable (_ ∧ _))

instance : DecidablePred IsEncodedChar := fun _ => inferInstanceAs (Decidable (_ ∨ _))

/-- A character that can stand in a host, brackets and colons aside. -/
def IsHostChar (c : Char) : Prop :=
  0x20 < c.toNat ∧ c.toNat < 0x7F ∧ c ∉ ['#', '/', ':', '?', '@', '[', '\\', ']']

instance : DecidablePred IsHostChar := fun _ => inferInstanceAs (Decidable (_ ∧ _))

theorem IsNameChar.isHostChar (h : IsNameChar c) : IsHostChar c := by
  obtain ⟨⟨hlt, -⟩, h⟩ := h
  simp [isForbidden] at h
  refine ⟨h.1.1, by omega, ?_⟩
  simp [h]

theorem IsEncodedChar.isHostChar (h : IsEncodedChar c) : IsHostChar c := by
  rcases h with rfl | ⟨hcontrol, h⟩
  · decide
  · simp [isControl] at hcontrol
    simp [isForbidden] at h
    refine ⟨h.1.1, hcontrol.2, ?_⟩
    simp [h]

theorem isNameChar_of_mem_text (h : c ∈ ip.text.toList) : IsNameChar c := by
  rw [Ipv4.toList_text] at h
  refine Text.of_mem_intercalate (by decide) (fun l hl x hx => ?_) h
  obtain ⟨n, -, rfl⟩ := List.mem_map.1 hl
  exact Text.of_mem_toDigits (by decide) (by decide) (by decide) hx

namespace Host

/-- A host in the form in which it is read: a name of a scheme with a usual port is in lower case
and ends in no number, and a name of any other is encoded. -/
inductive Normal : Bool → Host → Prop
  | special {s : String} (ne : s.toList ≠ []) (chars : ∀ c ∈ s.toList, IsNameChar c)
      (number : endsInNumber s.toList = false) : Normal true (.name s)
  | other {s : String} (chars : ∀ c ∈ s.toList, IsEncodedChar c) : Normal false (.name s)
  | v4 {ip : Ipv4} (valid : ip.Valid) : Normal true (.v4 ip)
  | v6 {special : Bool} {ip : Ipv6} (valid : ip.Valid) : Normal special (.v6 ip)

/-- With a scheme that has a usual port there is a host. -/
theorem Normal.ne_empty {special : Bool} (h : host.Normal special) (hspecial : special = true) :
    host ≠ .name "" := by
  rintro rfl
  subst hspecial
  cases h with
  | special ne => exact ne rfl

theorem normal_of_ofName (h : ofName cs = .ok host) : host.Normal true := by
  simp only [ofName] at h
  split at h
  · split at h <;> rename_i hempty
    · cases h
    split at h <;> rename_i hforbidden
    · cases h
    split at h <;> rename_i hnumber
    · split at h <;> rename_i hip
      · cases h
        exact .v4 (valid_of_ipv4? hip)
      · cases h
    · cases h
      simp only [List.any_eq_true, not_exists, not_and, Bool.not_eq_true] at hforbidden
      refine .special ?_ ?_ ?_
      · simpa using hempty
      · rw [String.toList_ofList]
        exact fun c hc => ⟨isPlain_plainName hc, hforbidden c hc⟩
      · rw [String.toList_ofList]
        exact Bool.eq_false_iff.2 hnumber
  · cases h

theorem normal_of_ofText (h : ofText cs = .ok host) : host.Normal false := by
  unfold ofText at h
  split at h <;> rename_i hforbidden
  · cases h
  · cases h
    simp only [List.any_eq_true, not_exists, not_and, Bool.and_eq_true, Bool.not_eq_true',
      decide_eq_true_eq, and_imp, Bool.not_eq_true] at hforbidden
    refine .other fun c hc => ?_
    rw [encode, String.toList_ofList] at hc
    refine Text.of_mem_percentEncode (fun c hc hkeep => ?_) (by decide) (by decide) hc
    by_cases hsign : c = '%'
    · exact .inl hsign
    · have hcontrol : isControl c = false := by simpa using hkeep
      exact .inr ⟨hcontrol, hforbidden c hc hsign hcontrol⟩

theorem normal_of_parse (h : parse special cs = .ok host) : host.Normal special := by
  unfold parse at h
  split at h
  · split at h
    · cases h
    · split at h <;> rename_i hparse
      · cases h
        exact .v6 (Ipv6.valid_of_parse? hparse)
      · cases h
  · cases special with
    | false => exact normal_of_ofText h
    | true => exact normal_of_ofName h

/-- Only where there is no text is the empty name read. -/
theorem eq_nil_of_parse (h : parse special cs = .ok (.name "")) : cs = [] ∧ special = false := by
  cases special with
  | true => exact absurd rfl ((normal_of_parse h).ne_empty rfl)
  | false =>
    refine ⟨?_, rfl⟩
    unfold parse at h
    split at h
    · split at h
      · cases h
      · split at h <;> cases h
    · simp only [Bool.false_eq_true, if_false, ofText] at h
      split at h
      · cases h
      · by_contra hne
        have hempty : encode [] cs = "" := Host.name.inj (Except.ok.inj h)
        rw [encode, String.ofList_eq_empty_iff] at hempty
        exact Text.percentEncode_ne_nil hne hempty

/-! ### Reading a text again -/

/-- A name in lower case, of characters that can stand in one, is read as it is. -/
theorem ofName_of_forall (hne : cs ≠ []) (h : ∀ c ∈ cs, IsNameChar c) :
    ofName cs = if endsInNumber cs then
      match ipv4? cs with
      | some ip => .ok (.v4 ip)
      | none => .error .invalidIpv4
    else .ok (.name (String.ofList cs)) := by
  have hsign : '%' ∉ cs := fun hmem => absurd (h _ hmem) (by decide)
  have hdecode : Text.ofUtf8? (Text.percentDecode cs) = some cs := by
    rw [Text.percentDecode_of_not_mem hsign, Text.ofUtf8?_utf8 fun c hc => (h c hc).1.1]
  have hforbidden : cs.any isForbidden = false := by
    simpa using fun c hc => (h c hc).2
  simp only [ofName, hdecode, plainName_of_forall fun c hc => (h c hc).1]
  rw [if_neg (by simpa using hne), if_neg (by simp [hforbidden])]
  rfl

theorem ofText_of_forall (h : ∀ c ∈ cs, IsEncodedChar c) :
    ofText cs = .ok (.name (String.ofList cs)) := by
  have hkeep : ∀ c ∈ cs, isControl c = false := by
    intro c hc
    rcases h c hc with rfl | h
    · decide
    · exact h.1
  have hforbidden : ¬cs.any fun c => c ≠ '%' && !isControl c && isForbidden c := by
    simp only [List.any_eq_true, not_exists, not_and, Bool.and_eq_true, decide_eq_true_eq, and_imp]
    intro c hc hsign _ hforbidden
    rcases h c hc with h | h
    · exact hsign h
    · rw [h.2] at hforbidden
      cases hforbidden
  rw [ofText, if_neg hforbidden, encode, Text.percentEncode_of_forall]
  · rfl
  · exact fun c hc => by simp [hkeep c hc]

theorem parse_of_forall (h : ∀ c ∈ cs, IsHostChar c) :
    parse special cs = if special then ofName cs else ofText cs := by
  unfold parse
  split
  · exact absurd (h '[' List.mem_cons_self) (by decide)
  · rfl

/-- The text of a host in normal form is read back. -/
theorem parse_text (h : host.Normal special) : parse special host.text.toList = .ok host := by
  cases h with
  | special ne chars number =>
    rw [text, parse_of_forall fun c hc => (chars c hc).isHostChar, if_pos rfl,
      ofName_of_forall ne chars, if_neg (by simp [number]), String.ofList_toList]
  | other chars =>
    rw [text, parse_of_forall fun c hc => (chars c hc).isHostChar, if_neg (by decide),
      ofText_of_forall chars, String.ofList_toList]
  | @v4 ip valid =>
    have hne : ip.text.toList ≠ [] := by
      intro hnil
      have h := endsInNumber_text valid
      rw [hnil] at h
      cases h
    rw [text, parse_of_forall fun c hc => (isNameChar_of_mem_text hc).isHostChar, if_pos rfl,
      ofName_of_forall hne fun _ => isNameChar_of_mem_text, if_pos (endsInNumber_text valid),
      ipv4?_text valid]
  | @v6 _ ip valid =>
    have htext : (Host.v6 ip).text.toList = '[' :: (ip.text.toList ++ [']']) := by
      simp [text]
    simp only [htext, parse, List.getLast?_concat, List.dropLast_concat, Ipv6.parse?_text valid,
      ne_eq, not_true_eq_false, if_false]
    rfl

/-- Only the empty name has no text. -/
theorem text_eq_nil_iff : host.text.toList = [] ↔ host = .name "" := by
  constructor
  · intro h
    cases host with
    | name s => exact congrArg name (String.toList_eq_nil_iff.1 h)
    | v4 ip =>
      rw [text, Ipv4.toList_text, List.map_cons, List.map_cons, List.intercalate_cons_cons] at h
      simp at h
    | v6 ip => simp [text] at h
  · rintro rfl
    rfl

end Host
end Url
end Outbox

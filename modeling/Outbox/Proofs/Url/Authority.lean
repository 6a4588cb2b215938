import Outbox.Proofs.Url.Host
import Outbox.Url.Reader

/-!
# Texts of authorities

An authority that was read is in normal form (`Authority.normal_of_parse`), and the text of such an
authority is read back (`Authority.parse_text`): its user ends at the only sign `@`, and its host at
the first colon outside brackets.
-/

namespace Outbox.Url

variable {special : Bool} {scheme : String} {a : Authority} {also cs r : List Char} {c mark : Char}

/-! ### Encoded texts -/

/-- A character that stands for itself where those given are encoded. -/
def IsKept (also : List Char) (c : Char) : Prop := isControl c = false ∧ c ∉ also

instance (also : List Char) : DecidablePred (IsKept also) :=
  fun _ => inferInstanceAs (Decidable (_ ∧ _))

/-- The percent sign and the digits behind it stand for themselves. -/
structure IsEncodeSet (also : List Char) : Prop where
  sign : IsKept also '%'
  digit : ∀ d < 16, IsKept also (Text.upperHexDigit d)

theorem isKept_of_mem_encode (h : IsEncodeSet also) (hc : c ∈ (encode also cs).toList) :
    IsKept also c := by
  rw [encode, String.toList_ofList] at hc
  exact Text.of_mem_percentEncode (fun c _ hkeep => by simpa [IsKept] using hkeep) h.sign h.digit hc

theorem toList_encode_of_forall (h : ∀ c ∈ cs, IsKept also c) : (encode also cs).toList = cs := by
  rw [encode, String.toList_ofList]
  exact Text.percentEncode_of_forall fun c hc => by simpa [IsKept] using h c hc

theorem encode_of_forall {s : String} (h : ∀ c ∈ s.toList, IsKept also c) :
    encode also s.toList = s :=
  String.toList_injective (toList_encode_of_forall h)

theorem isEncodeSet_userSet : IsEncodeSet userSet := ⟨by decide, by decide⟩

theorem isEncodeSet_pathSet : IsEncodeSet pathSet := ⟨by decide, by decide⟩

theorem isEncodeSet_fragmentSet : IsEncodeSet fragmentSet := ⟨by decide, by decide⟩

theorem isEncodeSet_querySet (special : Bool) : IsEncodeSet (querySet special) := by
  cases special <;> exact ⟨by decide, by decide⟩

/-! ### Cutting texts -/

theorem forall_ne (h : mark ∉ cs) : ∀ c ∈ cs, decide (c ≠ mark) = true :=
  fun _ hc => decide_eq_true (ne_of_mem_of_not_mem hc h)

theorem cut_append (h : mark ∉ cs) (r : List Char) : cut mark (cs ++ mark :: r) = (cs, some r) := by
  rw [cut, List.takeWhile_append_of_pos (forall_ne h), List.dropWhile_append_of_pos (forall_ne h)]
  simp

theorem cut_of_not_mem (h : mark ∉ cs) : cut mark cs = (cs, none) := by
  rw [cut, List.takeWhile_eq_self_iff.2 (forall_ne h), List.dropWhile_eq_nil_iff.2 (forall_ne h)]
  rfl

theorem splitUser_append (h : '@' ∉ r) (cs : List Char) :
    splitUser (cs ++ '@' :: r) = (some cs, r) := by
  have hall := forall_ne (mt List.mem_reverse.1 h)
  have hreverse : (cs ++ '@' :: r).reverse = r.reverse ++ '@' :: cs.reverse := by simp
  simp only [splitUser, hreverse, List.takeWhile_append_of_pos hall,
    List.dropWhile_append_of_pos hall]
  simp

theorem splitUser_of_not_mem (h : '@' ∉ cs) : splitUser cs = (none, cs) :=
  if_neg (by simpa using h)

theorem splitPort_append {inside : Bool}
    (h : ∀ c ∈ cs, c ≠ '[' ∧ c ≠ ']' ∧ (c = ':' → inside = true)) (r : List Char) :
    splitPort inside (cs ++ r) = (cs ++ (splitPort inside r).1, (splitPort inside r).2) := by
  induction cs with
  | nil => rfl
  | cons c cs ih =>
    obtain ⟨⟨hopen, hclose, hcolon⟩, hcs⟩ := List.forall_mem_cons.1 h
    have hinside : ¬(c = ':' && !inside) = true := by
      simp only [Bool.and_eq_true, decide_eq_true_eq, Bool.not_eq_true', not_and,
        Bool.not_eq_false]
      exact hcolon
    rw [List.cons_append, splitPort, if_neg hinside, if_neg hopen, if_neg hclose, ih hcs]
    rfl

/-- The host ends at the first colon behind it. -/
theorem splitPort_host {host : Host} (h : host.Normal special)
    (r : List Char) : splitPort false (host.text.toList ++ r) =
      (host.text.toList ++ (splitPort false r).1, (splitPort false r).2) := by
  have hname : ∀ cs : List Char, (∀ c ∈ cs, IsHostChar c) → splitPort false (cs ++ r) =
      (cs ++ (splitPort false r).1, (splitPort false r).2) := by
    intro cs hcs
    refine splitPort_append (fun c hc => ?_) r
    have hc := (hcs c hc).2.2
    simp only [List.mem_cons, not_or] at hc
    exact ⟨hc.2.2.2.2.2.1, hc.2.2.2.2.2.2.2.1, fun heq => absurd heq hc.2.2.1⟩
  cases h with
  | special ne chars number => exact hname _ fun c hc => (chars c hc).isHostChar
  | other chars => exact hname _ fun c hc => (chars c hc).isHostChar
  | v4 valid => exact hname _ fun c hc => (isNameChar_of_mem_text hc).isHostChar
  | @v6 _ ip valid =>
    have hinside : ∀ c ∈ ip.text.toList, c ≠ '[' ∧ c ≠ ']' ∧ (c = ':' → true = true) := fun c hc =>
      Net.Ipv6.of_mem_text (P := fun c => c ≠ '[' ∧ c ≠ ']' ∧ (c = ':' → true = true)) (by decide)
        (by decide) hc
    have htext : (Host.v6 ip).text.toList ++ r = '[' :: (ip.text.toList ++ ']' :: r) := by
      simp [Host.text]
    rw [htext, splitPort, if_neg (by decide), if_pos rfl, splitPort_append hinside, splitPort]
    simp [Host.text]

/-! ### Authorities -/

theorem bind_eq_ok {ε α β : Type} {x : Except ε α} {f : α → Except ε β} {b : β} :
    x >>= f = .ok b ↔ ∃ a, x = .ok a ∧ f a = .ok b := by
  cases x <;> simp [bind, Except.bind]

theorem lt_of_port? {digits : Option (List Char)} {port : Option Nat}
    (h : port? scheme digits = .ok port) : ∀ p ∈ port, p < 65536 ∧ usualPort? scheme ≠ some p := by
  intro p hp
  unfold port? at h
  split at h
  · cases h
    cases hp
  · cases h
    cases hp
  · split at h <;> rename_i hbelow
    · split at h <;> rename_i husual
      · cases h
        cases hp
      · cases h
        cases hp
        exact ⟨Text.lt_of_below? hbelow, husual⟩
    · cases h

theorem port?_toDigits {p : Nat} (hp : p < 65536) (husual : usualPort? scheme ≠ some p) :
    port? scheme (some (Nat.toDigits 10 p)) = .ok (some p) := by
  obtain ⟨c, cs, hcs⟩ := List.exists_cons_of_ne_nil (Nat.toDigits_ne_nil (b := 10) (n := p))
  have hbelow : Text.below? 10 (Nat.pow 2 16) (c :: cs) = some p := by
    rw [← hcs]
    exact Text.below?_toDigits (by decide) (by decide) hp
  rw [hcs, port?, hbelow]
  · exact congrArg Except.ok (if_neg husual)
  · exact List.cons_ne_nil _ _

namespace Authority

/-- An authority in the form in which it is read. -/
structure Normal (scheme : String) (a : Authority) : Prop where
  host : a.host.Normal (isSpecial scheme)
  username : ∀ c ∈ a.username.toList, IsKept userSet c
  password : ∀ p ∈ a.password, p.toList ≠ [] ∧ ∀ c ∈ p.toList, IsKept userSet c
  port : ∀ p ∈ a.port, p < 65536 ∧ usualPort? scheme ≠ some p
  /-- Without a host there is nothing else. -/
  bare : a.host = .name "" → a.username = "" ∧ a.password = none ∧ a.port = none

theorem normal_of_parse (h : parse scheme cs = .ok a) : a.Normal scheme := by
  simp only [parse] at h
  split at h <;> rename_i hempty
  · cases h
  · obtain ⟨host, hhost, h⟩ := bind_eq_ok.1 h
    obtain ⟨port, hport, h⟩ := bind_eq_ok.1 h
    cases h
    refine ⟨Host.normal_of_parse hhost, fun _ => isKept_of_mem_encode isEncodeSet_userSet, ?_,
      lt_of_port? hport, ?_⟩
    · intro p hp
      obtain ⟨q, hq, rfl⟩ := Option.map_eq_some_iff.1 hp
      obtain ⟨-, hne⟩ := Option.filter_eq_some_iff.1 hq
      refine ⟨?_, fun _ => isKept_of_mem_encode isEncodeSet_userSet⟩
      rw [encode, String.toList_ofList]
      exact Text.percentEncode_ne_nil (by simpa using hne)
    · rintro rfl
      obtain ⟨hnil, hspecial⟩ := Host.eq_nil_of_parse hhost
      simp only [hnil, hspecial, List.isEmpty_nil, Bool.false_eq_true, false_or, true_and, not_or,
        Bool.not_eq_true, Option.isSome_eq_false_iff, Option.isNone_iff_eq_none] at hempty
      obtain ⟨huser, hnone⟩ := hempty
      rw [hnone] at hport
      rw [huser]
      cases hport
      exact ⟨rfl, rfl, rfl⟩

/-- A character that can stand in the text of an authority. -/
def IsChar (c : Char) : Prop :=
  0x20 < c.toNat ∧ c.toNat < 0x7F ∧ c ∉ ['#', '/', '?', '\\']

instance : DecidablePred IsChar := fun _ => inferInstanceAs (Decidable (_ ∧ _))

theorem toList_text (a : Authority) :
    a.text.toList = '/' :: '/' :: (a.userText.toList ++ a.hostText.toList) := by
  simp [text]

theorem toList_hostText (a : Authority) : a.hostText.toList =
    a.host.text.toList ++
      (match a.port with | some p => ':' :: Nat.toDigits 10 p | none => []) := by
  unfold hostText
  cases a.port with
  | none => simp
  | some p => simp [Nat.toList_repr]

theorem splitPort_hostText (h : a.host.Normal special) : splitPort false a.hostText.toList =
    (a.host.text.toList, a.port.map (Nat.toDigits 10)) := by
  rw [toList_hostText, splitPort_host h]
  cases a.port with
  | none => simp [splitPort]
  | some p => simp [splitPort]

theorem isChar_of_mem_host {host : Host} (h : host.Normal special) (hc : c ∈ host.text.toList) :
    IsChar c ∧ c ≠ '@' := by
  have hhost : ∀ {x}, IsHostChar x → IsChar x ∧ x ≠ '@' := by
    rintro x ⟨hlow, hhigh, hx⟩
    simp only [List.mem_cons, not_or] at hx
    exact ⟨⟨hlow, hhigh, by simp [hx]⟩, hx.2.2.2.2.1⟩
  cases h with
  | special ne chars number => exact hhost (chars c hc).isHostChar
  | other chars => exact hhost (chars c hc).isHostChar
  | v4 valid => exact hhost (isNameChar_of_mem_text hc).isHostChar
  | @v6 _ ip valid =>
    have htext : c = '[' ∨ c ∈ ip.text.toList ∨ c = ']' := by simpa [Host.text] using hc
    rcases htext with rfl | hc | rfl
    · decide
    · exact Net.Ipv6.of_mem_text (P := fun c => IsChar c ∧ c ≠ '@') (by decide) (by decide) hc
    · decide

theorem isChar_of_mem_hostText (h : a.host.Normal special) (hc : c ∈ a.hostText.toList) :
    IsChar c ∧ c ≠ '@' := by
  rw [toList_hostText] at hc
  rcases List.mem_append.1 hc with hc | hc
  · exact isChar_of_mem_host h hc
  · split at hc
    · rcases List.mem_cons.1 hc with rfl | hc
      · decide
      · exact Text.of_mem_toDigits (P := fun c => IsChar c ∧ c ≠ '@') (by decide) (by decide)
          (by decide) hc
    · cases hc

theorem isChar_of_isKept (h : IsKept userSet c) : IsChar c := by
  obtain ⟨hcontrol, hset⟩ := h
  have hspace : c.toNat ≠ 0x20 := by
    intro heq
    obtain rfl : c = ' ' := by rw [← Char.ofNat_toNat c, heq]
    exact hset (by decide)
  simp only [isControl, Bool.or_eq_false_iff, decide_eq_false_iff_not] at hcontrol
  refine ⟨by omega, by omega, ?_⟩
  simp only [userSet, pathSet, fragmentSet, List.cons_append, List.nil_append, List.mem_cons,
    not_or] at hset
  simp [hset]

theorem isChar_of_mem_userText (h : a.Normal scheme) (hc : c ∈ a.userText.toList) : IsChar c := by
  have hname : c ∈ a.username.toList → IsChar c := fun hc => isChar_of_isKept (h.username c hc)
  unfold userText at hc
  split at hc <;> rename_i hp
  · simp only [String.toList_append, List.mem_append] at hc
    rcases hc with ((hc | hc) | hc) | hc
    · exact hname hc
    · obtain rfl : c = ':' := by simpa using hc
      decide
    · exact isChar_of_isKept ((h.password _ hp).2 c hc)
    · obtain rfl : c = '@' := by simpa using hc
      decide
  · split at hc
    · cases hc
    · rw [String.toList_append, List.mem_append] at hc
      rcases hc with hc | hc
      · exact hname hc
      · obtain rfl : c = '@' := by simpa using hc
        decide

/-- What stands before the last sign `@` is the user, who is cut at the first colon. -/
theorem exists_splitUser (h : a.Normal scheme) (hr : '@' ∉ r) :
    ∃ user, splitUser (a.userText.toList ++ r) = (user, r) ∧
      cut ':' (user.getD []) = (a.username.toList, a.password.map String.toList) ∧
      (a.username = "" → a.password = none → user = none) := by
  have hcolon : ':' ∉ a.username.toList := fun hmem =>
    absurd (h.username _ hmem) (by decide)
  have hsign : '@' ∉ a.username.toList := fun hmem =>
    absurd (h.username _ hmem) (by decide)
  cases hp : a.password with
  | some p =>
    refine ⟨some (a.username.toList ++ ':' :: p.toList), ?_, cut_append hcolon _, ?_⟩
    · have htext : a.userText.toList ++ r = (a.username.toList ++ ':' :: p.toList) ++ '@' :: r := by
        simp [userText, hp]
      rw [htext, splitUser_append hr]
    · rintro - ⟨⟩
  | none =>
    by_cases hempty : a.username = ""
    · refine ⟨none, ?_, ?_, fun _ _ => rfl⟩
      · have htext : a.userText = "" := by simp [userText, hp, hempty]
        rw [htext]
        exact splitUser_of_not_mem hr
      · rw [hempty]
        rfl
    · refine ⟨some a.username.toList, ?_, cut_of_not_mem hcolon, fun h => absurd h hempty⟩
      have htext : a.userText.toList ++ r = a.username.toList ++ '@' :: r := by
        simp [userText, hp, hempty]
      rw [htext, splitUser_append hr]

/-- The text of an authority in normal form is read back. -/
theorem parse_text (h : a.Normal scheme) :
    parse scheme (a.userText.toList ++ a.hostText.toList) = .ok a := by
  have hsign : '@' ∉ a.hostText.toList := fun hmem =>
    (isChar_of_mem_hostText h.host hmem).2 rfl
  obtain ⟨user, hsplit, hcut, hnone⟩ := exists_splitUser h hsign
  have hhost : ¬(a.host.text.toList.isEmpty ∧
      (isSpecial scheme ∨ user.isSome ∨ (a.port.map (Nat.toDigits 10)).isSome)) := by
    rintro ⟨hempty, hmore⟩
    have hname := Host.text_eq_nil_iff.1 (List.isEmpty_iff.1 hempty)
    obtain ⟨hu, hp, hport⟩ := h.bare hname
    rcases hmore with hspecial | huser | hsome
    · exact h.host.ne_empty hspecial hname
    · rw [hnone hu hp] at huser
      cases huser
    · rw [hport] at hsome
      cases hsome
  have hport : port? scheme (a.port.map (Nat.toDigits 10)) = .ok a.port := by
    cases hp : a.port with
    | none => rfl
    | some p => exact port?_toDigits (h.port p hp).1 (h.port p hp).2
  have hpassword : ((a.password.map String.toList).filter (!·.isEmpty)).map (encode userSet) =
      a.password := by
    cases hp : a.password with
    | none => rfl
    | some p =>
      obtain ⟨hne, hkept⟩ := h.password p hp
      rw [Option.map_some, Option.filter_some, if_pos (by simpa using hne), Option.map_some,
        encode_of_forall hkept]
  simp only [parse, hsplit, splitPort_hostText h.host, if_neg hhost, Host.parse_text h.host, hport,
    hcut, hpassword, encode_of_forall h.username]
  rfl

end Authority
end Outbox.Url

import Outbox.Json.Decoder
import Outbox.Json.Writer
import Mathlib.Tactic.IntervalCases

/-!
# What is written is read back

`Reads v` says that the reader, given enough fuel, finds `v` in the written form of `v` and stops
right behind it, whatever follows. Texts do so whatever characters they hold; arrays and records do
so if what they hold does; of a number it has to be known that its text reads back. A text of such a
value then decodes as the value does (`decodeString_render`).
-/

namespace Outbox.Json

/-! ### Texts -/

theorem readText_plain {c : Char} (hq : c ≠ '"') (hb : c ≠ '\\') (hc : 0x20 ≤ c.toNat)
    (r : List Char) : readText (c :: r) = consText c (readText r) := by
  rw [readText]
  · exact if_neg (Nat.not_lt.2 hc)
  · exact fun h => hq h
  · exact fun _ _ _ _ _ h => absurd h hb
  · exact fun _ _ h => absurd h hb

theorem readText_short {c d : Char} (hu : c ≠ 'u') (h : shortEscape? c = some d) (r : List Char) :
    readText ('\\' :: c :: r) = consText d (readText r) := by
  rw [readText]
  · simp only [h]
  · exact fun _ _ _ _ _ h => absurd h hu

theorem hex4?_of_lt {n : Nat} (h : n < 0x20) :
    hex4? '0' '0' (Text.lowerHexDigit (n / 16)) (Text.lowerHexDigit (n % 16)) = some n := by
  interval_cases n <;> rfl

theorem readText_numbered {n : Nat} (h : n < 0x20) (r : List Char) :
    readText ('\\' :: 'u' :: '0' :: '0' :: Text.lowerHexDigit (n / 16) ::
      Text.lowerHexDigit (n % 16) :: r) = consText (Char.ofNat n) (readText r) := by
  have hlead : isLead n = false := by simp [isLead]; omega
  have htrail : isTrail n = false := by simp [isTrail]; omega
  rw [readText, hex4?_of_lt h]
  simp [hlead, htrail]

/-- However a character is written, it is read as itself. -/
theorem readText_escape (c : Char) (r : List Char) :
    readText (escape c ++ r) = consText c (readText r) := by
  have hc : ∀ n, c.toNat = n → c = Char.ofNat n := fun n h => by rw [← h, Char.ofNat_toNat]
  unfold escape
  split_ifs with hq hb hplain h8 h9 hA hC hD
  · subst hq; exact readText_short (by decide) rfl r
  · subst hb; exact readText_short (by decide) rfl r
  · exact readText_plain hq hb hplain r
  · rw [hc _ h8]; exact readText_short (by decide) rfl r
  · rw [hc _ h9]; exact readText_short (by decide) rfl r
  · rw [hc _ hA]; exact readText_short (by decide) rfl r
  · rw [hc _ hC]; exact readText_short (by decide) rfl r
  · rw [hc _ hD]; exact readText_short (by decide) rfl r
  · have := readText_numbered (Nat.not_le.1 hplain) r
    rwa [Char.ofNat_toNat] at this

theorem readText_flatMap_escape (cs r : List Char) :
    readText (cs.flatMap escape ++ '"' :: r) = some (some cs, r) := by
  induction cs with
  | nil => rw [List.flatMap_nil, List.nil_append, readText]
  | cons c cs ih =>
    rw [List.flatMap_cons, List.append_assoc, readText_escape, ih]
    rfl

/-! ### Numbers -/

/-- What follows cannot go on a number. -/
def Ends (r : List Char) : Prop := ∀ c ∈ r.head?, ¬ c.isDigit ∧ c ≠ '.' ∧ c ≠ 'e' ∧ c ≠ 'E'

theorem ends_cons {c : Char} (h : ¬ c.isDigit ∧ c ≠ '.' ∧ c ≠ 'e' ∧ c ≠ 'E') (r : List Char) :
    Ends (c :: r) := by
  rintro _ ⟨⟩
  exact h

section
variable {r cs : List Char}

theorem Ends.takeWhile_append (h : Ends r) (cs : List Char) :
    (cs ++ r).takeWhile Char.isDigit = cs.takeWhile Char.isDigit := by
  induction cs with
  | nil =>
    cases r with
    | nil => rfl
    | cons c r => simp [(h c rfl).1]
  | cons c cs ih => by_cases hc : c.isDigit <;> simp [hc, ih]

theorem Ends.dropWhile_append (h : Ends r) (cs : List Char) :
    (cs ++ r).dropWhile Char.isDigit = cs.dropWhile Char.isDigit ++ r := by
  induction cs with
  | nil =>
    cases r with
    | nil => rfl
    | cons c r => simp [(h c rfl).1]
  | cons c cs ih => by_cases hc : c.isDigit <;> simp [hc, ih]

theorem Ends.readFraction_append (h : Ends r) {f : Option (List Char)} {rest : List Char}
    (hf : readFraction cs = some (f, rest)) : readFraction (cs ++ r) = some (f, rest ++ r) := by
  have hne : ∀ {c : Char} {cs' : List Char}, c ≠ '.' →
      readFraction (c :: cs') = some (none, c :: cs') := fun hc => by
    rw [readFraction]
    exact fun _ hc' => hc (List.cons.inj hc').1
  cases cs with
  | nil =>
    cases hf
    cases r with
    | nil => rfl
    | cons c r => exact hne (h c rfl).2.1
  | cons c cs =>
    by_cases hc : c = '.'
    · subst hc
      simp only [readFraction, List.cons_append, h.takeWhile_append, h.dropWhile_append] at hf ⊢
      split at hf
      · cases hf
      · cases hf; simp_all
    · rw [hne hc] at hf
      cases hf
      exact hne hc

theorem Ends.readExponent_append (h : Ends r) {e : Option (Bool × List Char)} {rest : List Char}
    (he : readExponent cs = some (e, rest)) : readExponent (cs ++ r) = some (e, rest ++ r) := by
  cases cs with
  | nil =>
    cases he
    cases r with
    | nil => rfl
    | cons c r => exact if_neg (not_or.2 ⟨(h c rfl).2.2.1, (h c rfl).2.2.2⟩)
  | cons c cs =>
    by_cases hc : c = 'e' ∨ c = 'E'
    · simp only [readExponent, List.cons_append, if_pos hc] at he ⊢
      cases cs with
      | nil => simp at he
      | cons d cs =>
        -- the sign is read from the same character with and without what follows
        have hd := h.dropWhile_append (d :: cs)
        have ht := h.takeWhile_append (d :: cs)
        simp only [List.cons_append] at hd ht ⊢
        split at he
        · rename_i heq
          cases heq
          simp_all [h.takeWhile_append, h.dropWhile_append]
        · rename_i heq
          cases heq
          simp_all [h.takeWhile_append, h.dropWhile_append]
        · simp_all
    · simp only [readExponent, if_neg hc] at he ⊢
      cases he
      exact if_neg hc

theorem Ends.readNumber_append (h : Ends r) {neg : Bool} {n : Number} {rest : List Char}
    (hn : readNumber neg cs = some (n, rest)) : readNumber neg (cs ++ r) = some (n, rest ++ r) := by
  unfold readNumber at hn ⊢
  rw [h.takeWhile_append, h.dropWhile_append]
  simp only [Option.bind_eq_bind] at hn ⊢
  split_ifs at hn ⊢ with hw
  · cases hn
  · obtain ⟨⟨f, r₁⟩, hf, hn⟩ := Option.bind_eq_some_iff.1 hn
    obtain ⟨⟨e, r₂⟩, he, hn⟩ := Option.bind_eq_some_iff.1 hn
    cases hn
    rw [h.readFraction_append hf, Option.bind_some, h.readExponent_append he, Option.bind_some]
    rfl

end

/-! ### Values -/

/-- The text of a number is read as the number, to its end. -/
def Number.ReadsBack (n : Number) : Prop := readValue 1 n.render.toList = (number n, some [])

/-- The written form of a value is read as the value, whatever follows it. -/
def Reads (v : Json) : Prop :=
  ∀ fuel r, (write v).length ≤ fuel → Ends r → readValue fuel (write v ++ r) = (v, some r)

theorem skipBlank_of_not {c : Char} (h : isBlank c = false) (r : List Char) :
    skipBlank (c :: r) = c :: r := List.dropWhile_cons_of_neg (by simp [h])

theorem exists_fuel {cs : List Char} {c : Char} {fuel : Nat} (h : (c :: cs).length ≤ fuel) :
    ∃ k, fuel = k + 1 ∧ cs.length ≤ k :=
  ⟨fuel - 1, by simp at h; omega, by simp at h; omega⟩

theorem reads_text (s : String) : Reads (text s) := by
  intro fuel r hfuel _
  obtain ⟨fuel, rfl, -⟩ := exists_fuel hfuel
  have hw : write (text s) ++ r = '"' :: (s.toList.flatMap escape ++ '"' :: r) := by
    simp [text, write, quote]
  rw [hw, readValue, skipBlank_of_not rfl]
  simp only [readText_flatMap_escape, Option.map_some, String.ofList_toList]
  rfl

theorem reads_null : Reads null := by
  intro fuel r hfuel _
  change ('n' :: "ull".toList).length ≤ fuel at hfuel
  obtain ⟨fuel, rfl, -⟩ := exists_fuel hfuel
  change readValue (fuel + 1) ('n' :: 'u' :: 'l' :: 'l' :: r) = _
  rw [readValue, skipBlank_of_not rfl]
  rfl

/-- A value that may be absent is written as null if it is. -/
theorem reads_option {α : Type} {f : α → Json} {a : Option α} (h : ∀ x ∈ a, Reads (f x)) :
    Reads (option f a) := by
  cases a with
  | none => exact reads_null
  | some x => exact h x rfl

/-- A number that was read behind blanks stands behind a minus sign or begins with a digit. -/
theorem number_of_readValue {fuel : Nat} {cs t : List Char} {n : Number}
    (h : readValue (fuel + 1) cs = (number n, some t)) :
    (∃ u, skipBlank cs = '-' :: u ∧ readNumber true u = some (n, t)) ∨
      readNumber false (skipBlank cs) = some (n, t) := by
  have hname : ∀ {name : List Char} {v : Json} {u : List Char},
      readName name v u = (number n, some t) → v = number n := fun h => by
    unfold readName at h
    split_ifs at h
    · exact (Prod.mk.inj h).1
    · cases h
  rw [readValue] at h
  split at h
  · cases hname h
  · cases hname h
  · cases hname h
  · split at h <;> cases h
  · split at h <;> cases h
  · split at h <;> cases h
  · rename_i u hu
    split at h
    · cases h
    · rename_i hn
      cases h
      exact .inl ⟨u, hu, hn⟩
  · split at h
    · cases h
    · rename_i hn
      cases h
      exact .inr hn

theorem readValue_digit {fuel : Nat} {cs t u : List Char} {c : Char} {n : Number}
    (hs : skipBlank cs = c :: u) (hc : c.isDigit) (h : readNumber false (c :: u) = some (n, t)) :
    readValue (fuel + 1) cs = (number n, some t) := by
  have hne : ∀ d : Char, d.isDigit = false → c ≠ d := fun d hd hcd => by simp [← hcd, hc] at hd
  rw [readValue, hs]
  -- a digit begins nothing else
  split
  all_goals first
    | exact absurd (List.cons.inj ‹_›).1 (hne _ (by decide))
    | skip
  rw [h]

/-- The whole part of a number is there. -/
theorem isDigit_of_readNumber {neg : Bool} {cs : List Char} {x : Number × List Char}
    (h : readNumber neg cs = some x) : ∃ c u, cs = c :: u ∧ c.isDigit := by
  cases cs with
  | nil => simp [readNumber] at h
  | cons c u =>
    refine ⟨c, u, rfl, ?_⟩
    by_contra hc
    simp [readNumber, hc] at h

theorem reads_number {n : Number} (h : n.ReadsBack) : Reads (number n) := by
  intro fuel r hfuel hr
  unfold Number.ReadsBack at h
  rw [write] at hfuel ⊢
  generalize n.render.toList = cs at h hfuel
  have hs : ∀ {c : Char} {t : List Char}, skipBlank cs = c :: t →
      skipBlank (cs ++ r) = c :: (t ++ r) := by
    intro c t ht
    unfold skipBlank at ht ⊢
    rw [List.dropWhile_append, ht]
    rfl
  obtain ⟨fuel, rfl⟩ : ∃ k, fuel = k + 1 := by
    cases cs with
    | nil => simp [readValue, skipBlank, readNumber] at h
    | cons c cs => exact (exists_fuel hfuel).imp fun _ => And.left
  obtain ⟨u, hu, hn⟩ | hn := number_of_readValue h
  · rw [readValue, hs hu]
    simp only [hr.readNumber_append hn]
    rfl
  · obtain ⟨c, u, hu, hc⟩ := isDigit_of_readNumber hn
    rw [hu] at hn
    exact readValue_digit (hs hu) hc (hr.readNumber_append hn)

def members (fs : List (String × Json)) : List (Json × Json) := fs.map fun f => (text f.1, f.2)

theorem writeMembers_cons_cons (k : String) (v : Json) (f : String × Json)
    (fs : List (String × Json)) (r : List Char) :
    writeMembers (members ((k, v) :: f :: fs)) ++ r =
      write (text k) ++ ':' :: (write v ++ ',' :: (writeMembers (members (f :: fs)) ++ r)) := by
  simp [members, writeMembers]

theorem readMembers_members {fs : List (String × Json)} (hne : fs ≠ [])
    (hfs : ∀ f ∈ fs, Reads f.2) {fuel : Nat} (r : List Char)
    (hfuel : (writeMembers (members fs)).length < fuel) :
    readMembers fuel (writeMembers (members fs) ++ '\x7d' :: r) = (members fs, some r) := by
  induction fs generalizing fuel with
  | nil => exact absurd rfl hne
  | cons f fs ih =>
    obtain ⟨k, v⟩ := f
    obtain ⟨fuel, rfl⟩ : ∃ n, fuel = n + 1 := ⟨fuel - 1, by omega⟩
    have hv : Reads v := hfs _ List.mem_cons_self
    cases fs with
    | nil =>
      simp only [members, List.map_cons, List.map_nil, writeMembers, List.length_append,
        List.length_cons, List.append_assoc, List.cons_append] at hfuel ⊢
      rw [readMembers, reads_text k fuel _ (by omega) (ends_cons (by decide) _), text]
      simp only [skipBlank_of_not (c := ':') rfl]
      rw [hv fuel _ (by omega) (ends_cons (by decide) _)]
      rfl
    | cons f fs =>
      rw [writeMembers_cons_cons]
      have hlen := congrArg List.length (writeMembers_cons_cons k v f fs [])
      simp only [List.append_nil, List.length_append, List.length_cons] at hlen
      have hlt : (writeMembers (members (f :: fs))).length < fuel := by omega
      have ih := ih (List.cons_ne_nil f fs) (fun g hg => hfs g (List.mem_cons_of_mem _ hg)) hlt
      rw [readMembers, reads_text k fuel _ (by omega) (ends_cons (by decide) _), text]
      simp only [skipBlank_of_not (c := ':') rfl]
      rw [hv fuel _ (by omega) (ends_cons (by decide) _)]
      simp only [skipBlank_of_not (c := ',') rfl, ih]
      rfl

theorem reads_record {fs : List (String × Json)} (hfs : ∀ f ∈ fs, Reads f.2) :
    Reads (record fs) := by
  intro fuel r hfuel _
  change (write (object (members fs) true)).length ≤ fuel at hfuel
  change readValue fuel (write (object (members fs) true) ++ r) = (object (members fs) true, some r)
  rw [write] at hfuel ⊢
  obtain ⟨fuel, rfl, hlen⟩ := exists_fuel hfuel
  simp only [List.length_append, List.length_singleton, List.cons_append, List.append_assoc,
    List.nil_append] at hlen ⊢
  rw [readValue, skipBlank_of_not rfl]
  cases fs with
  | nil => rfl
  | cons f fs =>
    have hm := readMembers_members (List.cons_ne_nil f fs) hfs r hlen
    obtain ⟨t, ht⟩ : ∃ t, writeMembers (members (f :: fs)) ++ '\x7d' :: r = '"' :: t := by
      cases fs <;> exact ⟨_, rfl⟩
    rw [ht] at hm ⊢
    simp only [skipBlank_of_not (c := '"') rfl]
    change (object (readMembers fuel ('"' :: t)).1 _, _) = _
    rw [hm]
    rfl

theorem read_render {v : Json} (h : Reads v) : Document.read (render v) = ⟨v, true⟩ := by
  unfold Document.read render
  have hv := h (2 * (write v).length + 2) [] (by omega) (by rintro _ ⟨⟩)
  rw [List.append_nil] at hv
  simp only [String.toList_ofList, hv]
  rfl

/-- The text of a value decodes as the value does. -/
theorem decodeString_render {α : Type} {v : Json} (d : Decoder α) (h : Reads v) :
    decodeString d (render v) = d v := by
  simp only [decodeString, read_render h, if_true]
  exact bind_pure (d v)

end Outbox.Json

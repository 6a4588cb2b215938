import Outbox.Proofs.Url.Body

/-!
# Addresses are read back

Every address that was read is in normal form (`normal_of_parse`), and the text of an address in
normal form is read as that address (`parse_text`). So an address can be handed on as a text.
-/

namespace Outbox.Url

variable {scheme s : String} {cs r : List Char} {c mark : Char} {u : Url}

/-! ### Schemes -/

/-- A scheme in lower case. -/
structure IsScheme (cs : List Char) : Prop where
  alpha : cs.head?.any Char.isAlpha = true
  chars : ∀ c ∈ cs, isSchemeChar c = true ∧ c.toLower = c

theorem lt_of_isSchemeChar (h : isSchemeChar c = true) : c.toNat < 128 := by
  have hletter : ∀ lo hi : UInt32, lo ≤ c.val ∧ c.val ≤ hi → hi ≤ 122 → c.toNat < 128 := by
    rintro lo hi ⟨-, h⟩ hhi
    exact Nat.lt_of_le_of_lt (UInt32.le_iff_toNat_le.1 (UInt32.le_trans h hhi)) (by decide)
  delta isSchemeChar Char.isAlphanum Char.isAlpha Char.isUpper Char.isLower Char.isDigit at h
  simp only [Bool.or_eq_true, Bool.and_eq_true, decide_eq_true_eq] at h
  rcases h with ((((h | h) | h) | rfl) | rfl) | rfl
  · exact hletter _ _ h (by decide)
  · exact hletter _ _ h (by decide)
  · exact hletter _ _ h (by decide)
  · decide
  · decide
  · decide

theorem isSchemeChar_toLower (h : isSchemeChar c = true) :
    isSchemeChar c.toLower = true ∧ c.toLower.toLower = c.toLower ∧
      (c.isAlpha = true → c.toLower.isAlpha = true) := by
  have hascii : ∀ n < 128, isSchemeChar (Char.ofNat n) = true →
      isSchemeChar (Char.ofNat n).toLower = true ∧
        (Char.ofNat n).toLower.toLower = (Char.ofNat n).toLower ∧
        ((Char.ofNat n).isAlpha = true → (Char.ofNat n).toLower.isAlpha = true) := by decide
  have hc := hascii c.toNat (lt_of_isSchemeChar h)
  rw [Char.ofNat_toNat] at hc
  exact hc h

theorem isPrintable_of_isSchemeChar (h : isSchemeChar c = true) : 0x20 < c.toNat := by
  have hascii : ∀ n < 128, isSchemeChar (Char.ofNat n) = true → 0x20 < n := by decide
  exact hascii c.toNat (lt_of_isSchemeChar h) (by rwa [Char.ofNat_toNat])

theorem takeScheme_append (h : IsScheme cs) (r : List Char) :
    takeScheme (cs ++ ':' :: r) = .ok (String.ofList cs, r) := by
  have hall : ∀ c ∈ cs, isSchemeChar c = true := fun c hc => (h.chars c hc).1
  have hlower : cs.map Char.toLower = cs :=
    (List.map_congr_left fun c hc => (h.chars c hc).2).trans (List.map_id _)
  have htake : (cs ++ ':' :: r).takeWhile isSchemeChar = cs := by
    rw [List.takeWhile_append_of_pos hall, List.takeWhile_cons_of_neg (by decide), List.append_nil]
  have hdrop : (cs ++ ':' :: r).dropWhile isSchemeChar = ':' :: r := by
    rw [List.dropWhile_append_of_pos hall, List.dropWhile_cons_of_neg (by decide)]
  simp only [takeScheme, htake, hdrop, h.alpha, if_true, hlower]
  rfl

theorem isScheme_of_takeScheme (h : takeScheme cs = .ok (scheme, r)) :
    IsScheme scheme.toList ∧ ∃ t, cs = t ++ ':' :: r := by
  unfold takeScheme at h
  simp only at h
  split at h <;> rename_i hdrop
  · split at h <;> rename_i halpha
    · cases h
      have hchars : ∀ c ∈ cs.takeWhile isSchemeChar, isSchemeChar c = true :=
        fun c => List.mem_takeWhile_imp
      refine ⟨⟨?_, ?_⟩, cs.takeWhile isSchemeChar, ?_⟩
      · rw [String.toList_ofList, List.head?_map, Option.any_map]
        obtain ⟨c, hc, hcalpha⟩ := (Option.any_eq_true _ _).1 halpha
        rw [hc]
        exact (isSchemeChar_toLower (hchars c (List.mem_of_mem_head? hc))).2.2 hcalpha
      · rw [String.toList_ofList]
        intro c hc
        obtain ⟨x, hx, rfl⟩ := List.mem_map.1 hc
        have hlower := isSchemeChar_toLower (hchars x hx)
        exact ⟨hlower.1, hlower.2.1⟩
      · rw [← hdrop, List.takeWhile_append_dropWhile]
    · cases h
  · cases h

/-! ### White space around an address -/

theorem counts_of_le (h : 0x20 ≤ c.toNat) : (c ≠ '\t' && c ≠ '\n' && c ≠ '\r') = true := by
  simp only [Bool.and_eq_true, decide_eq_true_eq]
  refine ⟨⟨?_, ?_⟩, ?_⟩
  all_goals
    rintro rfl
    exact absurd h (by decide)

theorem trim_of_forall (hhead : ∀ c ∈ cs.head?, 0x20 < c.toNat)
    (hlast : ∀ c ∈ cs.getLast?, 0x20 < c.toNat) (h : ∀ c ∈ cs, 0x20 ≤ c.toNat) : trim cs = cs := by
  have hdrop : ∀ {cs : List Char}, (∀ c ∈ cs.head?, 0x20 < c.toNat) →
      cs.dropWhile (fun c => decide (c.toNat ≤ 0x20)) = cs := by
    intro cs hhead
    cases cs with
    | nil => rfl
    | cons c cs => exact List.dropWhile_cons_of_neg (by simpa using hhead c rfl)
  have hreverse : ∀ c ∈ cs.reverse.head?, 0x20 < c.toNat := by rwa [List.head?_reverse]
  simp only [trim, hdrop hhead, hdrop hreverse, List.reverse_reverse]
  exact List.filter_eq_self.2 fun c hc => counts_of_le (h c hc)

/-- Nothing is cut off what begins with a scheme and does not end in a blank. -/
theorem trim_scheme (h : IsScheme cs) (hr : ∀ c ∈ r, 0x20 ≤ c.toNat)
    (hlast : (cs ++ r).getLast? ≠ some ' ') : trim (cs ++ r) = cs ++ r := by
  have hprintable : ∀ c ∈ cs, 0x20 < c.toNat := fun c hc =>
    isPrintable_of_isSchemeChar (h.chars c hc).1
  have hall : ∀ c ∈ cs ++ r, 0x20 ≤ c.toNat := fun c hc =>
    (List.mem_append.1 hc).elim (fun hc => Nat.le_of_lt (hprintable c hc)) (hr c)
  refine trim_of_forall (fun c hc => ?_) (fun c hc => ?_) hall
  · obtain ⟨x, hx, -⟩ := (Option.any_eq_true _ _).1 h.alpha
    rw [List.head?_append, hx] at hc
    cases hc
    exact hprintable _ (List.mem_of_mem_head? hx)
  · refine Nat.lt_of_le_of_ne (hall c (List.mem_of_mem_getLast? hc)) fun heq => hlast ?_
    obtain rfl : c = ' ' := by rw [← Char.ofNat_toNat c, ← heq]
    exact hc

/-- What is left ends in no white space. -/
theorem lt_of_getLast_trim (h : c ∈ (trim cs).getLast?) : 0x20 < c.toNat := by
  simp only [trim] at h
  generalize cs.dropWhile (fun c => decide (c.toNat ≤ 0x20)) = m at h
  cases hm : m.reverse.dropWhile (fun c => decide (c.toNat ≤ 0x20)) with
  | nil =>
    rw [hm] at h
    cases h
  | cons x r =>
    have hx : 0x20 < x.toNat := by
      have hneg := List.head_dropWhile_not (fun c => decide (Char.toNat c ≤ 0x20))
        (l := m.reverse) (by simp [hm])
      simpa [hm] using hneg
    have hkept : [x].filter (fun c => c ≠ '\t' && c ≠ '\n' && c ≠ '\r') = [x] :=
      List.filter_eq_self.2 fun c hc => by
        rw [List.mem_singleton.1 hc]
        exact counts_of_le (Nat.le_of_lt hx)
    rw [hm, List.reverse_cons, List.filter_append, hkept, List.getLast?_concat] at h
    cases h
    exact hx

/-! ### Queries and fragments -/

theorem toList_text (u : Url) : u.text.toList = u.scheme.toList ++ ':' ::
    (u.bodyText.toList ++ (tailText "?" u.query).toList ++ (tailText "#" u.fragment).toList) := by
  cases h : u.authority <;> simp [text, bodyText, h]

/-- A text is cut at the first mark, which is not in what stands before it. -/
theorem cut_tailText {mark : String} (hmark : mark.toList = [c]) (h : c ∉ cs) (o : Option String) :
    cut c (cs ++ (tailText mark o).toList) = (cs, o.map String.toList) := by
  cases o with
  | none => simpa [tailText] using cut_of_not_mem h
  | some s => simpa [tailText, hmark] using cut_append h s.toList

theorem of_mem_tailText {mark : String} (hmark : mark.toList = [c]) {o : Option String} {x : Char}
    (hx : x ∈ (tailText mark o).toList) : x = c ∨ ∃ s ∈ o, x ∈ s.toList := by
  cases o with
  | none => cases hx
  | some s => simpa [tailText, hmark] using hx

theorem tailText_eq_nil {mark : String} (hmark : mark.toList = [c]) {o : Option String}
    (h : (tailText mark o).toList = []) : o = none := by
  cases o with
  | none => rfl
  | some s => simp [tailText, hmark] at h

theorem le_of_isControl (h : isControl c = false) : 0x20 ≤ c.toNat := by
  simp only [isControl, Bool.or_eq_false_iff, decide_eq_false_iff_not] at h
  omega

theorem le_of_mem_tailText {mark : String} (hmark : mark.toList = [c]) (hc : 0x20 ≤ c.toNat)
    {also : List Char} {o : Option String} (ho : ∀ s ∈ o, ∀ c ∈ s.toList, IsKept also c) {x : Char}
    (hx : x ∈ (tailText mark o).toList) : 0x20 ≤ x.toNat := by
  rcases of_mem_tailText hmark hx with rfl | ⟨s, hs, hx⟩
  · exact hc
  · exact le_of_isControl (ho s hs x hx).1

theorem not_mem_tailText {mark : String} (hmark : mark.toList = [c]) {also : List Char} {x : Char}
    (hc : c ≠ x) (hx : x ∈ also) {o : Option String}
    (ho : ∀ s ∈ o, ∀ c ∈ s.toList, IsKept also c) : x ∉ (tailText mark o).toList := by
  intro hmem
  rcases of_mem_tailText hmark hmem with heq | ⟨s, hs, hmem⟩
  · exact hc heq.symm
  · exact (ho s hs x hmem).2 hx

theorem isKept_of_map_encode {also : List Char} (h : IsEncodeSet also) (o : Option (List Char)) :
    ∀ s ∈ o.map (encode also), ∀ c ∈ s.toList, IsKept also c := by
  intro s hs c hc
  obtain ⟨x, -, rfl⟩ := Option.map_eq_some_iff.1 hs
  exact isKept_of_mem_encode h hc

theorem map_encode {also : List Char} {o : Option String}
    (h : ∀ s ∈ o, ∀ c ∈ s.toList, IsKept also c) :
    (o.map String.toList).map (encode also) = o := by
  cases o with
  | none => rfl
  | some s => exact congrArg some (encode_of_forall (h s rfl))

/-- An address in the form in which it is read. -/
structure Normal (u : Url) : Prop where
  scheme : IsScheme u.scheme.toList
  body : IsBody u.scheme u.authority u.path
  query : ∀ q ∈ u.query, ∀ c ∈ q.toList, IsKept (querySet (isSpecial u.scheme)) c
  fragment : ∀ f ∈ u.fragment, ∀ c ∈ f.toList, IsKept fragmentSet c
  /-- White space at the end would not count. -/
  last : u.text.toList.getLast? ≠ some ' '

/-- A character that can stand between the scheme and the query. -/
def IsBodyChar (c : Char) : Prop := isControl c = false ∧ c ≠ '#' ∧ c ≠ '?'

instance : DecidablePred IsBodyChar := fun _ => inferInstanceAs (Decidable (_ ∧ _))

theorem isBodyChar_of_isChar (h : Authority.IsChar c) : IsBodyChar c ∧ c ≠ ' ' := by
  obtain ⟨hlow, hhigh, hset⟩ := h
  simp only [List.mem_cons, not_or] at hset
  refine ⟨⟨?_, hset.1, hset.2.2.1⟩, ?_⟩
  · simp only [isControl, Bool.or_eq_false_iff, decide_eq_false_iff_not]
    omega
  · rintro rfl
    exact absurd hlow (by decide)

theorem isBodyChar_of_mem_names {special : Bool} {names : List String}
    (h : ∀ s ∈ names, IsSegment special s) (hc : c ∈ (Path.segments names).text.toList) :
    IsBodyChar c ∧ c ≠ ' ' := by
  cases names with
  | nil => cases hc
  | cons s names =>
    rw [Path.toList_text_cons] at hc
    rcases List.mem_cons.1 hc with rfl | hc
    · decide
    · refine Text.of_mem_intercalate (P := fun c => IsBodyChar c ∧ c ≠ ' ') (by decide)
        (fun l hl x hx => ?_) hc
      obtain ⟨s, hs, rfl⟩ := List.mem_map.1 hl
      obtain ⟨hcontrol, hset⟩ := ((h s hs).chars x hx).1
      simp only [pathSet, fragmentSet, List.cons_append, List.nil_append, List.mem_cons,
        not_or] at hset
      exact ⟨⟨hcontrol, hset.2.2.2.2.2.1, hset.2.2.2.2.2.2.1⟩, hset.1⟩

theorem isBodyChar_of_mem_normal {a : Authority} (h : a.Normal scheme)
    (hc : c ∈ a.text.toList) : IsBodyChar c ∧ c ≠ ' ' := by
  rw [Authority.toList_text] at hc
  rcases List.mem_cons.1 hc with rfl | hc
  · decide
  rcases List.mem_cons.1 hc with rfl | hc
  · decide
  rcases List.mem_append.1 hc with hc | hc
  · exact isBodyChar_of_isChar (Authority.isChar_of_mem_userText h hc)
  · exact isBodyChar_of_isChar (Authority.isChar_of_mem_hostText h.host hc).1

theorem IsBody.isBodyChar_of_mem_authority {a : Authority} {path : Path}
    (h : IsBody scheme (some a) path) (hc : c ∈ a.text.toList) : IsBodyChar c ∧ c ≠ ' ' := by
  cases h with
  | @file host names known segments ne single =>
    have htext : c = '/' ∨ c ∈ host.text.toList := by
      simpa [Authority.text, Authority.userText, Authority.hostText] using hc
    rcases htext with rfl | hc
    · decide
    · rcases known with rfl | ⟨hnormal, -⟩
      · cases hc
      · exact isBodyChar_of_isChar (Authority.isChar_of_mem_host hnormal hc).1
  | special special file normal segments ne => exact isBodyChar_of_mem_normal normal hc
  | other special normal segments => exact isBodyChar_of_mem_normal normal hc

theorem isBodyChar_of_mem_guardText (hc : c ∈ u.guardText.toList) : IsBodyChar c ∧ c ≠ ' ' := by
  unfold guardText at hc
  split at hc
  · have hdot : ∀ c ∈ "/.".toList, IsBodyChar c ∧ c ≠ ' ' := List.all_iff_forall_prop.1 (by decide)
    exact hdot c hc
  · cases hc

theorem IsBody.of_mem_path {authority : Option Authority} {path : Path}
    (h : IsBody scheme authority path) (hc : c ∈ path.text.toList) :
    IsBodyChar c ∧ (c = ' ' → ∃ s, path = .whole s) := by
  have hplain : ∀ {path : Path}, IsBodyChar c ∧ c ≠ ' ' →
      IsBodyChar c ∧ (c = ' ' → ∃ s, path = .whole s) :=
    fun h => ⟨h.1, fun heq => absurd heq h.2⟩
  cases h with
  | file known segments ne single => exact hplain (isBodyChar_of_mem_names segments hc)
  | special special file normal segments ne => exact hplain (isBodyChar_of_mem_names segments hc)
  | other special normal segments => exact hplain (isBodyChar_of_mem_names segments hc)
  | rooted special segments ne => exact hplain (isBodyChar_of_mem_names segments hc)
  | whole special chars slash => exact ⟨chars c hc, fun _ => ⟨_, rfl⟩⟩

/-- Only a path that is not divided has blanks. -/
theorem of_mem_bodyText (h : IsBody u.scheme u.authority u.path) (hc : c ∈ u.bodyText.toList) :
    IsBodyChar c ∧ (c = ' ' → ∃ s, u.path = .whole s) := by
  have hplain : IsBodyChar c ∧ c ≠ ' ' → IsBodyChar c ∧ (c = ' ' → ∃ s, u.path = .whole s) :=
    fun h => ⟨h.1, fun heq => absurd heq h.2⟩
  rw [bodyText, String.toList_append, String.toList_append, List.mem_append,
    List.mem_append] at hc
  rcases hc with (hc | hc) | hc
  · cases hauthority : u.authority with
    | none =>
      rw [hauthority] at hc
      cases hc
    | some a =>
      rw [hauthority] at h hc
      exact hplain (h.isBodyChar_of_mem_authority hc)
  · exact hplain (isBodyChar_of_mem_guardText hc)
  · exact h.of_mem_path hc

/-! ### Addresses -/

/-- An address is read from its parts, each of which is read back. -/
theorem parse_append {body : List Char} {authority : Option Authority} {path : Path}
    {query fragment : Option String} (hscheme : IsScheme scheme.toList)
    (hbody : parseBody scheme body = .ok (authority, path)) (hchars : ∀ c ∈ body, IsBodyChar c)
    (hquery : ∀ q ∈ query, ∀ c ∈ q.toList, IsKept (querySet (isSpecial scheme)) c)
    (hfragment : ∀ f ∈ fragment, ∀ c ∈ f.toList, IsKept fragmentSet c)
    (hs : s.toList = scheme.toList ++ ':' ::
      (body ++ (tailText "?" query).toList ++ (tailText "#" fragment).toList))
    (hlast : s.toList.getLast? ≠ some ' ') :
    parse s = .ok ⟨scheme, authority, path, query, fragment⟩ := by
  have hvisible : ∀ c ∈ ':' :: (body ++ (tailText "?" query).toList ++
      (tailText "#" fragment).toList), 0x20 ≤ c.toNat := by
    intro c hc
    rcases List.mem_cons.1 hc with rfl | hc
    · decide
    rcases List.mem_append.1 hc with hc | hc
    · rcases List.mem_append.1 hc with hc | hc
      · exact le_of_isControl (hchars c hc).1
      · exact le_of_mem_tailText (show "?".toList = _ from rfl) (by decide) hquery hc
    · exact le_of_mem_tailText (show "#".toList = _ from rfl) (by decide) hfragment hc
  have htrim : trim s.toList = s.toList := by
    rw [hs] at hlast ⊢
    exact trim_scheme hscheme hvisible hlast
  have hsign : '#' ∉ body ++ (tailText "?" query).toList := fun hmem =>
    (List.mem_append.1 hmem).elim (fun hmem => (hchars _ hmem).2.1 rfl)
      (not_mem_tailText (show "?".toList = _ from rfl) (by decide) (by simp [querySet]) hquery)
  have hmark : '?' ∉ body := fun hmem => (hchars _ hmem).2.2 rfl
  have hcut := cut_tailText (show "#".toList = ['#'] from rfl) hsign fragment
  have hcutQuery := cut_tailText (show "?".toList = ['?'] from rfl) hmark query
  rw [parse, htrim, hs, takeScheme_append hscheme]
  simp only [bind, Except.bind, hcut, hcutQuery, String.ofList_toList, hbody, map_encode hquery,
    map_encode hfragment]
  rfl

/-- The text of an address in normal form is read back. -/
theorem parse_text (h : u.Normal) : parse u.text = .ok u :=
  parse_append h.scheme (parseBody_text h.body) (fun _ hc => (of_mem_bodyText h.body hc).1) h.query
    h.fragment (toList_text u) h.last

theorem of_cut {front : List Char} {back : Option (List Char)} (h : cut mark cs = (front, back)) :
    mark ∉ front ∧ front ⊆ cs ∧ (back = none → front = cs) := by
  obtain ⟨rfl, rfl⟩ := Prod.mk.inj h
  refine ⟨fun hmem => ?_, (List.takeWhile_sublist _).subset, fun hnone => ?_⟩
  · simpa using List.mem_takeWhile_imp hmem
  · have hdrop : cs.dropWhile (· ≠ mark) = [] := by
      cases hm : cs.dropWhile (· ≠ mark) with
      | nil => rfl
      | cons c r =>
        rw [hm] at hnone
        cases hnone
    exact List.takeWhile_eq_self_iff.2 (List.dropWhile_eq_nil_iff.1 hdrop)

/-- The last character is in what comes last, if there is anything. -/
theorem last_append (h : (cs ++ r).getLast? = some c) (hr : c ∉ r) :
    r = [] ∧ cs.getLast? = some c := by
  rcases List.eq_nil_or_concat r with rfl | ⟨r, x, rfl⟩
  · exact ⟨rfl, by simpa using h⟩
  · rw [List.concat_eq_append, ← List.append_assoc, List.getLast?_concat] at h
    cases h
    exact absurd (by simp) hr

/-- An encoded text ends in a blank only if the text does. -/
theorem getLast_of_encode {also : List Char} (h : (encode also cs).toList.getLast? = some ' ') :
    cs.getLast? = some ' ' := by
  rw [encode, String.toList_ofList] at h
  rcases List.eq_nil_or_concat cs with rfl | ⟨b, x, rfl⟩
  · cases h
  · rw [List.concat_eq_append, List.getLast?_concat]
    by_contra hx
    rw [List.concat_eq_append, Text.percentEncode, List.flatMap_append] at h
    refine Text.percentEncode_ne_nil (List.cons_ne_nil x []) (last_append h fun hmem => ?_).1
    refine Text.of_mem_percentEncode (P := (' ' ≠ ·)) (fun c hc _ heq => hx ?_) (by decide)
      (by decide) hmem rfl
    rw [heq, List.mem_singleton.1 hc]

/-- A path that is not divided is all there is. -/
theorem of_parseBody_whole {authority : Option Authority}
    (h : parseBody scheme cs = .ok (authority, .whole s)) :
    authority = none ∧ s = encode [] cs := by
  unfold parseBody at h
  split at h
  · obtain ⟨⟨a, p⟩, hparse, h⟩ := bind_eq_ok.1 h
    cases h
    cases isBody_of_parseFile hparse
  · split at h
    · obtain ⟨⟨a, p⟩, hparse, h⟩ := bind_eq_ok.1 h
      cases h
      obtain ⟨-, r, hr⟩ := of_parseAuthority hparse
      cases hr
    · split at h
      · obtain ⟨⟨a, p⟩, hparse, h⟩ := bind_eq_ok.1 h
        cases h
        obtain ⟨-, r, hr⟩ := of_parseAuthority hparse
        cases hr
      · cases h
      · cases h
        exact ⟨rfl, rfl⟩

/-- Where an address ends in a blank, nothing comes after the path, and the path ends in it. -/
theorem last_bodyText
    (hquery : ∀ q ∈ u.query, ∀ c ∈ q.toList, IsKept (querySet (isSpecial u.scheme)) c)
    (hfragment : ∀ f ∈ u.fragment, ∀ c ∈ f.toList, IsKept fragmentSet c)
    (h : u.text.toList.getLast? = some ' ') :
    u.query = none ∧ u.fragment = none ∧ u.bodyText.toList.getLast? = some ' ' := by
  have happend : u.text.toList = (u.scheme.toList ++ [':'] ++ u.bodyText.toList ++
      (tailText "?" u.query).toList) ++ (tailText "#" u.fragment).toList := by
    simp [toList_text]
  rw [happend] at h
  obtain ⟨hf, h⟩ := last_append h
    (not_mem_tailText (c := '#') rfl (by decide) (by simp [fragmentSet]) hfragment)
  obtain ⟨hq, h⟩ := last_append h
    (not_mem_tailText (c := '?') rfl (by decide) (by simp [querySet]) hquery)
  refine ⟨tailText_eq_nil (c := '?') rfl hq, tailText_eq_nil (c := '#') rfl hf, ?_⟩
  rcases List.eq_nil_or_concat u.bodyText.toList with hnil | ⟨b, x, hbody⟩
  · rw [hnil, List.append_nil, List.getLast?_concat] at h
    cases h
  · rw [List.concat_eq_append] at hbody
    rw [hbody, ← List.append_assoc, List.getLast?_concat] at h
    rw [hbody, List.getLast?_concat, h]

/-- Every address that was read is in normal form. -/
theorem normal_of_parse (h : parse s = .ok u) : u.Normal := by
  obtain ⟨⟨scheme, r⟩, hscheme, h⟩ := bind_eq_ok.1 h
  obtain ⟨hnormal, t, ht⟩ := isScheme_of_takeScheme hscheme
  rcases hfragmentCut : cut '#' r with ⟨front, fragment⟩
  rcases hqueryCut : cut '?' front with ⟨body, query⟩
  simp only [hfragmentCut, hqueryCut] at h
  obtain ⟨⟨authority, path⟩, hbody, h⟩ := bind_eq_ok.1 h
  cases h
  obtain ⟨hsign, hfront, hwhole⟩ := of_cut hfragmentCut
  obtain ⟨hmark, hsubset, hfrontWhole⟩ := of_cut hqueryCut
  have hquery := isKept_of_map_encode (isEncodeSet_querySet (isSpecial scheme)) query
  have hfragment := isKept_of_map_encode isEncodeSet_fragmentSet fragment
  have hisBody := isBody_of_parseBody ⟨fun hmem => hsign (hsubset hmem), hmark⟩ hbody
  refine ⟨hnormal, hisBody, hquery, hfragment, fun hlast => ?_⟩
  obtain ⟨hq, hf, hlast⟩ := last_bodyText hquery hfragment hlast
  simp only [Option.map_eq_none_iff] at hq hf
  -- The blank would be the last character of a text without white space around it.
  obtain ⟨p, rfl⟩ : ∃ p, path = .whole p :=
    (of_mem_bodyText hisBody (List.mem_of_mem_getLast? hlast)).2 rfl
  obtain ⟨rfl, rfl⟩ := of_parseBody_whole hbody
  have hend : (encode [] body).toList.getLast? = some ' ' := by
    simpa [bodyText, guardText, Path.text] using hlast
  have hr : r.getLast? = some ' ' := by
    rw [← hwhole hf, ← hfrontWhole hq]
    exact getLast_of_encode hend
  have htrim : ' ' ∈ (trim s.toList).getLast? := by
    rw [ht, List.getLast?_append, List.getLast?_cons]
    simp [hr]
  exact absurd (lt_of_getLast_trim htrim) (by decide)

end Outbox.Url

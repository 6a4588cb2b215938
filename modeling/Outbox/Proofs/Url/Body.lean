import Outbox.Proofs.Url.Path

/-!
# Texts between the scheme and the query

An authority and a path that were read are in normal form (`isBody_of_parseBody`), and their text is
read back (`parseBody_text`). A path that would be taken for an authority has a dot before it.
-/

namespace Outbox.Url

variable {scheme s : String} {authority : Option Authority} {path : Path} {a : Authority}
  {names : List String} {cs r : List Char} {c : Char} {special : Bool} {u : Url}

/-! ### Authority and path -/

/-- What stands between the scheme and the query, in the form in which it is read. -/
inductive IsBody : String → Option Authority → Path → Prop
  | file {host : Host} {names : List String}
      (known : host = .name "" ∨ host.Normal true ∧ host ≠ .name "localhost")
      (segments : ∀ s ∈ names, IsSegment true s) (ne : names ≠ []) (single : ¬Doubled names) :
      IsBody "file" (some ⟨"", none, host, none⟩) (.segments names)
  | special {scheme : String} {a : Authority} {names : List String}
      (special : isSpecial scheme = true) (file : scheme ≠ "file") (normal : a.Normal scheme)
      (segments : ∀ s ∈ names, IsSegment true s) (ne : names ≠ []) :
      IsBody scheme (some a) (.segments names)
  | other {scheme : String} {a : Authority} {names : List String}
      (special : isSpecial scheme = false) (normal : a.Normal scheme)
      (segments : ∀ s ∈ names, IsSegment false s) : IsBody scheme (some a) (.segments names)
  | rooted {scheme : String} {names : List String} (special : isSpecial scheme = false)
      (segments : ∀ s ∈ names, IsSegment false s) (ne : names ≠ []) :
      IsBody scheme none (.segments names)
  | whole {scheme s : String} (special : isSpecial scheme = false)
      (chars : ∀ c ∈ s.toList, isControl c = false ∧ c ≠ '#' ∧ c ≠ '?')
      (slash : s.toList.head? ≠ some '/') : IsBody scheme none (.whole s)

theorem isBody_of_parseFile (h : parseFile cs = .ok (a, path)) : IsBody "file" (some a) path := by
  have hpath : ∀ (host : Host) (cs : List Char),
      host = .name "" ∨ host.Normal true ∧ host ≠ .name "localhost" →
      IsBody "file" (some ⟨"", none, host, none⟩) (.segments (dropEmpty (segmentsOf true cs))) :=
    fun host cs hhost => .file hhost
      (fun s hs => isSegment_of_mem_segmentsOf ((dropEmpty_suffix _).subset hs))
      (dropEmpty_ne_nil (segmentsOf_ne_nil cs)) (not_doubled_dropEmpty _)
  unfold parseFile at h
  simp only at h
  split at h
  · split at h
    · split at h
      · cases h
        exact hpath _ _ (.inl rfl)
      · obtain ⟨host, hhost, h⟩ := bind_eq_ok.1 h
        cases h
        refine hpath _ _ ?_
        split <;> rename_i hlocal
        · exact .inl rfl
        · exact .inr ⟨Host.normal_of_parse hhost, hlocal⟩
    · split at h <;> cases h <;> exact hpath _ _ (.inl rfl)
  · cases h
    exact hpath _ _ (.inl rfl)
  · cases h
    exact hpath _ _ (.inl rfl)

theorem of_parseAuthority (h : parseAuthority scheme cs = .ok (a, path)) : a.Normal scheme ∧
    ∃ r, path = .segments (segmentsOf (isSpecial scheme) r) := by
  obtain ⟨a, hparse, h⟩ := bind_eq_ok.1 h
  cases h
  exact ⟨Authority.normal_of_parse hparse, _, rfl⟩

/-- What was encoded begins with a slash only if the text did. -/
theorem head_encode (h : cs.head? ≠ some '/') (also : List Char) :
    (encode also cs).toList.head? ≠ some '/' := by
  rw [encode, String.toList_ofList]
  cases cs with
  | nil =>
    intro heq
    cases heq
  | cons c r =>
    obtain ⟨x, t, hxt, hx⟩ := exists_percentEncode_eq_cons
      (fun c => !isControl c && !also.contains c) c r
    rw [hxt, List.head?_cons]
    rintro ⟨⟩
    rcases hx with rfl | hx
    · exact h rfl
    · cases hx

theorem isBody_of_parseBody (hcs : '#' ∉ cs ∧ '?' ∉ cs)
    (h : parseBody scheme cs = .ok (authority, path)) : IsBody scheme authority path := by
  unfold parseBody at h
  split at h <;> rename_i hfile
  · obtain ⟨⟨a, p⟩, hparse, h⟩ := bind_eq_ok.1 h
    cases h
    exact hfile ▸ isBody_of_parseFile hparse
  · split at h <;> rename_i hspecial
    · obtain ⟨⟨a, p⟩, hparse, h⟩ := bind_eq_ok.1 h
      cases h
      obtain ⟨hnormal, r, rfl⟩ := of_parseAuthority hparse
      rw [hspecial]
      exact .special hspecial hfile hnormal (fun s => isSegment_of_mem_segmentsOf)
        (segmentsOf_ne_nil r)
    · rw [Bool.not_eq_true] at hspecial
      split at h
      · obtain ⟨⟨a, p⟩, hparse, h⟩ := bind_eq_ok.1 h
        cases h
        obtain ⟨hnormal, r, rfl⟩ := of_parseAuthority hparse
        rw [hspecial]
        exact .other hspecial hnormal fun s => isSegment_of_mem_segmentsOf
      · cases h
        exact .rooted hspecial (fun s => isSegment_of_mem_segmentsOf)
          (segmentsOf_cons_ne_nil false _ _)
      · cases h
        rename_i hroot
        refine .whole hspecial (fun c hc => ?_) (head_encode (fun hhead => ?_) [])
        · rw [encode, String.toList_ofList] at hc
          refine Text.of_mem_percentEncode (P := fun c => isControl c = false ∧ c ≠ '#' ∧ c ≠ '?')
            (fun c hc hkeep => ⟨by simpa using hkeep, ?_⟩) (by decide) (by decide) hc
          exact ⟨ne_of_mem_of_not_mem hc hcs.1, ne_of_mem_of_not_mem hc hcs.2⟩
        · obtain ⟨r, rfl⟩ := List.head?_eq_some_iff.1 hhead
          exact hroot r rfl

theorem isSlash_of_isChar (special : Bool) (h : Authority.IsChar c) :
    isSlash special c = false := by
  have h := h.2.2
  simp only [List.mem_cons, not_or] at h
  simp [isSlash, h]

/-- A path begins at the first slash. -/
theorem span_slash (hcs : ∀ c ∈ cs, isSlash special c = false) (hr : ∀ c ∈ r.head?, c = '/') :
    (cs ++ r).takeWhile (fun c => !isSlash special c) = cs ∧
      (cs ++ r).dropWhile (fun c => !isSlash special c) = r := by
  have hall : ∀ c ∈ cs, (!isSlash special c) = true := fun c hc => by simp [hcs c hc]
  rw [List.takeWhile_append_of_pos hall, List.dropWhile_append_of_pos hall]
  cases r with
  | nil => simp
  | cons c r =>
    obtain rfl := hr c rfl
    simp [isSlash]

theorem parseAuthority_text (h : a.Normal scheme)
    (hnames : ∀ s ∈ names, IsSegment (isSpecial scheme) s)
    (hne : isSpecial scheme = true → names ≠ []) :
    parseAuthority scheme (a.userText.toList ++ a.hostText.toList ++
      (Path.segments names).text.toList) = .ok (a, .segments names) := by
  have hchars : ∀ c ∈ a.userText.toList ++ a.hostText.toList,
      isSlash (isSpecial scheme) c = false := by
    intro c hc
    rcases List.mem_append.1 hc with hc | hc
    · exact isSlash_of_isChar _ (Authority.isChar_of_mem_userText h hc)
    · exact isSlash_of_isChar _ (Authority.isChar_of_mem_hostText h.host hc).1
  obtain ⟨htake, hdrop⟩ := span_slash hchars (Path.head_text names)
  simp only [parseAuthority, htake, hdrop, Authority.parse_text h, segmentsOf_text hne hnames]
  rfl

/-- The text between the scheme and the query. -/
def bodyText (u : Url) : String :=
  (match u.authority with | some a => a.text | none => "") ++ u.guardText ++ u.path.text

theorem parseFile_text {host : Host}
    (hhost : host = .name "" ∨ host.Normal true ∧ host ≠ .name "localhost")
    (hnames : ∀ s ∈ names, IsSegment true s) (hne : names ≠ []) (hsingle : ¬Doubled names) :
    parseFile ('/' :: '/' :: (host.text.toList ++ (Path.segments names).text.toList)) =
      .ok (⟨"", none, host, none⟩, .segments names) := by
  have hchars : ∀ c ∈ host.text.toList, isSlash true c = false := by
    intro c hc
    rcases hhost with rfl | ⟨hnormal, -⟩
    · cases hc
    · exact isSlash_of_isChar _ (Authority.isChar_of_mem_host hnormal hc).1
  obtain ⟨htake, hdropWhile⟩ := span_slash hchars (Path.head_text names)
  have hpath := segmentsOf_text (fun _ => hne) hnames
  have hslash : (isSlash true '/' && isSlash true '/') = true := rfl
  simp only [parseFile, htake, hdropWhile, hpath, hslash,
    dropEmpty_of_not_doubled hsingle, if_true]
  rcases hhost with rfl | ⟨hnormal, hlocal⟩
  · rfl
  · have hnil : ¬host.text.toList.isEmpty := by
      rw [List.isEmpty_iff, Host.text_eq_nil_iff]
      exact hnormal.ne_empty rfl
    rw [if_neg hnil, Host.parse_text hnormal]
    simp only [bind, Except.bind, if_neg hlocal]
    rfl

theorem isSlash_of_head_authority (h : a.Normal scheme) (hspecial : isSpecial scheme = true) :
    ∃ c r, a.userText.toList ++ a.hostText.toList = c :: r ∧ isSlash true c = false := by
  have hhost : a.host.text.toList ≠ [] := by
    rw [ne_eq, Host.text_eq_nil_iff]
    exact h.host.ne_empty hspecial
  have hne : a.userText.toList ++ a.hostText.toList ≠ [] := by
    simp [Authority.toList_hostText, hhost]
  obtain ⟨c, r, hcr⟩ := List.exists_cons_of_ne_nil hne
  refine ⟨c, r, hcr, isSlash_of_isChar true ?_⟩
  have hc : c ∈ a.userText.toList ++ a.hostText.toList := hcr ▸ List.mem_cons_self
  rcases List.mem_append.1 hc with hc | hc
  · exact Authority.isChar_of_mem_userText h hc
  · exact (Authority.isChar_of_mem_hostText h.host hc).1

theorem toList_bodyText_some (scheme : String) (a : Authority) (names : List String)
    (query fragment : Option String) :
    (bodyText ⟨scheme, some a, .segments names, query, fragment⟩).toList = '/' :: '/' ::
      (a.userText.toList ++ a.hostText.toList ++ (Path.segments names).text.toList) := by
  simp [bodyText, guardText, Authority.toList_text]

theorem toList_bodyText_doubled (h : Doubled names) (scheme : String)
    (query fragment : Option String) :
    (bodyText ⟨scheme, none, .segments names, query, fragment⟩).toList =
      '/' :: '.' :: (Path.segments names).text.toList := by
  obtain ⟨s, r, rfl⟩ := h
  simp [bodyText, guardText]

theorem toList_bodyText_single (h : ¬Doubled names) (scheme : String)
    (query fragment : Option String) :
    (bodyText ⟨scheme, none, .segments names, query, fragment⟩).toList =
      (Path.segments names).text.toList := by
  have hnone : guardText ⟨scheme, none, .segments names, query, fragment⟩ = "" := by
    unfold guardText
    split
    · rename_i s r _ hpath
      exact absurd ⟨s, r, Path.segments.inj hpath⟩ h
    · rfl
  simp [bodyText, hnone]

theorem toList_bodyText_whole (scheme s : String) (query fragment : Option String) :
    (bodyText ⟨scheme, none, .whole s, query, fragment⟩).toList = s.toList := by
  simp [bodyText, guardText, Path.text]

/-- Without the guard, what is behind the first slash of a path begins with no other. -/
theorem head_intercalate (hsingle : ¬Doubled (s :: names))
    (h : ∀ s' ∈ s :: names, ∀ c ∈ s'.toList, isSlash false c = false) :
    (['/'].intercalate ((s :: names).map String.toList)).head? ≠ some '/' := by
  have hhead : s.toList.head? ≠ some '/' := fun heq =>
    absurd (h s List.mem_cons_self _ (List.mem_of_mem_head? heq)) (by decide)
  cases names with
  | nil => simpa using hhead
  | cons s' names =>
    have hne : s ≠ "" := by
      rintro rfl
      exact hsingle ⟨s', names, rfl⟩
    obtain ⟨c, r, hcr⟩ := List.exists_cons_of_ne_nil (mt String.toList_eq_nil_iff.1 hne)
    rw [List.map_cons, List.map_cons, List.intercalate_cons_cons, hcr]
    rw [hcr] at hhead
    exact hhead

theorem parseBody_slash (special : isSpecial scheme = false) (h : r.head? ≠ some '/') :
    parseBody scheme ('/' :: r) = .ok (none, .segments (segmentsOf false ('/' :: r))) := by
  have hfile : scheme ≠ "file" := by
    rintro rfl
    cases special
  rw [parseBody, if_neg hfile, if_neg (by simp [special])]
  · rfl
  · rintro r' hr
    exact h (by rw [hr]; rfl)

/-- A path without an authority is read back unless its text begins with two slashes. -/
theorem parseBody_rooted (special : isSpecial scheme = false)
    (h : ∀ s ∈ names, IsSegment false s) (hne : names ≠ []) (hsingle : ¬Doubled names) :
    parseBody scheme (Path.segments names).text.toList = .ok (none, .segments names) := by
  obtain ⟨s, names, rfl⟩ := List.exists_cons_of_ne_nil hne
  have hhead := head_intercalate hsingle fun s hs c hc => ((h s hs).chars c hc).2
  rw [Path.toList_text_cons, parseBody_slash special hhead, ← Path.toList_text_cons,
    segmentsOf_text (fun _ => hne) h]

/-- With a dot before it every path without an authority is read back. -/
theorem parseBody_guarded (special : isSpecial scheme = false)
    (h : ∀ s ∈ names, IsSegment false s) (hne : names ≠ []) :
    parseBody scheme ('/' :: '.' :: (Path.segments names).text.toList) =
      .ok (none, .segments names) := by
  rw [parseBody_slash special (by simp), segmentsOf_guarded hne h]

/-- What stands between the scheme and the query is read back. -/
theorem parseBody_text (h : IsBody u.scheme u.authority u.path) :
    parseBody u.scheme u.bodyText.toList = .ok (u.authority, u.path) := by
  obtain ⟨scheme, authority, path, query, fragment⟩ := u
  have hfile : isSpecial scheme = false → scheme ≠ "file" := by
    rintro hspecial rfl
    cases hspecial
  simp only at h
  cases h with
  | @file host names known segments ne single =>
    have htext : Authority.userText ⟨"", none, host, none⟩ = "" := rfl
    rw [toList_bodyText_some, htext, parseBody, if_pos rfl]
    exact congrArg (· >>= fun p => pure (Prod.map some id p))
      (parseFile_text known segments ne single)
  | @special _ a names special file normal segments ne =>
    obtain ⟨c, r, hcr, hc⟩ := isSlash_of_head_authority normal special
    have hdrop : ('/' :: '/' :: (a.userText.toList ++ a.hostText.toList ++
        (Path.segments names).text.toList)).dropWhile (isSlash true) =
        a.userText.toList ++ a.hostText.toList ++ (Path.segments names).text.toList := by
      rw [hcr, List.cons_append, List.dropWhile_cons_of_pos rfl, List.dropWhile_cons_of_pos rfl,
        List.dropWhile_cons_of_neg (by simp [hc])]
    rw [toList_bodyText_some, parseBody, if_neg file, if_pos special, hdrop,
      parseAuthority_text normal (special ▸ segments) fun _ => ne]
    rfl
  | @other _ a names special normal segments =>
    rw [toList_bodyText_some, parseBody, if_neg (hfile special), if_neg (by simp [special])]
    simp only
    rw [parseAuthority_text normal (special ▸ segments) fun h =>
      absurd (special.symm.trans h) (by decide)]
    rfl
  | @rooted _ names special segments ne =>
    by_cases hdoubled : Doubled names
    · rw [toList_bodyText_doubled hdoubled, parseBody_guarded special segments ne]
    · rw [toList_bodyText_single hdoubled, parseBody_rooted special segments ne hdoubled]
  | @whole _ s special chars slash =>
    have hroot : ∀ r, s.toList ≠ '/' :: r := by
      intro r hr
      exact slash (by rw [hr]; rfl)
    rw [toList_bodyText_whole, parseBody, if_neg (hfile special), if_neg (by simp [special]),
      encode_of_forall fun c hc => ⟨(chars c hc).1, List.not_mem_nil⟩]
    · rfl
    · exact fun r => hroot ('/' :: r)
    · exact hroot

end Outbox.Url

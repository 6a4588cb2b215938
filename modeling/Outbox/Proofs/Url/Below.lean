import Outbox.Proofs.Url.ReadBack
import Mathlib.Data.List.DropRight

/-!
# Segments behind the text of an address

Slashes at the end of an address are cut off and segments are written behind it. What is read then
lies below the path of the address (`parse_below`), unless the address ends in a query or a
fragment, which take the segments (`parse_query`, `parse_fragment`). The texts differ from those of
addresses in normal form where nothing but slashes stood behind the scheme.
-/

namespace Outbox.Url

variable {scheme m : String} {names more : List String} {cs r : List Char} {u : Url}

/-! ### Slashes at the end -/

/-- A text without the slashes at its end. -/
def dropSlashes (cs : List Char) : List Char := cs.rdropWhile (· = '/')

theorem dropSlashes_append (cs r : List Char) : dropSlashes (cs ++ r) =
    if dropSlashes r = [] then dropSlashes cs else cs ++ dropSlashes r := by
  simp only [dropSlashes, List.rdropWhile, List.reverse_append, List.dropWhile_append,
    List.isEmpty_iff, List.reverse_eq_nil_iff]
  split <;> simp

theorem dropSlashes_of_getLast (h : cs.getLast? ≠ some '/') : dropSlashes cs = cs := by
  refine List.rdropWhile_eq_self_iff.2 fun hne hlast => h ?_
  rw [List.getLast?_eq_getLast_of_ne_nil hne]
  simpa using hlast

theorem dropSlashes_append_of_getLast (h : cs.getLast? ≠ some '/') (r : List Char) :
    dropSlashes (cs ++ r) = cs ++ dropSlashes r := by
  rw [dropSlashes_append]
  split <;> rename_i hr
  · rw [dropSlashes_of_getLast h, hr, List.append_nil]
  · rfl

theorem dropSlashes_subset (cs : List Char) : dropSlashes cs ⊆ cs :=
  (List.rdropWhile_prefix _ cs).subset

/-- Where no slash is the first character, the first character stays. -/
theorem exists_dropSlashes_eq_cons (hne : cs ≠ []) (h : cs.head? ≠ some '/') :
    ∃ c r, dropSlashes cs = c :: r ∧ c ≠ '/' := by
  obtain ⟨c, r, rfl⟩ := List.exists_cons_of_ne_nil hne
  have hc : c ≠ '/' := fun heq => h (congrArg some heq)
  have hlast : [c].getLast? ≠ some '/' := fun heq => hc (Option.some.inj heq)
  exact ⟨c, dropSlashes r, dropSlashes_append_of_getLast hlast r, hc⟩

/-- A segment that can stand behind any address. -/
theorem IsSegment.mono {s : String} (h : IsSegment true s) (special : Bool) :
    IsSegment special s := by
  refine ⟨fun c hc => ⟨(h.chars c hc).1, ?_⟩, h.dots⟩
  have hslash := (h.chars c hc).2
  cases special with
  | true => exact hslash
  | false =>
    simp only [isSlash, Bool.true_and, Bool.or_eq_false_iff] at hslash
    simp [isSlash, hslash.1]

theorem Path.toList_text_append (names more : List String) :
    (Path.segments (names ++ more)).text.toList =
      (Path.segments names).text.toList ++ (Path.segments more).text.toList := by
  simp [Path.text]

/-- Segments without the empty ones at the end. -/
def trimNames (names : List String) : List String := names.rdropWhile (· = "")

theorem trimNames_eq (names : List String) (s : String) :
    trimNames (names ++ [s]) = if s = "" then trimNames names else names ++ [s] := by
  simp [trimNames, List.rdropWhile_concat]

theorem trimNames_subset (names : List String) : trimNames names ⊆ names :=
  (List.rdropWhile_prefix _ names).subset

theorem toList_text_trimNames {special : Bool} (h : ∀ s ∈ names, IsSegment special s) :
    (Path.segments (trimNames names)).text.toList =
      dropSlashes (Path.segments names).text.toList := by
  induction names using List.reverseRecOn with
  | nil => rfl
  | append_singleton names s ih =>
    have hone : (Path.segments [s]).text.toList = '/' :: s.toList := by simp [Path.text]
    rw [Path.toList_text_append, hone, trimNames_eq]
    by_cases hs : s = ""
    · subst hs
      have hslash : dropSlashes ('/' :: "".toList) = [] := by decide
      rw [if_pos rfl, dropSlashes_append, if_pos hslash]
      exact ih fun s hs => h s (List.mem_append_left _ hs)
    · have hlast : ((Path.segments names).text.toList ++ '/' :: s.toList).getLast? ≠ some '/' := by
        obtain ⟨c, r, hcr⟩ := List.exists_cons_of_ne_nil (mt String.toList_eq_nil_iff.1 hs)
        rw [hcr, List.getLast?_append_cons, List.getLast?_cons_cons, ← hcr]
        intro hlast
        have hslash := ((h s (by simp)).chars _ (List.mem_of_mem_getLast? hlast)).2
        simp [isSlash] at hslash
      rw [if_neg hs, dropSlashes_of_getLast hlast, Path.toList_text_append, hone]

/-! ### Paths -/

/-- The host of an address; an empty name is none. -/
def Authority.named? (a : Authority) : Option Host :=
  if a.host = .name "" then none else some a.host

theorem not_doubled_append (hm : m ≠ "") (h : ¬Doubled names) :
    ¬Doubled (trimNames names ++ m :: more) := by
  rintro ⟨s, r, heq⟩
  obtain ⟨back, hback⟩ := List.rdropWhile_prefix (fun s : String => s = "") names
  rw [trimNames] at heq
  cases hfront : names.rdropWhile fun s => s = "" with
  | nil =>
    rw [hfront] at heq
    exact hm (List.cons.inj heq).1
  | cons x front =>
    rw [hfront] at heq hback
    obtain rfl : x = "" := (List.cons.inj heq).1
    cases names with
    | nil => cases hback
    | cons y names =>
      obtain ⟨rfl, hnames⟩ := List.cons.inj hback
      cases names with
      | nil => simp [List.rdropWhile] at hfront
      | cons z names => exact h ⟨z, names, rfl⟩

namespace IsBody
variable {a : Authority} {path : Path}

/-- Without a host there is nothing else, and the scheme is a file or has no usual port. -/
theorem bare (h : IsBody scheme (some a) path) (hhost : a.host = .name "") :
    a = ⟨"", none, .name "", none⟩ ∧ (scheme = "file" ∨ isSpecial scheme = false) := by
  cases h with
  | file known segments ne single =>
    simp only at hhost
    rw [hhost]
    exact ⟨rfl, .inl rfl⟩
  | special special file normal segments ne =>
    exact absurd hhost (normal.host.ne_empty special)
  | other special normal segments =>
    obtain ⟨hname, hpassword, hport⟩ := normal.bare hhost
    obtain ⟨username, password, host, port⟩ := a
    simp only at hname hpassword hhost hport
    exact ⟨by rw [hname, hpassword, hhost, hport], .inr special⟩

/-- The text of an authority with a host does not end in a slash. -/
theorem getLast_authority (h : IsBody scheme (some a) path) (hhost : a.host ≠ .name "") :
    ('/' :: '/' :: (a.userText.toList ++ a.hostText.toList)).getLast? ≠ some '/' := by
  obtain ⟨special, hnormal⟩ : ∃ special, a.host.Normal special := by
    cases h with
    | file known segments ne single => exact ⟨true, (known.resolve_left hhost).1⟩
    | special special file normal segments ne => exact ⟨_, normal.host⟩
    | other special normal segments => exact ⟨_, normal.host⟩
  have hne : a.hostText.toList ≠ [] := by
    have htext := mt Host.text_eq_nil_iff.1 hhost
    simp [Authority.toList_hostText, htext]
  intro hlast
  have hmem : '/' ∈ a.hostText.toList := by
    obtain ⟨c, r, hcr⟩ := List.exists_cons_of_ne_nil hne
    rw [hcr, ← List.cons_append, ← List.cons_append, List.getLast?_append_cons, ← hcr] at hlast
    exact List.mem_of_mem_getLast? hlast
  exact absurd (Authority.isChar_of_mem_hostText hnormal hmem).1 (by decide)

end IsBody

section
variable (hm : m ≠ "") (hmore : ∀ s ∈ m :: more, IsSegment true s)
include hmore

theorem isSegment_append {special : Bool} (h : ∀ s ∈ names, IsSegment special s) :
    ∀ s ∈ trimNames names ++ m :: more, IsSegment special s := by
  intro s hs
  rcases List.mem_append.1 hs with hs | hs
  · exact h s (trimNames_subset names hs)
  · exact (hmore s hs).mono special

include hm

theorem isBody_append {a : Authority} (h : IsBody scheme (some a) (.segments names)) :
    IsBody scheme (some a) (.segments (trimNames names ++ m :: more)) := by
  have hne : trimNames names ++ m :: more ≠ [] := by simp
  cases h with
  | file known segments ne single =>
    exact .file known (isSegment_append hmore segments) hne (not_doubled_append hm single)
  | special special file normal segments ne =>
    exact .special special file normal (isSegment_append hmore segments) hne
  | other special normal segments =>
    exact .other special normal (isSegment_append hmore segments)

/-- Behind the scheme alone the segments are all of the path. -/
theorem parseBody_segments (h : scheme = "file" ∨ isSpecial scheme = false) :
    ∃ authority, parseBody scheme (Path.segments (m :: more)).text.toList =
        .ok (authority, .segments (m :: more)) ∧ authority.bind Authority.named? = none ∧
      authority.bind Authority.port = none := by
  have hsingle : ¬Doubled (m :: more) := by
    rintro ⟨s, r, heq⟩
    exact hm (List.cons.inj heq).1
  rcases h with rfl | hspecial
  · refine ⟨some ⟨"", none, .name "", none⟩, ?_, rfl, rfl⟩
    have hpath := segmentsOf_text (fun _ => List.cons_ne_nil m more) hmore
    obtain ⟨c, r, hcr⟩ := List.exists_cons_of_ne_nil (mt String.toList_eq_nil_iff.1 hm)
    obtain ⟨r', hr'⟩ : ∃ r', (Path.segments (m :: more)).text.toList = '/' :: c :: r' := by
      simp [Path.text, hcr]
    have hslash : isSlash true c = false :=
      ((hmore m List.mem_cons_self).chars c (hcr ▸ List.mem_cons_self)).2
    have hroot : isSlash true '/' = true := rfl
    rw [hr'] at hpath ⊢
    simp only [parseBody, parseFile, hslash, hroot, hpath, dropEmpty_of_not_doubled hsingle,
      Bool.and_false, if_true]
    rfl
  · exact ⟨none, parseBody_rooted hspecial (fun s hs => (hmore s hs).mono false)
      (List.cons_ne_nil _ _) hsingle, rfl, rfl⟩

end

theorem toList_text_below {special : Bool} (h : ∀ s ∈ names, IsSegment special s)
    (more : List String) : (Path.segments (trimNames names ++ more)).text.toList =
      dropSlashes (Path.segments names).text.toList ++ (Path.segments more).text.toList := by
  rw [Path.toList_text_append, toList_text_trimNames h]

/-- What is read when a text is written behind the body of an address lies below its path, and
belongs to the same host. -/
def ReadsBelow (u : Url) (behind : List Char) : Prop :=
  ∃ authority path,
    parseBody u.scheme (dropSlashes u.bodyText.toList ++ behind) = .ok (authority, path) ∧
    path.text.toList = dropSlashes u.path.text.toList ++ behind ∧
    authority.bind Authority.named? = u.authority.bind Authority.named? ∧
    authority.bind Authority.port = u.authority.bind Authority.port

section
variable (hm : m ≠ "") (hmore : ∀ s ∈ m :: more, IsSegment true s)
  {query fragment : Option String}
include hm hmore

theorem readsBelow_authority {a : Authority} {special : Bool}
    (h : IsBody scheme (some a) (.segments names)) (segments : ∀ s ∈ names, IsSegment special s) :
    ReadsBelow ⟨scheme, some a, .segments names, query, fragment⟩
      (Path.segments (m :: more)).text.toList := by
  have htext := toList_text_below segments (m :: more)
  have hbelow := parseBody_text
    (u := ⟨scheme, some a, .segments (trimNames names ++ m :: more), query, fragment⟩)
    (isBody_append hm hmore h)
  rw [toList_bodyText_some, htext] at hbelow
  rw [ReadsBelow, toList_bodyText_some, ← List.cons_append, ← List.cons_append]
  by_cases hhost : a.host = .name ""
  · obtain ⟨rfl, hscheme⟩ := h.bare hhost
    rw [dropSlashes_append]
    split <;> rename_i hslashes
    · -- the slashes before the host are among those that are cut off
      obtain ⟨authority, hparse, hnamed, hport⟩ := parseBody_segments hm hmore hscheme
      exact ⟨authority, _, hparse, by rw [hslashes, List.nil_append], hnamed, hport⟩
    · rw [List.append_assoc]
      exact ⟨_, _, hbelow, htext, rfl, rfl⟩
  · rw [dropSlashes_append_of_getLast (h.getLast_authority hhost), List.append_assoc]
    exact ⟨_, _, hbelow, htext, rfl, rfl⟩

theorem readsBelow_rooted (hspecial : isSpecial scheme = false)
    (segments : ∀ s ∈ names, IsSegment false s) :
    ReadsBelow ⟨scheme, none, .segments names, query, fragment⟩
      (Path.segments (m :: more)).text.toList := by
  have htext := toList_text_below segments (m :: more)
  have hall := isSegment_append hmore segments
  have hne : trimNames names ++ m :: more ≠ [] := by simp
  refine ⟨none, .segments (trimNames names ++ m :: more), ?_, htext, rfl, rfl⟩
  by_cases hdoubled : Doubled names
  · have hguard : dropSlashes ('/' :: '.' :: (Path.segments names).text.toList) =
        '/' :: '.' :: dropSlashes (Path.segments names).text.toList :=
      dropSlashes_append_of_getLast (show ['/', '.'].getLast? ≠ some '/' by decide) _
    rw [toList_bodyText_doubled hdoubled, hguard, List.cons_append, List.cons_append, ← htext]
    exact parseBody_guarded hspecial hall hne
  · rw [toList_bodyText_single hdoubled, ← htext]
    exact parseBody_rooted hspecial hall hne (not_doubled_append hm hdoubled)

theorem readsBelow_whole {s : String} (h : IsBody scheme none (.whole s)) :
    ReadsBelow ⟨scheme, none, .whole s, query, fragment⟩
      (Path.segments (m :: more)).text.toList := by
  obtain ⟨special, chars, slash⟩ : isSpecial scheme = false ∧
      (∀ c ∈ s.toList, isControl c = false ∧ c ≠ '#' ∧ c ≠ '?') ∧ s.toList.head? ≠ some '/' := by
    cases h with
    | whole special chars slash => exact ⟨special, chars, slash⟩
  rw [ReadsBelow, toList_bodyText_whole]
  by_cases hs : s = ""
  · subst hs
    obtain ⟨authority, hparse, hnamed, hport⟩ := parseBody_segments hm hmore (.inr special)
    exact ⟨authority, _, hparse, rfl, hnamed, hport⟩
  · obtain ⟨c, r, hcr, hc⟩ := exists_dropSlashes_eq_cons (mt String.toList_eq_nil_iff.1 hs) slash
    have hbody : IsBody scheme none (.whole (String.ofList (dropSlashes s.toList ++
        (Path.segments (m :: more)).text.toList))) := by
      refine .whole special (fun x hx => ?_) ?_
      · rw [String.toList_ofList] at hx
        rcases List.mem_append.1 hx with hx | hx
        · exact chars x (dropSlashes_subset _ hx)
        · exact (isBodyChar_of_mem_names hmore hx).1
      · rw [String.toList_ofList, hcr]
        exact fun heq => hc (Option.some.inj heq)
    have hbelow := parseBody_text (u := ⟨scheme, none, _, query, fragment⟩) hbody
    rw [toList_bodyText_whole, String.toList_ofList] at hbelow
    exact ⟨none, _, hbelow, by simp [Path.text], rfl, rfl⟩

theorem parseBody_below (h : IsBody u.scheme u.authority u.path) :
    ReadsBelow u (Path.segments (m :: more)).text.toList := by
  obtain ⟨scheme, authority, path, query, fragment⟩ := u
  simp only at h
  cases h with
  | file known segments ne single =>
    exact readsBelow_authority hm hmore (.file known segments ne single) segments
  | special special file normal segments ne =>
    exact readsBelow_authority hm hmore (.special special file normal segments ne) segments
  | other special normal segments =>
    exact readsBelow_authority hm hmore (.other special normal segments) segments
  | rooted special segments ne => exact readsBelow_rooted hm hmore special segments
  | whole special chars slash => exact readsBelow_whole hm hmore (.whole special chars slash)

end

/-! ### Addresses -/

/-- The host of an address. -/
def host? (u : Url) : Option Host := u.authority.bind Authority.named?

/-- The port of an address unless it is the usual one. -/
def givenPort? (u : Url) : Option Nat := u.authority.bind Authority.port

/-- Two addresses lie on the same server. -/
structure SameServer (u v : Url) : Prop where
  scheme : u.scheme = v.scheme
  host : u.host? = v.host?
  port : u.givenPort? = v.givenPort?

variable {base : Url} {t : String}

theorem last_kept {also : List Char} (hr : ∀ c ∈ r, IsKept also c) (hspace : ' ' ∈ also)
    (hne : r ≠ []) (cs : List Char) : (cs ++ r).getLast? ≠ some ' ' := fun hlast =>
  hne (last_append hlast fun hmem => (hr _ hmem).2 hspace).1

/-- Without a query and a fragment, segments behind the text of an address lie below its path. -/
theorem parse_below (hbase : base.Normal) (hquery : base.query = none)
    (hfragment : base.fragment = none) (hm : m ≠ "") (hmore : ∀ s ∈ m :: more, IsSegment true s)
    (ht : t.toList = dropSlashes base.text.toList ++ (Path.segments (m :: more)).text.toList) :
    ∃ u, parse t = .ok u ∧ u.SameServer base ∧ u.path.text.toList =
      dropSlashes base.path.text.toList ++ (Path.segments (m :: more)).text.toList := by
  obtain ⟨authority, path, hparse, hpath, hhost, hport⟩ := parseBody_below hm hmore hbase.body
  have htext : base.text.toList = (base.scheme.toList ++ [':']) ++ base.bodyText.toList := by
    simp [toList_text, hquery, hfragment, tailText]
  have hchars : ∀ c ∈ dropSlashes base.bodyText.toList ++ (Path.segments (m :: more)).text.toList,
      IsBodyChar c := by
    intro c hc
    rcases List.mem_append.1 hc with hc | hc
    · exact (of_mem_bodyText hbase.body (dropSlashes_subset _ hc)).1
    · exact (isBodyChar_of_mem_names hmore hc).1
  rw [htext, dropSlashes_append_of_getLast (by rw [List.getLast?_concat]; decide)] at ht
  refine ⟨⟨base.scheme, authority, path, none, none⟩, ?_, ⟨rfl, hhost, hport⟩, hpath⟩
  refine parse_append hbase.scheme hparse hchars (by simp) (by simp)
    (by simpa [tailText] using ht) ?_
  rw [ht]
  intro hlast
  have hnil := (last_append hlast fun hmem => (isBodyChar_of_mem_names hmore hmem).2 rfl).1
  rw [Path.toList_text_cons] at hnil
  cases hnil

/-- What is written behind a query belongs to the query. -/
theorem parse_query {q : String} (hbase : base.Normal) (hquery : base.query = some q)
    (hfragment : base.fragment = none) (hr : ∀ c ∈ r, IsKept (querySet (isSpecial base.scheme)) c)
    (hne : r ≠ []) (ht : t.toList = dropSlashes base.text.toList ++ r) :
    parse t = .ok { base with query := some (String.ofList (dropSlashes q.toList ++ r)) } := by
  have htext : base.text.toList =
      (base.scheme.toList ++ ':' :: base.bodyText.toList ++ ['?']) ++ q.toList := by
    simp [toList_text, hquery, hfragment, tailText]
  rw [htext, dropSlashes_append_of_getLast (by rw [List.getLast?_concat]; decide)] at ht
  rw [hfragment]
  refine parse_append hbase.scheme (parseBody_text hbase.body)
    (fun c hc => (of_mem_bodyText hbase.body hc).1) ?_ (by simp)
    (by simpa [tailText] using ht) ?_
  · rintro _ ⟨⟩ c hc
    rw [String.toList_ofList] at hc
    rcases List.mem_append.1 hc with hc | hc
    · exact hbase.query q hquery c (dropSlashes_subset _ hc)
    · exact hr c hc
  · rw [ht]
    exact last_kept hr (by simp [querySet]) hne _

/-- What is written behind a fragment belongs to the fragment. -/
theorem parse_fragment {f : String} (hbase : base.Normal) (hfragment : base.fragment = some f)
    (hr : ∀ c ∈ r, IsKept fragmentSet c) (hne : r ≠ [])
    (ht : t.toList = dropSlashes base.text.toList ++ r) :
    parse t = .ok { base with fragment := some (String.ofList (dropSlashes f.toList ++ r)) } := by
  have htext : base.text.toList = (base.scheme.toList ++ ':' :: (base.bodyText.toList ++
      (tailText "?" base.query).toList) ++ ['#']) ++ f.toList := by
    simp [toList_text, hfragment, tailText]
  rw [htext, dropSlashes_append_of_getLast (by rw [List.getLast?_concat]; decide)] at ht
  refine parse_append hbase.scheme (parseBody_text hbase.body)
    (fun c hc => (of_mem_bodyText hbase.body hc).1) hbase.query ?_
    (by simpa [tailText] using ht) ?_
  · rintro _ ⟨⟩ c hc
    rw [String.toList_ofList] at hc
    rcases List.mem_append.1 hc with hc | hc
    · exact hbase.fragment f hfragment c (dropSlashes_subset _ hc)
    · exact hr c hc
  · rw [ht]
    exact last_kept hr (by simp [fragmentSet]) hne _

end Outbox.Url

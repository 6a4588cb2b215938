import Outbox.Proofs.Url.Authority

/-!
# Texts of paths

Resolving leaves segments that are encoded and are no dots (`isSegment_of_mem_resolve`), and such
segments are read back from their text (`segmentsOf_text`).
-/

namespace Outbox.Url

variable {special : Bool} {s : String} {names done : List String} {cs r : List Char}
  {ls : List (List Char)} {c : Char}

/-! ### Dots -/

section Dots
variable {keep : Char → Bool}

theorem dots_cons_of_ne (hdot : c ≠ '.') (hsign : c ≠ '%') (r : List Char) :
    dots (c :: r) = none := by
  rw [dots]
  · exact List.cons_ne_nil _ _
  · exact fun _ h => hdot (List.cons.inj h).1
  · exact fun _ _ h => hsign (List.cons.inj h).1

theorem dots_sign_of_ne (h : c ≠ '2') (r : List Char) : dots ('%' :: c :: r) = none := by
  rw [dots]
  · exact List.cons_ne_nil _ _
  · simp
  · exact fun _ _ h' => h (List.cons.inj (List.cons.inj h').2).1

theorem exists_percentEncode_eq_cons (keep : Char → Bool) (c : Char) (r : List Char) :
    ∃ x t, Text.percentEncode keep (c :: r) = x :: t ∧ (x = c ∨ x = '%') := by
  obtain ⟨b, bs, hbs⟩ := List.exists_cons_of_ne_nil (Text.utf8Char_ne_nil c)
  rw [Text.percentEncode_cons]
  split
  · exact ⟨c, _, rfl, .inl rfl⟩
  · rw [hbs]
    exact ⟨'%', _, rfl, .inr rfl⟩

/-- The first byte of a character other than a dot is not written as a dot. -/
theorem dots_percentEncode_of_not_keep (hdot : c ≠ '.') (hkeep : ¬keep c) (r : List Char) :
    dots (Text.percentEncode keep (c :: r)) = none := by
  obtain ⟨b, bs, hbs⟩ := List.exists_cons_of_ne_nil (Text.utf8Char_ne_nil c)
  have hb : b ≠ 0x2E := by
    rintro rfl
    refine hdot ?_
    rw [← Char.ofNat_toNat c, Text.toNat_of_utf8Char hbs (by decide)]
  have hbyte : ∀ b < 256, b ≠ 0x2E → Text.upperHexDigit (b / 16) = '2' →
      ¬(Text.upperHexDigit (b % 16) = 'e' ∨ Text.upperHexDigit (b % 16) = 'E') := by decide +kernel
  have hlt : b < 256 := Text.lt_of_mem_utf8Char (hbs ▸ List.mem_cons_self)
  rw [Text.percentEncode_cons, if_neg hkeep, hbs, List.flatMap_cons, Text.percentByte]
  by_cases htwo : Text.upperHexDigit (b / 16) = '2'
  · have h := hbyte b hlt hb htwo
    rw [htwo]
    simp only [List.cons_append, List.nil_append, dots, if_neg h]
  · exact dots_sign_of_ne htwo _

theorem dots_sign_percentEncode (htwo : keep '2') (h : ∀ e r, cs ≠ '2' :: e :: r) :
    dots ('%' :: Text.percentEncode keep cs) = none := by
  cases cs with
  | nil => rfl
  | cons x r =>
    by_cases hx : x = '2'
    · subst hx
      cases r with
      | nil =>
        rw [Text.percentEncode_cons, if_pos htwo]
        rfl
      | cons e r => exact absurd rfl (h e r)
    · obtain ⟨y, t, hyt, hy⟩ := exists_percentEncode_eq_cons keep x r
      rw [hyt]
      refine dots_sign_of_ne ?_ t
      rcases hy with rfl | rfl
      · exact hx
      · decide

/-- Encoding neither makes nor hides dots. -/
theorem dots_percentEncode (hdot : keep '.') (hsign : keep '%') (htwo : keep '2') (he : keep 'e')
    (hE : keep 'E') (cs : List Char) : dots (Text.percentEncode keep cs) = dots cs := by
  fun_induction dots cs with
  | case1 => rfl
  | case2 r ih => rw [Text.percentEncode_cons, if_pos hdot, List.singleton_append, dots, ih]
  | case3 e r h ih =>
    have hkeep : keep e := by
      rcases h with rfl | rfl
      · exact he
      · exact hE
    rw [Text.percentEncode_cons, if_pos hsign, List.singleton_append, Text.percentEncode_cons,
      if_pos htwo, List.singleton_append, Text.percentEncode_cons, if_pos hkeep,
      List.singleton_append, dots, if_pos h, ih]
  | case4 e r h =>
    obtain ⟨x, t, hxt, hx⟩ := exists_percentEncode_eq_cons keep e r
    have hne : ¬(x = 'e' ∨ x = 'E') := by
      rcases hx with rfl | rfl
      · exact h
      · decide
    rw [Text.percentEncode_cons, if_pos hsign, List.singleton_append, Text.percentEncode_cons,
      if_pos htwo, List.singleton_append, hxt, dots, if_neg hne]
  | case5 cs hnil hdots hencoded =>
    obtain ⟨c, r, rfl⟩ := List.exists_cons_of_ne_nil hnil
    have hc : c ≠ '.' := fun h => hdots r (h ▸ rfl)
    by_cases hkeep : keep c
    · rw [Text.percentEncode_cons, if_pos hkeep, List.singleton_append]
      by_cases hsign : c = '%'
      · subst hsign
        exact dots_sign_percentEncode htwo fun e r h => hencoded e r (by rw [h])
      · exact dots_cons_of_ne hc hsign _
    · exact dots_percentEncode_of_not_keep hc hkeep r

end Dots

/-! ### Segments -/

/-- A segment in the form in which it is read: encoded, without slashes, and neither one dot nor
two. -/
structure IsSegment (special : Bool) (s : String) : Prop where
  chars : ∀ c ∈ s.toList, IsKept pathSet c ∧ isSlash special c = false
  dots : dots s.toList ≠ some 1 ∧ dots s.toList ≠ some 2

theorem isSegment_empty (special : Bool) : IsSegment special "" :=
  ⟨fun _ h => absurd h List.not_mem_nil, by decide⟩

theorem isSegment_encode (hcs : ∀ c ∈ cs, isSlash special c = false)
    (hdots : dots cs ≠ some 1 ∧ dots cs ≠ some 2) : IsSegment special (encode pathSet cs) := by
  refine ⟨fun c hc => ⟨isKept_of_mem_encode isEncodeSet_pathSet hc, ?_⟩, ?_⟩
  · rw [encode, String.toList_ofList] at hc
    exact Text.of_mem_percentEncode (P := (isSlash special · = false)) (fun c hc _ => hcs c hc)
      (by cases special <;> decide) (by cases special <;> decide) hc
  · rw [encode, String.toList_ofList, dots_percentEncode (by decide) (by decide) (by decide)
      (by decide) (by decide)]
    exact hdots

/-- Nothing is left of dots, and everything else is encoded. -/
theorem isSegment_of_mem_resolve (hdone : ∀ s ∈ done, IsSegment special s)
    (hls : ∀ l ∈ ls, ∀ c ∈ l, isSlash special c = false) (hs : s ∈ resolve done ls) :
    IsSegment special s := by
  have hclose : ∀ (b : Bool) (done : List String), (∀ s ∈ done, IsSegment special s) →
      ∀ s ∈ (if b then "" :: done else done), IsSegment special s := by
    intro b done hdone
    cases b with
    | false => exact hdone
    | true => exact List.forall_mem_cons.2 ⟨isSegment_empty special, hdone⟩
  induction ls generalizing done with
  | nil => exact hdone s (List.mem_reverse.1 hs)
  | cons l ls ih =>
    obtain ⟨hl, hls⟩ := List.forall_mem_cons.1 hls
    rw [resolve] at hs
    split at hs
    · exact ih (hclose _ _ hdone) hls hs
    · exact ih (hclose _ _ fun s hs => hdone s (List.mem_of_mem_tail hs)) hls hs
    · rename_i hone htwo
      exact ih (List.forall_mem_cons.2 ⟨isSegment_encode hl ⟨hone, htwo⟩, hdone⟩) hls hs

theorem resolve_ne_nil (h : ls ≠ [] ∨ done ≠ []) : resolve done ls ≠ [] := by
  induction ls generalizing done with
  | nil => simpa [resolve] using h
  | cons l ls ih =>
    -- dots that come last leave an empty segment behind
    have hclose : ∀ done : List String,
        ls ≠ [] ∨ (if ls.isEmpty then "" :: done else done) ≠ [] := by
      intro done
      cases ls with
      | nil => exact .inr (List.cons_ne_nil _ _)
      | cons l' ls => exact .inl (List.cons_ne_nil _ _)
    rw [resolve]
    split
    · exact ih (hclose done)
    · exact ih (hclose done.tail)
    · exact ih (.inr (List.cons_ne_nil _ _))

/-- Segments that were resolved are not changed. -/
theorem resolve_map (h : ∀ s ∈ names, IsSegment special s) (done : List String) :
    resolve done (names.map String.toList) = done.reverse ++ names := by
  induction names generalizing done with
  | nil => simp [resolve]
  | cons s names ih =>
    obtain ⟨hs, hnames⟩ := List.forall_mem_cons.1 h
    rw [List.map_cons, resolve]
    split
    · exact absurd ‹_› hs.dots.1
    · exact absurd ‹_› hs.dots.2
    · rw [ih hnames, encode_of_forall fun c hc => (hs.chars c hc).1]
      simp

theorem isSlash_eq_false_of_mem_splitSlashes {l : List Char} (hl : l ∈ splitSlashes special cs)
    (hc : c ∈ l) : isSlash special c = false := by
  obtain ⟨hmem, hne⟩ := Text.of_mem_splitOn hl hc
  obtain ⟨x, -, rfl⟩ := List.mem_map.1 hmem
  split at hne <;> rename_i hx
  · exact absurd rfl hne
  · rw [if_neg hx]
    simpa using hx

theorem splitSlashes_ne_nil (special : Bool) (cs : List Char) : splitSlashes special cs ≠ [] :=
  List.splitOnP_ne_nil _ _

theorem splitSlashes_intercalate (hne : ls ≠ [])
    (h : ∀ l ∈ ls, ∀ c ∈ l, isSlash special c = false) :
    splitSlashes special (['/'].intercalate ls) = ls := by
  have hplain : ∀ c ∈ ['/'].intercalate ls, (if isSlash special c then '/' else c) = c := by
    intro c hc
    refine Text.of_mem_intercalate (P := fun c => (if isSlash special c then '/' else c) = c)
      (by simp) (fun l hl x hx => ?_) hc
    simp [h l hl x hx]
  rw [splitSlashes, (List.map_congr_left hplain).trans (List.map_id _), List.splitOn_intercalate]
  · intro l hl hmem
    have hslash := h l hl _ hmem
    simp [isSlash] at hslash
  · exact hne

theorem isSlash_of_mem_map (h : ∀ s ∈ names, IsSegment special s) :
    ∀ l ∈ names.map String.toList, ∀ c ∈ l, isSlash special c = false := by
  intro l hl c hc
  obtain ⟨s, hs, rfl⟩ := List.mem_map.1 hl
  exact ((h s hs).chars c hc).2

/-! ### Paths -/

theorem isSegment_of_mem_segmentsOf (hs : s ∈ segmentsOf special cs) : IsSegment special s := by
  cases cs with
  | nil =>
    cases special with
    | true => exact List.mem_singleton.1 hs ▸ isSegment_empty true
    | false => cases hs
  | cons c cs =>
    exact isSegment_of_mem_resolve (fun _ h => absurd h List.not_mem_nil)
      (fun l hl c hc => isSlash_eq_false_of_mem_splitSlashes hl hc) hs

theorem segmentsOf_cons_ne_nil (special : Bool) (c : Char) (cs : List Char) :
    segmentsOf special (c :: cs) ≠ [] := resolve_ne_nil (.inl (splitSlashes_ne_nil special cs))

theorem segmentsOf_ne_nil (cs : List Char) : segmentsOf true cs ≠ [] := by
  cases cs with
  | nil => exact List.cons_ne_nil _ _
  | cons c cs => exact segmentsOf_cons_ne_nil true c cs

theorem Path.toList_text_cons (s : String) (names : List String) :
    (Path.segments (s :: names)).text.toList =
      '/' :: ['/'].intercalate ((s :: names).map String.toList) := by
  induction names generalizing s with
  | nil => simp [Path.text]
  | cons s' names ih =>
    have htext : (Path.segments (s :: s' :: names)).text.toList =
        '/' :: (s.toList ++ (Path.segments (s' :: names)).text.toList) := by
      simp [Path.text]
    simp [htext, ih]

/-- The text of segments is read back. -/
theorem segmentsOf_text (hne : special = true → names ≠ []) (h : ∀ s ∈ names, IsSegment special s) :
    segmentsOf special (Path.segments names).text.toList = names := by
  cases names with
  | nil =>
    cases special with
    | true => exact absurd rfl (hne rfl)
    | false => rfl
  | cons s names =>
    have hsplit := splitSlashes_intercalate (by simp) (isSlash_of_mem_map h)
    rw [Path.toList_text_cons, segmentsOf, hsplit, resolve_map h, List.reverse_nil,
      List.nil_append]

/-- A dot before the path is resolved. -/
theorem segmentsOf_guarded (hne : names ≠ []) (h : ∀ s ∈ names, IsSegment special s) :
    segmentsOf special ('/' :: '.' :: (Path.segments names).text.toList) = names := by
  cases names with
  | nil => exact absurd rfl hne
  | cons s names =>
    have hdot : ∀ c ∈ ['.'], isSlash special c = false :=
      List.forall_mem_singleton.2 (by cases special <;> rfl)
    have hsplit := splitSlashes_intercalate (List.cons_ne_nil ['.'] _)
      (List.forall_mem_cons.2 ⟨hdot, isSlash_of_mem_map h⟩)
    rw [List.map_cons, List.intercalate_cons_cons] at hsplit
    rw [Path.toList_text_cons, segmentsOf]
    have happend : '.' :: '/' :: ['/'].intercalate ((s :: names).map String.toList) =
        ['.'] ++ ['/'] ++ ['/'].intercalate (s.toList :: names.map String.toList) := rfl
    rw [happend, hsplit, resolve]
    exact resolve_map h []

theorem Path.head_text (names : List String) :
    ∀ c ∈ (Path.segments names).text.toList.head?, c = '/' := by
  cases names with
  | nil =>
    rintro c ⟨⟩
  | cons s names =>
    rw [Path.toList_text_cons]
    rintro c ⟨⟩
    rfl

theorem dropEmpty_ne_nil (h : names ≠ []) : dropEmpty names ≠ [] := by
  fun_induction dropEmpty names with
  | case1 s r ih => exact ih (List.cons_ne_nil _ _)
  | case2 => exact h

theorem dropEmpty_suffix (names : List String) : dropEmpty names <:+ names := by
  fun_induction dropEmpty names with
  | case1 s r ih => exact ih.trans (List.suffix_cons _ _)
  | case2 r => exact List.suffix_refl r

/-- The text of the segments begins with two slashes. -/
def Doubled (names : List String) : Prop := ∃ s r, names = "" :: s :: r

theorem not_doubled_dropEmpty (names : List String) : ¬Doubled (dropEmpty names) := by
  fun_induction dropEmpty names with
  | case1 s r ih => exact ih
  | case2 r h =>
    rintro ⟨s, r, rfl⟩
    exact h s r rfl

theorem dropEmpty_of_not_doubled (h : ¬Doubled names) : dropEmpty names = names := by
  unfold dropEmpty
  split
  · exact absurd ⟨_, _, rfl⟩ h
  · rfl

end Outbox.Url

import Outbox.Toml.Reader
import Outbox.Toml.Writer
import Mathlib.Tactic.IntervalCases

/-!
# Texts are read as they were written

A text is written in one of four spellings. `Escaped` says what a text with escapes looks like:
escapes are in pairs, what else stands there is plain, and no three double quotes stay in a row; so
each stage of the reader passes over it as it is. Between single quotes a text stands as it is, and
`Spelling.of` sees to it that nothing in the text ends it. In every spelling the value is the text
that was written (`readValue_quote`).
-/

namespace Outbox.Toml

variable {lines : Bool} {run : Nat} {c q : Char} {s cs r : List Char}

theorem ne_of_pos {p : Char → Bool} {d : Char} (hc : p c = true) (hd : p d = false) : c ≠ d :=
  ne_of_apply_ne p (by simp [hc, hd])

theorem cons_ne_of_pos {p : Char → Bool} {d : Char} (hc : p c = true) (hd : p d = false) :
    c :: s ≠ d :: r := fun h => ne_of_pos hc hd (List.cons.inj h).1

/-! ### Escapes -/

theorem unescape_verbatim (h : isVerbatim lines c) (hb : c ≠ '\\') (r : List Char) :
    unescape lines (c :: r) = (unescape lines r).map (c :: ·) := by
  rw [unescape]
  · exact if_pos ⟨h, hb⟩
  · exact fun _ _ _ _ _ h => absurd h hb
  · exact fun _ _ _ _ _ _ _ _ _ h => absurd h hb
  · exact fun _ _ h => absurd h hb

theorem unescape_short {d : Char} (hu : c ≠ 'u') (hU : c ≠ 'U') (h : shortEscape? c = some d)
    (r : List Char) : unescape lines ('\\' :: c :: r) = (unescape lines r).map (d :: ·) := by
  rw [unescape]
  · rw [h]
    rfl
  · exact fun _ _ _ _ _ h => absurd h hu
  · exact fun _ _ _ _ _ _ _ _ _ h => absurd h hU

/-- The control characters of seven bits. -/
theorem toNat_of_isControl (h : isControl c) : c.toNat < 0x20 ∨ c.toNat = 0x7F := by
  simpa [isControl] using h

theorem scalar?_code4 (h : isControl c) : scalar? (code4 c.toNat) = some c := by
  have hcode : ∀ n < 0x80, scalar? (code4 n) = some (Char.ofNat n) := by decide +kernel
  have hlt : c.toNat < 0x80 := by
    rcases toNat_of_isControl h with hn | hn <;> omega
  rw [hcode _ hlt, Char.ofNat_toNat]

theorem unescape_code4 (h : isControl c) (r : List Char) :
    unescape lines ('\\' :: 'u' :: code4 c.toNat ++ r) = (unescape lines r).map (c :: ·) := by
  have hscalar := scalar?_code4 h
  obtain ⟨a, b, d, e, hcode⟩ : ∃ a b d e, code4 c.toNat = [a, b, d, e] := ⟨_, _, _, _, rfl⟩
  rw [hcode] at hscalar ⊢
  simp only [List.cons_append, List.nil_append]
  rw [unescape, hscalar]
  rfl

theorem isPlain_of_not_isControl (h : isControl c = false) : isPlain c := by
  simp only [isControl, Bool.or_eq_false_iff, decide_eq_false_iff_not] at h
  simp only [isPlain, Bool.or_eq_true, Bool.and_eq_true, decide_eq_true_eq]
  omega

theorem isVerbatim_of_isPlain (h : isPlain c) : isVerbatim lines c := by
  simp [isVerbatim, h]

/-- However a character is escaped, it is read as itself. -/
theorem unescape_escapeChar (c : Char) (r : List Char) :
    unescape lines (escapeChar c ++ r) = (unescape lines r).map (c :: ·) := by
  unfold escapeChar
  split_ifs with ht hr hb h8 hC hc
  · subst ht; exact unescape_short (by decide) (by decide) rfl r
  · subst hr; exact unescape_short (by decide) (by decide) rfl r
  · subst hb; exact unescape_short (by decide) (by decide) rfl r
  · subst h8; exact unescape_short (by decide) (by decide) rfl r
  · subst hC; exact unescape_short (by decide) (by decide) rfl r
  · exact unescape_code4 hc r
  · exact unescape_verbatim (isVerbatim_of_isPlain (isPlain_of_not_isControl (by simpa using hc)))
      hb r

theorem unescape_escape (lines : Bool) (run : Nat) (cs : List Char) :
    unescape lines (escape lines run cs) = some cs := by
  induction cs generalizing run with
  | nil => rfl
  | cons c cs ih =>
    unfold escape
    split_ifs with hq hrun hn hl
    · subst hq
      rw [unescape_verbatim (isVerbatim_of_isPlain (by decide)) (by decide), ih, Option.map_some]
    · subst hq
      rw [unescape_short (by decide) (by decide) rfl, ih, Option.map_some]
    · subst hn hl
      rw [unescape_verbatim (by decide) (by decide), ih, Option.map_some]
    · subst hn
      rw [unescape_short (by decide) (by decide) rfl, ih, Option.map_some]
    · rw [unescape_escapeChar, ih, Option.map_some]

/-- A text with escapes behind so many double quotes that stayed. -/
inductive Escaped (lines : Bool) : Nat → List Char → Prop
  | nil {run : Nat} : Escaped lines run []
  | quote {run : Nat} {s : List Char} (several : lines = true) (few : run < 2)
      (rest : Escaped lines (run + 1) s) : Escaped lines run ('"' :: s)
  | newline {run : Nat} {s : List Char} (several : lines = true) (rest : Escaped lines 0 s) :
      Escaped lines run ('\n' :: s)
  | pair {run : Nat} {c : Char} {s : List Char} (visible : isControl c = false) (full : c ≠ ' ')
      (rest : Escaped lines 0 s) : Escaped lines run ('\\' :: c :: s)
  | plain {run : Nat} {c : Char} {s : List Char} (visible : isControl c = false) (bare : c ≠ '"')
      (single : c ≠ '\\') (rest : Escaped lines 0 s) : Escaped lines run (c :: s)

theorem Escaped.code4 (n : Nat) (h : Escaped lines 0 s) : Escaped lines 0 (code4 n ++ s) := by
  have hdigit : ∀ d < 16, isControl (Text.upperHexDigit d) = false ∧
      Text.upperHexDigit d ≠ '"' ∧ Text.upperHexDigit d ≠ '\\' := by decide
  have hcons : ∀ {d s}, Escaped lines 0 s → Escaped lines 0 (Text.upperHexDigit (d % 16) :: s) :=
    fun h => let ⟨hc, hq, hb⟩ := hdigit _ (Nat.mod_lt _ (by decide)); .plain hc hq hb h
  exact hcons (hcons (hcons (hcons h)))

theorem Escaped.escapeChar (hq : c ≠ '"') (h : Escaped lines 0 s) :
    Escaped lines run (escapeChar c ++ s) := by
  unfold Toml.escapeChar
  split_ifs with ht hr hb h8 hC hc
  · exact .pair (by decide) (by decide) h
  · exact .pair (by decide) (by decide) h
  · exact .pair (by decide) (by decide) h
  · exact .pair (by decide) (by decide) h
  · exact .pair (by decide) (by decide) h
  · exact .pair (by decide) (by decide) (h.code4 _)
  · exact .plain (by simpa using hc) hq hb h

theorem escaped_escape (lines : Bool) (run : Nat) (cs : List Char) :
    Escaped lines run (escape lines run cs) := by
  induction cs generalizing run with
  | nil => exact .nil
  | cons c cs ih =>
    unfold escape
    split_ifs with hq hrun hn hl
    · subst hq
      simp only [Bool.and_eq_true, decide_eq_true_eq] at hrun
      exact .quote hrun.1 hrun.2 (ih _)
    · subst hq
      exact .pair (by decide) (by decide) (ih _)
    · subst hn
      exact .newline hl (ih _)
    · exact .pair (by decide) (by decide) (ih _)
    · exact (ih 0).escapeChar hq

namespace Escaped

theorem not_mem_return (h : Escaped lines run s) : '\r' ∉ s := by
  have hne : ∀ {c : Char}, isControl c = false → '\r' ≠ c := fun hc => ne_of_pos (by decide) hc
  induction h with
  | nil => exact List.not_mem_nil
  | quote _ _ _ ih => exact List.not_mem_cons_of_ne_of_not_mem (by decide) ih
  | newline _ _ ih => exact List.not_mem_cons_of_ne_of_not_mem (by decide) ih
  | pair hc _ _ ih =>
    exact List.not_mem_cons_of_ne_of_not_mem (by decide)
      (List.not_mem_cons_of_ne_of_not_mem (hne hc) ih)
  | plain hc _ _ _ ih => exact List.not_mem_cons_of_ne_of_not_mem (hne hc) ih

theorem splitText_append (h : Escaped false run s) (r : List Char) :
    splitText (s ++ '"' :: r) = some (s, r) := by
  induction h with
  | nil => rfl
  | quote several => cases several
  | newline several => cases several
  | pair _ _ _ ih =>
    rw [List.cons_append, List.cons_append, splitText, ih]
    rfl
  | plain _ hq hb _ ih =>
    rw [List.cons_append, splitText, ih]
    · rfl
    · exact fun h => hq h
    · exact fun _ _ h => absurd h hb

theorem joinLines_eq (h : Escaped lines run s) : joinLines false s = s := by
  have hcons : ∀ {c : Char} {s : List Char}, c ≠ '\\' → joinLines false s = s →
      joinLines false (c :: s) = c :: s := by
    intro c s hb ih
    rw [joinLines, ih]
    · rfl
    · exact fun _ _ h => absurd h hb
  induction h with
  | nil => rfl
  | quote _ _ _ ih => exact hcons (by decide) ih
  | newline _ _ ih => exact hcons (by decide) ih
  | @pair _ c _ hc hf _ ih =>
    have hblank : (isBlank c || decide (c = '\n')) = false := by
      have ht : c ≠ '\t' := (ne_of_pos (by decide) hc).symm
      have hn : c ≠ '\n' := (ne_of_pos (by decide) hc).symm
      simp [isBlank, hf, ht, hn]
    rw [joinLines, hblank, Bool.false_and, if_neg (by decide), ih]
  | plain _ _ hb _ ih => exact hcons hb ih

end Escaped

theorem unifyLines_eq (h : '\r' ∉ s) : unifyLines s = s := by
  induction s with
  | nil => rfl
  | cons c s ih =>
    rw [unifyLines, ih (List.not_mem_of_not_mem_cons h)]
    rintro _ rfl
    exact absurd List.mem_cons_self h

/-! ### Runs of quotes -/

/-- A text that three quotes can close: no more than two of them stand in a row, where so many
stood before it. The flag says whether a backslash takes the next character along. -/
inductive Closable (q : Char) (escapes : Bool) : Nat → List Char → Prop
  | nil {run : Nat} : Closable q escapes run []
  | quote {run : Nat} {s : List Char} (few : run < 2) (rest : Closable q escapes (run + 1) s) :
      Closable q escapes run (q :: s)
  | pair {run : Nat} {c : Char} {s : List Char} (paired : escapes = true)
      (rest : Closable q escapes 0 s) : Closable q escapes run ('\\' :: c :: s)
  | plain {run : Nat} {c : Char} {s : List Char} (bare : c ≠ q)
      (single : escapes = true → c ≠ '\\') (rest : Closable q escapes 0 s) :
      Closable q escapes run (c :: s)

theorem Escaped.closable (h : Escaped lines run s) : Closable '"' true run s := by
  induction h with
  | nil => exact .nil
  | quote _ few _ ih => exact .quote few ih
  | newline _ _ ih => exact .plain (by decide) (fun _ => by decide) ih
  | pair _ _ _ ih => exact .pair rfl ih
  | plain _ hq hb _ ih => exact .plain hq (fun _ => hb) ih

theorem longestRun_ge (c : Char) (run most : Nat) (cs : List Char) :
    most ≤ longestRun c run most cs := by
  induction cs generalizing run most with
  | nil => exact Nat.le_refl _
  | cons d cs ih =>
    unfold longestRun
    split_ifs
    · exact Nat.le_trans (Nat.le_max_left ..) (ih ..)
    · exact ih ..

theorem closable_of_longestRun {most : Nat} (h : longestRun q run most cs ≤ 2) :
    Closable q false run cs := by
  induction cs generalizing run most with
  | nil => exact .nil
  | cons c cs ih =>
    unfold longestRun at h
    split_ifs at h with hc
    · subst hc
      have hrun := Nat.le_trans (Nat.le_max_right ..) (Nat.le_trans (longestRun_ge ..) h)
      exact .quote hrun (ih h)
    · exact .plain hc (fun he => nomatch he) (ih h)

theorem not_mem_of_longestRun {most : Nat} (h : longestRun q run most cs = 0) : q ∉ cs := by
  induction cs generalizing run most with
  | nil => exact List.not_mem_nil
  | cons c cs ih =>
    unfold longestRun at h
    split_ifs at h with hc
    · have hmost := Nat.le_trans (longestRun_ge ..) (Nat.le_of_eq h)
      exact absurd (Nat.le_trans (Nat.le_max_right ..) hmost) (Nat.not_succ_le_zero _)
    · exact List.not_mem_cons_of_ne_of_not_mem (Ne.symm hc) (ih h)

/-- The three quotes that close a text of several lines. -/
def closing (q : Char) : List Char := [q, q, q]

variable {escapes : Bool}

section
variable {t : List Char} {x : List Char × List Char}

theorem splitLines_plain (hc : c ≠ q) (hb : escapes = true → c ≠ '\\')
    (ht : ∃ a b u, t = a :: b :: u) (h : splitLines q escapes t = some x) :
    splitLines q escapes (c :: t) = some (c :: x.1, x.2) := by
  obtain ⟨a, b, u, rfl⟩ := ht
  have hpair : (escapes && decide (c = '\\')) = false := by
    cases escapes with
    | false => rfl
    | true => exact decide_eq_false (hb rfl)
  rw [splitLines, hpair, h]
  simp [hc]

theorem splitLines_pair (ht : ∃ a u, t = a :: u) (h : splitLines q true t = some x) (c : Char) :
    splitLines q true ('\\' :: c :: t) = some ('\\' :: c :: x.1, x.2) := by
  obtain ⟨a, u, rfl⟩ := ht
  rw [splitLines, if_pos (by decide), h]
  rfl

/-- A quote that is not the first of three stays. -/
theorem splitLines_quote (hq : q ≠ '\\') (ht : ∃ a b u, t = a :: b :: u ∧ ¬ (a = q ∧ b = q))
    (h : splitLines q escapes t = some x) :
    splitLines q escapes (q :: t) = some (q :: x.1, x.2) := by
  obtain ⟨a, b, u, rfl, hab⟩ := ht
  rw [splitLines, h]
  simp [hq, hab]

end

/-- Up to two quotes before the closing ones belong to the text. -/
theorem splitLines_closing {k : Nat} (hk : k ≤ 2) (hq : q ≠ '\\') (hr : ∀ c ∈ r.head?, c ≠ q) :
    splitLines q escapes (List.replicate k q ++ (closing q ++ r)) =
      some (List.replicate k q, r) := by
  have hmore : (List.replicate k q ++ r).takeWhile (· = q) = List.replicate k q := by
    rw [List.takeWhile_append_of_pos (by simp)]
    cases r with
    | nil => simp
    | cons c r => simp [hr c rfl]
  have hcomm : List.replicate k q ++ (closing q ++ r) =
      q :: q :: q :: (List.replicate k q ++ r) := by
    rw [← List.append_assoc, show closing q = List.replicate 3 q from rfl,
      List.replicate_append_replicate, Nat.add_comm, ← List.replicate_append_replicate]
    rfl
  rw [hcomm, splitLines, hmore]
  simp [hq, hk]

theorem Closable.splitLines_append (h : Closable q escapes run s) (hq : q ≠ '\\')
    (hr : ∀ c ∈ r.head?, c ≠ q) :
    splitLines q escapes (s ++ (closing q ++ r)) = some (s, r) := by
  have htwo : ∀ s : List Char, ∃ a b t, s ++ (closing q ++ r) = a :: b :: t := by
    rintro (_ | ⟨_, _ | ⟨_, s⟩⟩) <;> exact ⟨_, _, _, rfl⟩
  induction h with
  | nil => exact splitLines_closing (k := 0) (by decide) hq hr
  | quote few rest ih =>
    -- the text ends with its quotes, or one of the next two characters is none
    cases rest with
    | nil => exact splitLines_closing (k := 1) (by decide) hq hr
    | quote few' rest' =>
      cases rest' with
      | nil => exact splitLines_closing (k := 2) (by decide) hq hr
      | quote few'' => omega
      | pair => exact splitLines_quote hq ⟨_, _, _, rfl, fun h => hq h.2.symm⟩ ih
      | plain bare => exact splitLines_quote hq ⟨_, _, _, rfl, fun h => bare h.2⟩ ih
    | pair => exact splitLines_quote hq ⟨_, _, _, rfl, fun h => hq h.1.symm⟩ ih
    | @plain _ c s bare =>
      obtain ⟨a, b, t, ht⟩ := htwo s
      refine splitLines_quote hq ⟨c, a, b :: t, ?_, fun h => bare h.1⟩ ih
      rw [List.cons_append, ht]
  | @pair _ c s paired rest ih =>
    subst paired
    obtain ⟨a, b, t, ht⟩ := htwo s
    exact splitLines_pair ⟨a, b :: t, ht⟩ ih c
  | @plain _ c s bare single rest ih => exact splitLines_plain bare single (htwo s) ih

/-! ### Spellings -/

theorem readQuoted_escape (cs r : List Char) :
    readQuoted (escape false 0 cs ++ '"' :: r) = some (String.ofList cs, r) := by
  simp only [readQuoted, (escaped_escape false 0 cs).splitText_append, unescape_escape,
    Option.bind_eq_bind, Option.bind_some]
  rfl

/-- The line that is left empty before a text of several lines. -/
def firstEnd (cs : List Char) : List Char := if cs.contains '\n' then ['\n'] else []

theorem endLine?_of_ne (hn : c ≠ '\n') (hr : c ≠ '\r') (s : List Char) :
    endLine? (c :: s) = none := by
  unfold endLine?
  split
  · exact absurd (List.cons.inj ‹_›).1 hn
  · exact absurd (List.cons.inj ‹_›).1 hr
  · rfl

theorem dropFirstEnd_firstEnd (hn : '\n' ∈ s.head? → '\n' ∈ cs) (hr : '\r' ∉ s)
    (hq : q ≠ '\n' ∧ q ≠ '\r') :
    dropFirstEnd (firstEnd cs ++ (s ++ (closing q ++ r))) = s ++ (closing q ++ r) := by
  by_cases h : '\n' ∈ cs
  · simp [firstEnd, h, dropFirstEnd, endLine?]
  · have hempty : firstEnd cs = [] := by simp [firstEnd, h]
    have hnone : endLine? (s ++ (closing q ++ r)) = none := by
      cases s with
      | nil => exact endLine?_of_ne hq.1 hq.2 _
      | cons c s =>
        refine endLine?_of_ne (fun hc => h (hn ?_)) (fun hc => hr ?_) _
        · exact hc ▸ rfl
        · exact hc ▸ List.mem_cons_self
    rw [hempty, List.nil_append, dropFirstEnd, hnone, Option.getD_none]

theorem head?_escape (h : '\n' ∈ (escape true run cs).head?) : '\n' ∈ cs := by
  cases cs with
  | nil => cases h
  | cons c cs =>
    by_cases hc : c = '\n'
    · exact hc ▸ List.mem_cons_self
    · unfold escape escapeChar at h
      split_ifs at h <;> simp_all

theorem readQuotedLines_escape (cs : List Char) (hr : ∀ c ∈ r.head?, c ≠ '"') :
    readQuotedLines (firstEnd cs ++ (escape true 0 cs ++ (closing '"' ++ r))) =
      some (String.ofList cs, r) := by
  have h := escaped_escape true 0 cs
  have hdrop : dropFirstEnd (firstEnd cs ++ (escape true 0 cs ++ (closing '"' ++ r))) =
      escape true 0 cs ++ (closing '"' ++ r) :=
    dropFirstEnd_firstEnd head?_escape h.not_mem_return (by decide)
  simp only [readQuotedLines, hdrop, h.closable.splitLines_append (by decide) hr,
    unifyLines_eq h.not_mem_return, h.joinLines_eq, unescape_escape, Option.bind_eq_bind,
    Option.bind_some]
  rfl

theorem readLiteral_append (hq : '\'' ∉ cs) (hp : ∀ c ∈ cs, isPlain c) (r : List Char) :
    readLiteral (cs ++ '\'' :: r) = some (String.ofList cs, r) := by
  have hne : ∀ c ∈ cs, decide (c ≠ '\'') = true := fun c hc =>
    decide_eq_true fun h => hq (h ▸ hc)
  simp only [readLiteral, List.takeWhile_append_of_pos hne, List.dropWhile_append_of_pos hne]
  simpa using hp

theorem readLiteralLines_append (hs : Closable '\'' false 0 cs)
    (hv : ∀ c ∈ cs, isVerbatim true c) (hr : ∀ c ∈ r.head?, c ≠ '\'') :
    readLiteralLines (firstEnd cs ++ (cs ++ (closing '\'' ++ r))) = some (String.ofList cs, r) := by
  have hreturn : '\r' ∉ cs := fun h => absurd (hv _ h) (by decide)
  have hdrop : dropFirstEnd (firstEnd cs ++ (cs ++ (closing '\'' ++ r))) =
      cs ++ (closing '\'' ++ r) :=
    dropFirstEnd_firstEnd List.mem_of_mem_head? hreturn (by decide)
  simp only [readLiteralLines, hdrop, hs.splitLines_append (by decide) hr, unifyLines_eq hreturn,
    Option.bind_eq_bind, Option.bind_some, List.all_eq_true.2 hv, if_true]
  rfl

theorem isVerbatim_of_controls (h : (Traits.of cs).controls = false) :
    ∀ c ∈ cs, isVerbatim true c := by
  intro c hc
  have hn := List.any_eq_false.1 h c hc
  by_cases hcontrol : isControl c
  · have ht : c = '\t' ∨ c = '\n' := by
      by_contra hne
      exact hn (by simp [hcontrol, not_or.1 hne])
    rcases ht with rfl | rfl <;> decide
  · exact isVerbatim_of_isPlain (isPlain_of_not_isControl (by simpa using hcontrol))

theorem Spelling.of_eq_literal {t : Traits} (h : Spelling.of t = literal) :
    t.controls = false ∧ t.singles = 0 ∧ t.lines = false := by
  unfold Spelling.of at h
  split_ifs at h
  simp_all

theorem Spelling.of_eq_literalLines {t : Traits} (h : Spelling.of t = literalLines) :
    t.controls = false ∧ t.singles ≤ 2 := by
  unfold Spelling.of at h
  split_ifs at h
  simp_all

section
variable {n depth : Nat} {t : List Char}

theorem readValue_quote_cons (h : ∀ u, t ≠ '"' :: '"' :: u) :
    readValue (n + 1) depth ('"' :: t) = (readQuoted t).map fun (s, r) => (text s, r) := by
  rw [readValue]
  exact h

theorem readValue_single_cons (h : ∀ u, t ≠ '\'' :: '\'' :: u) :
    readValue (n + 1) depth ('\'' :: t) = (readLiteral t).map fun (s, r) => (text s, r) := by
  rw [readValue]
  exact h

theorem readValue_quoted (hr : '"' ∉ r.head?) :
    readValue (n + 1) depth (spell cs .quoted ++ r) = some (text (String.ofList cs), r) := by
  have h := escaped_escape false 0 cs
  have hspell : spell cs .quoted ++ r = '"' :: (escape false 0 cs ++ '"' :: r) := by
    simp [spell]
  have hne : ∀ u, escape false 0 cs ++ '"' :: r ≠ '"' :: '"' :: u := by
    intro u hu
    generalize escape false 0 cs = s at h hu
    cases h with
    | nil => exact hr (by rw [(List.cons.inj hu).2]; rfl)
    | quote several => cases several
    | newline several => cases several
    | pair => exact absurd (List.cons.inj hu).1 (by decide)
    | plain _ bare => exact bare (List.cons.inj hu).1
  rw [hspell, readValue_quote_cons hne, readQuoted_escape, Option.map_some]

theorem readValue_literal (h : Spelling.of (.of cs) = .literal) (r : List Char) :
    readValue (n + 1) depth (spell cs .literal ++ r) = some (text (String.ofList cs), r) := by
  obtain ⟨hcontrols, hsingles, hlines⟩ := Spelling.of_eq_literal h
  have hquote : '\'' ∉ cs := not_mem_of_longestRun hsingles
  have hplain : ∀ c ∈ cs, isPlain c := by
    intro c hc
    have hne : c ≠ '\n' := by
      rintro rfl
      exact absurd (List.contains_iff_mem.2 hc) (Bool.eq_false_iff.1 hlines)
    simpa [isVerbatim, hne] using isVerbatim_of_controls hcontrols c hc
  have hne : ∀ u, cs ++ '\'' :: r ≠ '\'' :: '\'' :: u := by
    intro u hu
    cases cs with
    | nil => exact absurd h (by decide)
    | cons c cs => exact hquote ((List.cons.inj hu).1 ▸ List.mem_cons_self)
  have hspell : spell cs .literal ++ r = '\'' :: (cs ++ '\'' :: r) := by simp [spell]
  rw [hspell, readValue_single_cons hne, readLiteral_append hquote hplain, Option.map_some]

/-- In the spelling that is chosen for it, a text is read as itself. -/
theorem readValue_spell (hr : ∀ c ∈ r.head?, c ≠ '"' ∧ c ≠ '\'') :
    readValue (n + 1) depth (spell cs (.of (.of cs)) ++ r) = some (text (String.ofList cs), r) := by
  cases h : Spelling.of (.of cs) with
  | quoted => exact readValue_quoted fun h => (hr _ h).1 rfl
  | literal => exact readValue_literal h r
  | quotedLines =>
    have hspell : spell cs .quotedLines ++ r = '"' :: '"' :: '"' ::
        (firstEnd cs ++ (escape true 0 cs ++ (closing '"' ++ r))) := by
      simp [spell, firstEnd, closing]
    rw [hspell, readValue, readQuotedLines_escape cs fun c hc => (hr c hc).1, Option.map_some]
  | literalLines =>
    obtain ⟨hcontrols, hsingles⟩ := Spelling.of_eq_literalLines h
    have hspell : spell cs .literalLines ++ r = '\'' :: '\'' :: '\'' ::
        (firstEnd cs ++ (cs ++ (closing '\'' ++ r))) := by
      simp [spell, firstEnd, closing]
    rw [hspell, readValue, readLiteralLines_append (closable_of_longestRun hsingles)
      (isVerbatim_of_controls hcontrols) fun c hc => (hr c hc).2, Option.map_some]

theorem readValue_quote (s : String) (hr : ∀ c ∈ r.head?, c ≠ '"' ∧ c ≠ '\'') :
    readValue (n + 1) depth ((quote s).toList ++ r) = some (text s, r) := by
  rw [quote, String.toList_ofList, readValue_spell hr, String.ofList_toList]

end

end Outbox.Toml

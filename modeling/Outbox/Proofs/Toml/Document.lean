import Outbox.Proofs.Toml.Integer
import Outbox.Proofs.Toml.Spelling

/-!
# Documents are read as they were written

Each line that was written is read by itself: a header declares one more table, an entry puts one
more value into it. So a document of sections with names of their own is read as the table of these
sections (`read?_render`).
-/

namespace Outbox.Toml

variable {n depth : Nat} {c : Char} {k name : String} {r : List Char} {p p' : Progress}

/-! ### Values -/

/-- The value that is written. -/
def Scalar.value : Scalar → Toml
  | text s => .text s
  | integer i => .integer i

/-- What is written can be read. -/
def Scalar.Readable : Scalar → Prop
  | text _ => True
  | integer i => Fits i

theorem isBlank_of_pos {p : Char → Bool} (h : p c = true) (hs : p ' ' = false)
    (ht : p '\t' = false) : isBlank c = false := by
  have hspace : c ≠ ' ' := ne_of_pos h hs
  have htab : c ≠ '\t' := ne_of_pos h ht
  simp [isBlank, hspace, htab]

theorem skipBlank_cons (h : isBlank c = false) (r : List Char) : skipBlank (c :: r) = c :: r :=
  List.dropWhile_cons_of_neg (by simp [h])

/-- What begins with a character of a word is read as a word. -/
theorem readValue_of_isWordChar (h : isWordChar c) (r : List Char) :
    readValue (n + 1) depth (c :: r) = readWord (c :: r) := by
  rw [readValue]
  all_goals exact fun _ => cons_ne_of_pos h (by decide)

theorem readValue_render {v : Scalar} (h : v.Readable) (r : List Char) :
    readValue (n + 1) depth (v.render.toList ++ '\n' :: r) = some (v.value, '\n' :: r) := by
  cases v with
  | text s =>
    refine readValue_quote s ?_
    rintro _ ⟨⟩
    decide
  | integer i =>
    have hi := numeral_toString i
    obtain ⟨c, cs, hcs⟩ := List.exists_cons_of_ne_nil hi.ne_nil
    have hc := hi.isWordChar c (hcs ▸ List.mem_cons_self)
    have hread := hi.readWord_append h r
    change readValue (n + 1) depth ((toString i).toList ++ '\n' :: r) = _
    rw [hcs, List.cons_append] at hread ⊢
    rw [readValue_of_isWordChar hc, hread]
    rfl

/-- No value begins with a blank. -/
theorem skipBlank_render (v : Scalar) (r : List Char) :
    skipBlank (v.render.toList ++ r) = v.render.toList ++ r := by
  obtain ⟨c, cs, hcs, hc⟩ : ∃ c cs, v.render.toList = c :: cs ∧ isBlank c = false := by
    cases v with
    | text s =>
      change ∃ c cs, (quote s).toList = c :: cs ∧ _
      rw [quote, String.toList_ofList]
      cases Spelling.of (.of s.toList) <;> exact ⟨_, _, rfl, by decide⟩
    | integer i =>
      have hi := numeral_toString i
      obtain ⟨c, cs, hcs⟩ := List.exists_cons_of_ne_nil hi.ne_nil
      have hc := hi.isWordChar c (hcs ▸ List.mem_cons_self)
      exact ⟨c, cs, hcs, isBlank_of_pos hc (by decide) (by decide)⟩
  rw [hcs, List.cons_append, skipBlank_cons hc]

/-! ### Keys -/

/-- A name that stands without quotes. -/
def IsBare (name : String) : Prop := name.toList ≠ [] ∧ name.toList.all isBareChar

instance (name : String) : Decidable (IsBare name) := inferInstanceAs (Decidable (_ ∧ _))

theorem IsBare.forall_mem (h : IsBare k) : ∀ c ∈ k.toList, isBareChar c := List.all_eq_true.1 h.2

theorem IsBare.cons (h : IsBare k) : ∃ c cs, k.toList = c :: cs ∧ isBareChar c := by
  obtain ⟨c, cs, hcs⟩ := List.exists_cons_of_ne_nil h.1
  exact ⟨c, cs, hcs, h.forall_mem c (hcs ▸ List.mem_cons_self)⟩

theorem isBlank_of_isBareChar (h : isBareChar c) : isBlank c = false :=
  isBlank_of_pos h (by decide) (by decide)

theorem IsBare.readPart_append (h : IsBare k) (hr : ∀ c ∈ r.head?, ¬ isBareChar c) :
    readPart (k.toList ++ r) = some (k, r) := by
  have htake : (k.toList ++ r).takeWhile isBareChar = k.toList := by
    rw [List.takeWhile_append_of_pos h.forall_mem]
    cases r with
    | nil => simp
    | cons c r => simp [hr c rfl]
  have hdrop : (k.toList ++ r).dropWhile isBareChar = r := by
    rw [List.dropWhile_append_of_pos h.forall_mem]
    cases r with
    | nil => rfl
    | cons c r => simp [hr c rfl]
  obtain ⟨c, cs, hcs, hc⟩ := h.cons
  have hplain : readPart (k.toList ++ r) =
      if ((k.toList ++ r).takeWhile isBareChar).isEmpty then none
      else some (String.ofList ((k.toList ++ r).takeWhile isBareChar),
        (k.toList ++ r).dropWhile isBareChar) := by
    rw [hcs, List.cons_append, readPart]
    · exact fun _ => cons_ne_of_pos hc (by decide)
    · exact fun _ => cons_ne_of_pos hc (by decide)
  rw [hplain, htake, hdrop, if_neg (by simpa using h.1), String.ofList_toList]

/-- A bare key is read up to the first character behind the blanks that follow it. -/
theorem IsBare.readKey_append (h : IsBare k) (hr : ∀ c ∈ r.head?, ¬ isBareChar c)
    (hdot : '.' ∉ (skipBlank r).head?) : readKey (k.toList ++ r) = some ([k], skipBlank r) := by
  have hskip : skipBlank (k.toList ++ r) = k.toList ++ r := by
    obtain ⟨c, cs, hcs, hc⟩ := h.cons
    rw [hcs, List.cons_append, skipBlank_cons (isBlank_of_isBareChar hc)]
  change readParts (78 + 1) _ = _
  rw [readParts, hskip, h.readPart_append hr]
  simp only [Option.bind_eq_bind, Option.bind_some]
  split
  · rename_i heq
    exact absurd (by rw [heq]; rfl) hdot
  · rfl

/-! ### Lines -/

/-- An entry as it is written. -/
def entryChars (e : String × Scalar) : List Char :=
  e.1.toList ++ (' ' :: '=' :: ' ' :: (e.2.render.toList ++ ['\n']))

theorem readLine_header {root : Node.Members} (h : IsBare name)
    (hroot : Node.declare [name] p.root = some root) (r : List Char) :
    readLine n p ('[' :: (name.toList ++ ']' :: r)) = some (⟨[name], root⟩, r) := by
  have hkey : readKey (name.toList ++ ']' :: r) = some ([name], ']' :: r) :=
    h.readKey_append (by rintro _ ⟨⟩; decide) (by simp [skipBlank, isBlank])
  obtain ⟨c, cs, hcs, hc⟩ := h.cons
  rw [hcs, List.cons_append] at hkey ⊢
  rw [readLine, readHeader, hkey]
  · simp [hroot]
  · exact fun _ => cons_ne_of_pos hc (by decide)

theorem readLine_entry {root : Node.Members} {e : String × Scalar} (hk : IsBare e.1)
    (hv : e.2.Readable) (hroot : Node.assign p.header [e.1] e.2.value p.root = some root)
    (r : List Char) :
    readLine (n + 1) p (entryChars e ++ r) = some ({ p with root }, '\n' :: r) := by
  have hline : entryChars e ++ r =
      e.1.toList ++ (' ' :: '=' :: ' ' :: (e.2.render.toList ++ '\n' :: r)) := by
    simp [entryChars]
  have hkey : readKey (entryChars e ++ r) =
      some ([e.1], '=' :: ' ' :: (e.2.render.toList ++ '\n' :: r)) := by
    rw [hline]
    exact hk.readKey_append (by rintro _ ⟨⟩; decide) (by simp [skipBlank, isBlank])
  have hskip : skipBlank (' ' :: (e.2.render.toList ++ '\n' :: r)) =
      e.2.render.toList ++ '\n' :: r := skipBlank_render _ _
  obtain ⟨c, cs, hcs, hc⟩ := hk.cons
  rw [hline, hcs, List.cons_append] at hkey ⊢
  rw [readLine, hkey]
  · simp only [Option.bind_eq_bind, Option.bind_some, hskip, readValue_render hv, hroot]
    rfl
  · exact fun _ => cons_ne_of_pos hc (by decide)
  · exact fun _ => cons_ne_of_pos hc (by decide)

theorem finishLine_newline (r : List Char) : finishLine ('\n' :: r) = some r := rfl

theorem readLines_newline (n : Nat) (p : Progress) (r : List Char) :
    readLines (n + 1) p ('\n' :: r) = readLines n p r := rfl

theorem readLines_line {s : List Char} (hb : isBlank c = false) (hc : c ≠ '#' ∧ c ≠ '\n' ∧ c ≠ '\r')
    (h : readLine n p (c :: s) = some (p', '\n' :: r)) :
    readLines (n + 1) p (c :: s) = readLines n p' r := by
  rw [readLines, skipBlank_cons hb]
  simp only [hc, or_self, if_false, h, Option.bind_eq_bind, Option.bind_some, finishLine_newline]

theorem readLines_header {root : Node.Members} (h : IsBare name)
    (hroot : Node.declare [name] p.root = some root) (r : List Char) :
    readLines (n + 1) p ('[' :: (name.toList ++ ']' :: '\n' :: r)) =
      readLines n ⟨[name], root⟩ r :=
  readLines_line (by decide) (by decide) (readLine_header h hroot _)

theorem readLines_entry {root : Node.Members} {e : String × Scalar} (hk : IsBare e.1)
    (hv : e.2.Readable) (hroot : Node.assign p.header [e.1] e.2.value p.root = some root)
    (r : List Char) :
    readLines (n + 2) p (entryChars e ++ r) = readLines (n + 1) { p with root } r := by
  have hline := readLine_entry (n := n) hk hv hroot r
  obtain ⟨c, cs, hcs, hc⟩ := hk.cons
  obtain ⟨s, hs⟩ : ∃ s, entryChars e ++ r = c :: s := ⟨_, by rw [entryChars, hcs]; rfl⟩
  rw [hs] at hline ⊢
  exact readLines_line (isBlank_of_isBareChar hc) ⟨ne_of_pos hc (by decide),
    ne_of_pos hc (by decide), ne_of_pos hc (by decide)⟩ hline

/-! ### Tables -/

namespace Node
variable {f : Option Node → Option Node} {ms sub : Members} {node : Node} {key : String} {v : Toml}

theorem change_new (h : name ∉ ms.map Prod.fst) :
    change f name ms = (f none).map fun m => ms ++ [(name, m)] := by
  induction ms with
  | nil => rfl
  | cons m ms ih =>
    rw [List.map_cons, List.mem_cons, not_or] at h
    rw [change, if_neg (Ne.symm h.1), ih h.2, Option.map_map]
    rfl

theorem change_last (h : name ∉ ms.map Prod.fst) :
    change f name (ms ++ [(name, node)]) = (f (some node)).map fun m => ms ++ [(name, m)] := by
  induction ms with
  | nil => exact if_pos rfl
  | cons m ms ih =>
    rw [List.map_cons, List.mem_cons, not_or] at h
    rw [List.cons_append, change, if_neg (Ne.symm h.1), ih h.2, Option.map_map]
    rfl

/-- A table that a header has declared. -/
def declared (sub : Members) : Node := table .declared sub

theorem declare_new (h : name ∉ ms.map Prod.fst) :
    declare [name] ms = some (ms ++ [(name, declared [])]) := change_new h

/-- An entry goes into the table declared last. -/
theorem assign_last (h : name ∉ ms.map Prod.fst) (hkey : key ∉ sub.map Prod.fst) :
    assign [name] [key] v (ms ++ [(name, declared sub)]) =
      some (ms ++ [(name, declared (sub ++ [(key, value v)]))]) := by
  have hadd : put true v [] key sub = some (sub ++ [(key, value v)]) := change_new hkey
  refine (change_last h).trans ?_
  change ((put true v [] key sub).map (table .declared)).map _ = _
  rw [hadd]
  rfl

end Node

/-! ### Sections -/

namespace Section

/-- The table that is written. -/
def value (s : Section) : Toml := table (s.entries.map fun e => (e.1, e.2.value))

/-- The names of a section can be told apart without quotes, and its values can be read. -/
structure Readable (s : Section) : Prop where
  name : IsBare s.name
  keys : ∀ e ∈ s.entries, IsBare e.1
  values : ∀ e ∈ s.entries, e.2.Readable
  nodup : (s.entries.map Prod.fst).Nodup

/-- The names of entries are looked at apart from their values. -/
theorem Readable.of_names {entries : List (String × Scalar)} (names : List String)
    (hnames : entries.map Prod.fst = names) (hname : IsBare name)
    (hkeys : (∀ k ∈ names, IsBare k) ∧ names.Nodup) (hvalues : ∀ e ∈ entries, e.2.Readable) :
    Readable ⟨name, entries⟩ where
  name := hname
  keys e he := hkeys.1 e.1 (hnames ▸ List.mem_map_of_mem he)
  values := hvalues
  nodup := hnames ▸ hkeys.2

end Section

/-- The members that entries make. -/
def members (es : List (String × Scalar)) : Node.Members :=
  es.map fun e => (e.1, Node.value e.2.value)

/-- What follows entries is read in the table that they have been put into. -/
theorem readLines_entries {ms : Node.Members} (sub : Node.Members)
    {es : List (String × Scalar)} {fuel : Nat} (hname : name ∉ ms.map Prod.fst)
    (hkeys : ∀ e ∈ es, IsBare e.1) (hvalues : ∀ e ∈ es, e.2.Readable)
    (hnodup : (sub.map Prod.fst ++ es.map Prod.fst).Nodup) (r : List Char)
    (hfuel : (es.flatMap entryChars ++ r).length < fuel) :
    ∃ fuel', r.length < fuel' ∧
      readLines fuel ⟨[name], ms ++ [(name, .declared sub)]⟩ (es.flatMap entryChars ++ r) =
        readLines fuel' ⟨[name], ms ++ [(name, .declared (sub ++ members es))]⟩ r := by
  induction es generalizing sub fuel with
  | nil => exact ⟨fuel, hfuel, by simp [members]⟩
  | cons e es ih =>
    obtain ⟨hkey, hkeys⟩ := List.forall_mem_cons.1 hkeys
    obtain ⟨hvalue, hvalues⟩ := List.forall_mem_cons.1 hvalues
    have hnew : e.1 ∉ sub.map Prod.fst := fun hmem =>
      (List.nodup_append.1 hnodup).2.2 _ hmem _ List.mem_cons_self rfl
    have hlength : 4 ≤ (entryChars e).length := by
      simp only [entryChars, List.length_append, List.length_cons]
      omega
    rw [List.flatMap_cons, List.append_assoc] at hfuel ⊢
    rw [List.length_append] at hfuel
    -- an entry takes one turn and has more characters than that
    obtain ⟨k, rfl⟩ : ∃ k, fuel = k + 2 := ⟨fuel - 2, by omega⟩
    rw [readLines_entry hkey hvalue (Node.assign_last hname hnew)]
    obtain ⟨fuel', hlt, h⟩ := ih (sub ++ [(e.1, .value e.2.value)]) hkeys hvalues
      (by rwa [List.map_append, List.append_assoc]) (by omega : _ < k + 1)
    refine ⟨fuel', hlt, h.trans ?_⟩
    rw [List.append_assoc]
    rfl

theorem flatMap_toList_entries (es : List (String × Scalar)) :
    (es.map fun (k, v) => k ++ " = " ++ v.render ++ "\n").flatMap String.toList =
      es.flatMap entryChars := by
  rw [List.flatMap_map]
  congr 1
  funext e
  simp [entryChars]

theorem toList_render_section (s : Section) :
    s.render.toList = '[' :: (s.name.toList ++ ']' :: '\n' :: s.entries.flatMap entryChars) := by
  simp [Section.render, String.toList_join, flatMap_toList_entries]

/-- What follows a section is read with its table added. -/
theorem readLines_section {s : Section} (hs : s.Readable) (header : List String)
    {ms : Node.Members} (hname : s.name ∉ ms.map Prod.fst) {r : List Char} {fuel : Nat}
    (hfuel : (s.render.toList ++ r).length < fuel) :
    ∃ fuel', r.length < fuel' ∧ readLines fuel ⟨header, ms⟩ (s.render.toList ++ r) =
      readLines fuel' ⟨[s.name], ms ++ [(s.name, .declared (members s.entries))]⟩ r := by
  obtain ⟨k, rfl⟩ : ∃ k, fuel = k + 1 := ⟨fuel - 1, by omega⟩
  have hchars : s.render.toList ++ r =
      '[' :: (s.name.toList ++ ']' :: '\n' :: (s.entries.flatMap entryChars ++ r)) := by
    simp [toList_render_section]
  rw [hchars] at hfuel ⊢
  rw [readLines_header hs.name (Node.declare_new hname)]
  refine readLines_entries [] hname hs.keys hs.values hs.nodup r ?_
  simp only [List.length_cons, List.length_append] at hfuel ⊢
  omega

/-- Sections with an empty line before each. -/
def sectionChars (ss : List Section) : List Char := ss.flatMap fun s => '\n' :: s.render.toList

theorem readLines_sections {ss : List Section} (ms : Node.Members) (header : List String)
    {fuel : Nat} (hss : ∀ s ∈ ss, s.Readable)
    (hnodup : (ms.map Prod.fst ++ ss.map Section.name).Nodup)
    (hfuel : (sectionChars ss).length < fuel) :
    ∃ header', readLines fuel ⟨header, ms⟩ (sectionChars ss) =
      some ⟨header', ms ++ ss.map fun s => (s.name, .declared (members s.entries))⟩ := by
  obtain ⟨k, rfl⟩ : ∃ k, fuel = k + 1 := ⟨fuel - 1, by omega⟩
  induction ss generalizing ms header k with
  | nil => exact ⟨header, by simp [sectionChars, readLines, skipBlank]⟩
  | cons s ss ih =>
    obtain ⟨hs, hss⟩ := List.forall_mem_cons.1 hss
    have hnew : s.name ∉ ms.map Prod.fst := fun hmem =>
      (List.nodup_append.1 hnodup).2.2 _ hmem _ List.mem_cons_self rfl
    have hchars : sectionChars (s :: ss) = '\n' :: (s.render.toList ++ sectionChars ss) := rfl
    rw [hchars, List.length_cons] at hfuel
    obtain ⟨fuel', hlt, hsection⟩ :=
      readLines_section hs header hnew (Nat.lt_of_succ_lt_succ hfuel)
    obtain ⟨l, rfl⟩ : ∃ l, fuel' = l + 1 := ⟨fuel' - 1, by omega⟩
    obtain ⟨header', h⟩ := ih (ms ++ [(s.name, .declared (members s.entries))]) [s.name] hss
      (by rwa [List.map_append, List.append_assoc]) l hlt
    refine ⟨header', ?_⟩
    rw [hchars, readLines_newline, hsection, h, List.append_assoc]
    rfl

theorem toList_render (s : Section) (ss : List Section) :
    '\n' :: (render (s :: ss)).toList = sectionChars (s :: ss) := by
  induction ss generalizing s with
  | nil => simp [render, sectionChars]
  | cons t ss ih =>
    have hrender : render (s :: t :: ss) = s.render ++ "\n" ++ render (t :: ss) :=
      String.intercalate_cons_cons
    have hchars : sectionChars (s :: t :: ss) =
        '\n' :: (s.render.toList ++ sectionChars (t :: ss)) := rfl
    rw [hrender, hchars, ← ih]
    simp

theorem finishAll_members (es : List (String × Scalar)) :
    Node.finishAll (members es) = es.map fun e => (e.1, e.2.value) := by
  induction es with
  | nil => rfl
  | cons e es ih => rw [members, List.map_cons, Node.finishAll, ← members, ih]; rfl

theorem finishAll_declared (ss : List Section) :
    Node.finishAll (ss.map fun s => (s.name, .declared (members s.entries))) =
      ss.map fun s => (s.name, s.value) := by
  induction ss with
  | nil => rfl
  | cons s ss ih =>
    rw [List.map_cons, Node.finishAll, ih, Node.declared, Node.finish, finishAll_members]
    rfl

/-- A document is read as the table of the sections that were written. -/
theorem read?_render {ss : List Section} (hss : ∀ s ∈ ss, s.Readable)
    (hnodup : (ss.map Section.name).Nodup) :
    read? (render ss) = some (table (ss.map fun s => (s.name, s.value))) := by
  cases ss with
  | nil => rfl
  | cons s ss =>
    have hchars := toList_render s ss
    obtain ⟨cs, hcs⟩ : ∃ cs, (render (s :: ss)).toList = '[' :: cs := by
      rw [(List.cons.inj hchars).2, toList_render_section]
      exact ⟨_, rfl⟩
    rw [hcs] at hchars
    have hmark : dropMark ('[' :: cs) = '[' :: cs := rfl
    -- the sections are read as if an empty line stood before the first one too
    have hfuel : (sectionChars (s :: ss)).length < 2 * ('[' :: cs).length + 3 := by
      rw [← hchars, List.length_cons]
      omega
    obtain ⟨header, h⟩ := readLines_sections [] [] hss hnodup hfuel
    rw [← hchars, readLines_newline] at h
    rw [read?, hcs, hmark]
    simp only [h, Option.bind_eq_bind, Option.bind_some, List.nil_append, finishAll_declared]
    rfl

end Outbox.Toml

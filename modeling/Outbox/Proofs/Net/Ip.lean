import Outbox.Net.Ip
import Outbox.Proofs.Text.Digit
import Mathlib.Data.List.TakeWhile

/-!
# Texts of internet addresses

The text of an address of version six is read back (`Ipv6.parse?_text`): groups without a gap piece
by piece, and around a gap what stands on both of its sides, the rest being the zeros left out.
-/

namespace Outbox

/-- What holds of a separator and of all pieces holds of what they are joined to. -/
theorem Text.of_mem_intercalate {P : Char → Prop} {sep c : Char} {ls : List (List Char)}
    (hsep : P sep) (hls : ∀ l ∈ ls, ∀ x ∈ l, P x) (h : c ∈ [sep].intercalate ls) : P c := by
  induction ls with
  | nil => cases h
  | cons l ls ih =>
    obtain ⟨hl, hls⟩ := List.forall_mem_cons.1 hls
    cases ls with
    | nil => exact hl c (by simpa using h)
    | cons l' ls =>
      rw [List.intercalate_cons_cons, List.mem_append, List.mem_append, List.mem_singleton] at h
      rcases h with (h | rfl) | h
      · exact hl c h
      · exact hsep
      · exact ih hls h

namespace Net

/-- Every number of the address is a byte. -/
structure Ipv4.Valid (i : Ipv4) : Prop where
  a : i.a < 256
  b : i.b < 256
  c : i.c < 256
  d : i.d < 256

theorem Ipv4.valid_ofNat (n : Nat) : (ofNat n).Valid :=
  ⟨Nat.mod_lt _ (by decide), Nat.mod_lt _ (by decide), Nat.mod_lt _ (by decide),
    Nat.mod_lt _ (by decide)⟩

theorem Ipv4.valid_of_parse? {cs : List Char} {i : Ipv4} (h : parse? cs = some i) : i.Valid := by
  have hbyte : ∀ {cs n}, byte? cs = some n → n < 256 := by
    intro cs n h
    unfold byte? at h
    split at h
    · cases h
    · exact Text.lt_of_below? h
  unfold parse? at h
  split at h
  · simp only [Option.bind_eq_bind, Option.bind_eq_some_iff, Option.pure_def,
      Option.some.injEq] at h
    obtain ⟨a, ha, b, hb, c, hc, d, hd, rfl⟩ := h
    exact ⟨hbyte ha, hbyte hb, hbyte hc, hbyte hd⟩
  · cases h

theorem Ipv4.toList_text (i : Ipv4) :
    i.text.toList = ['.'].intercalate ([i.a, i.b, i.c, i.d].map (Nat.toDigits 10)) := by
  rw [text, String.toList_intercalate, List.map_map]
  exact congrArg _ (List.map_congr_left fun n _ => Nat.toList_repr)

namespace Ipv6

/-- There are eight groups, each of sixteen bits. -/
structure Valid (i : Ipv6) : Prop where
  length : i.groups.length = 8
  lt : ∀ g ∈ i.groups, g < 65536

variable {gs : List Nat} {g : Nat} {cs r : List Char}

theorem colon_not_mem_toDigits (g : Nat) : ':' ∉ Nat.toDigits 16 g :=
  Text.not_mem_toDigits (by decide) (by decide) (by decide) g

theorem dot_not_mem_toDigits (g : Nat) : '.' ∉ Nat.toDigits 16 g :=
  Text.not_mem_toDigits (by decide) (by decide) (by decide) g

/-! ### Groups between colons -/

/-- The characters of groups between colons. -/
def groupsChars (gs : List Nat) : List Char := [':'].intercalate (gs.map (Nat.toDigits 16))

theorem toList_groupsText (gs : List Nat) : (groupsText gs).toList = groupsChars gs := by
  rw [groupsText, String.toList_intercalate, List.map_map]
  refine congrArg _ (List.map_congr_left fun g _ => ?_)
  simp [groupText]

theorem groupsChars_cons_cons (g g' : Nat) (gs : List Nat) :
    groupsChars (g :: g' :: gs) = Nat.toDigits 16 g ++ ':' :: groupsChars (g' :: gs) := by
  simp only [groupsChars, List.map_cons, List.intercalate_cons_cons, List.append_assoc,
    List.singleton_append]

theorem exists_groupsChars_eq_cons (g : Nat) (gs : List Nat) :
    ∃ c cs, c ≠ ':' ∧ groupsChars (g :: gs) = c :: cs := by
  obtain ⟨c, cs, hcs⟩ := List.exists_cons_of_ne_nil (Nat.toDigits_ne_nil (b := 16) (n := g))
  have hc : c ≠ ':' := fun h => colon_not_mem_toDigits g (by rw [hcs, h]; exact List.mem_cons_self)
  cases gs with
  | nil => exact ⟨c, cs, hc, by simpa [groupsChars] using hcs⟩
  | cons g' gs => exact ⟨c, _, hc, by rw [groupsChars_cons_cons, hcs, List.cons_append]⟩

theorem dot_not_mem_groupsChars (gs : List Nat) : '.' ∉ groupsChars gs := fun h =>
  Text.of_mem_intercalate (P := ('.' ≠ ·)) (by decide)
    (fun l hl x hx heq => by
      obtain ⟨g, -, rfl⟩ := List.mem_map.1 hl
      exact dot_not_mem_toDigits g (heq ▸ hx)) h rfl

theorem group?_toDigits (h : g < 65536) : group? (Nat.toDigits 16 g) = some g := by
  have hlength : (Nat.toDigits 16 g).length ≤ 4 := Text.length_toDigits_le (by decide) h
  rw [group?, if_neg (by omega), Text.digits?_toDigits (by decide) (by decide)]

theorem groups?_map (h : ∀ g ∈ gs, g < 65536) :
    groups? (gs.map (Nat.toDigits 16)) = some gs := by
  induction gs with
  | nil => rfl
  | cons g gs ih =>
    obtain ⟨hg, hgs⟩ := List.forall_mem_cons.1 h
    cases gs with
    | nil =>
      rw [List.map_singleton, groups?, if_neg (by simpa using dot_not_mem_toDigits g),
        group?_toDigits hg]
      rfl
    | cons g' gs =>
      rw [List.map_cons, List.map_cons, groups?, group?_toDigits hg, ← List.map_cons, ih hgs]
      · rfl
      · simp

theorem parts_groupsChars (gs : List Nat) :
    parts (groupsChars gs) = gs.map (Nat.toDigits 16) := by
  cases gs with
  | nil => rfl
  | cons g gs =>
    obtain ⟨c, cs, -, hcs⟩ := exists_groupsChars_eq_cons g gs
    rw [parts, if_neg (by simp [hcs]), groupsChars, List.splitOn_intercalate]
    · simp only [List.mem_map]
      rintro _ ⟨x, -, rfl⟩
      exact colon_not_mem_toDigits x
    · simp

/-! ### Gaps -/

theorem splitGap_append (h : ':' ∉ cs) (r : List Char) :
    splitGap (cs ++ r) = (splitGap r).map fun p => (cs ++ p.1, p.2) := by
  induction cs with
  | nil => simp
  | cons c cs ih =>
    obtain ⟨hc, hcs⟩ := not_or.1 (fun hmem => h (List.mem_cons.2 hmem))
    rw [List.cons_append, splitGap, ih hcs, Option.map_map]
    · rfl
    · rintro r' rfl
      exact absurd rfl hc

theorem splitGap_colon {c : Char} (h : c ≠ ':') (cs : List Char) :
    splitGap (':' :: c :: cs) = (splitGap (c :: cs)).map fun p => (':' :: p.1, p.2) := by
  rw [splitGap]
  rintro r - hr
  exact h (List.cons.inj hr).1

/-- There is no gap within groups. -/
theorem splitGap_groupsChars (gs : List Nat) (r : List Char) :
    splitGap (groupsChars gs ++ r) = (splitGap r).map fun p => (groupsChars gs ++ p.1, p.2) := by
  induction gs with
  | nil => simp [groupsChars]
  | cons g gs ih =>
    cases gs with
    | nil =>
      have hone : groupsChars [g] = Nat.toDigits 16 g := by simp [groupsChars]
      rw [hone]
      exact splitGap_append (colon_not_mem_toDigits g) r
    | cons g' gs =>
      obtain ⟨c, cs, hc, hcs⟩ := exists_groupsChars_eq_cons g' gs
      rw [groupsChars_cons_cons, List.append_assoc, splitGap_append (colon_not_mem_toDigits g),
        List.cons_append, hcs, List.cons_append, splitGap_colon hc, ← List.cons_append, ← hcs, ih,
        Option.map_map, Option.map_map]
      refine congrArg (Option.map · _) (funext fun p => ?_)
      simp

/-- The longest gap lies in a run of zeros. -/
theorem longestGap_le (gs : List Nat) :
    (longestGap gs).2 ≤ ((gs.drop (longestGap gs).1).takeWhile (· = 0)).length := by
  have hfold : ∀ (is : List Nat) (best : Nat × Nat),
      best.2 ≤ ((gs.drop best.1).takeWhile (· = 0)).length →
      ∀ r, r = is.foldl (fun best i =>
        let n := ((gs.drop i).takeWhile (· = 0)).length
        if n > best.2 then (i, n) else best) best →
      r.2 ≤ ((gs.drop r.1).takeWhile (· = 0)).length := by
    intro is
    induction is with
    | nil =>
      rintro best h r rfl
      exact h
    | cons i is ih =>
      intro best h
      refine ih _ ?_
      simp only
      split
      · exact Nat.le_refl _
      · exact h
  exact hfold (List.range gs.length) (0, 0) (Nat.zero_le _) _ rfl

/-- The groups on both sides of the longest gap, and the zeros in it. -/
theorem take_append_replicate (gs : List Nat) :
    gs.take (longestGap gs).1 ++ (List.replicate (longestGap gs).2 0 ++
      gs.drop ((longestGap gs).1 + (longestGap gs).2)) = gs := by
  generalize hgap : longestGap gs = gap
  obtain ⟨start, length⟩ := gap
  have hle := longestGap_le gs
  rw [hgap] at hle
  have hzeros : (gs.drop start).take length = List.replicate length 0 := by
    refine List.eq_replicate_iff.2 ⟨?_, fun x hx => ?_⟩
    · have hlength := (List.takeWhile_sublist (l := gs.drop start) (· = 0)).length_le
      rw [List.length_take]
      exact Nat.min_eq_left (Nat.le_trans hle hlength)
    · have hbegins : (gs.drop start).take length <+: (gs.drop start).takeWhile (· = 0) :=
        List.prefix_of_prefix_length_le (List.take_prefix ..) (List.takeWhile_prefix _)
          (Nat.le_trans (List.length_take_le ..) hle)
      simpa using List.mem_takeWhile_imp (hbegins.subset hx)
  rw [← hzeros, ← List.drop_drop, List.take_append_drop, List.take_append_drop]

/-- What holds of a colon and of all digits holds of every character of an address. -/
theorem of_mem_text {P : Char → Prop} {i : Ipv6} {c : Char} (hcolon : P ':')
    (hdigit : ∀ d < 16, P d.digitChar) (h : c ∈ i.text.toList) : P c := by
  have hgroups : ∀ gs, c ∈ (groupsText gs).toList → P c := by
    intro gs h
    rw [toList_groupsText] at h
    refine Text.of_mem_intercalate hcolon (fun l hl x hx => ?_) h
    obtain ⟨g, -, rfl⟩ := List.mem_map.1 hl
    exact Text.of_mem_toDigits (by decide) (by decide) hdigit hx
  simp only [text] at h
  split at h
  · exact hgroups _ h
  · rw [String.toList_append, String.toList_append, List.mem_append, List.mem_append] at h
    rcases h with (h | h) | h
    · exact hgroups _ h
    · obtain rfl : c = ':' := by simpa using h
      exact hcolon
    · exact hgroups _ h

/-! ### Reading -/

theorem lt_of_group? {p : List Char} {n : Nat} (h : group? p = some n) : n < 65536 := by
  unfold group? at h
  split at h <;> rename_i hlength
  · cases h
  · refine Nat.lt_of_lt_of_le (Text.lt_of_digits? h) ?_
    exact Nat.pow_le_pow_right (by decide : 16 > 0) (Nat.not_lt.1 hlength)

theorem lt_of_groups? {ps : List (List Char)} (h : groups? ps = some gs) (hg : g ∈ gs) :
    g < 65536 := by
  fun_induction groups? ps generalizing gs with
  | case1 =>
    cases h
    cases hg
  | case2 p hdot =>
    simp only [Option.bind_eq_bind, Option.bind_eq_some_iff, Option.pure_def,
      Option.some.injEq] at h
    obtain ⟨i, hi, rfl⟩ := h
    -- an address of version four at the end stands for two groups
    have hvalid := Ipv4.valid_of_parse? hi
    have ha := hvalid.a
    have hb := hvalid.b
    have hc := hvalid.c
    have hd := hvalid.d
    simp only [List.mem_cons, List.not_mem_nil, or_false] at hg
    omega
  | case3 p hdot =>
    simp only [Option.bind_eq_bind, Option.bind_eq_some_iff, Option.pure_def,
      Option.some.injEq] at h
    obtain ⟨n, hn, rfl⟩ := h
    exact List.mem_singleton.1 hg ▸ lt_of_group? hn
  | case4 p ps hps ih =>
    simp only [Option.bind_eq_bind, Option.bind_eq_some_iff, Option.pure_def,
      Option.some.injEq] at h
    obtain ⟨n, hn, ns, hns, rfl⟩ := h
    rcases List.mem_cons.1 hg with rfl | hg
    · exact lt_of_group? hn
    · exact ih hns hg

theorem valid_of_parse? {i : Ipv6} (h : parse? cs = some i) : i.Valid := by
  unfold parse? at h
  split at h
  · simp only [Option.bind_eq_bind, Option.bind_eq_some_iff] at h
    obtain ⟨gs, hgs, h⟩ := h
    split at h <;> rename_i hlength
    · cases h
      exact ⟨hlength, fun g hg => lt_of_groups? hgs hg⟩
    · cases h
  · split at h
    · cases h
    · simp only [Option.bind_eq_bind, Option.bind_eq_some_iff] at h
      obtain ⟨left, hleft, right, hright, h⟩ := h
      split at h <;> rename_i hsize
      · cases h
        refine ⟨?_, fun g hg => ?_⟩
        · simp only [List.length_append, List.length_replicate]
          omega
        · rcases List.mem_append.1 hg with hg | hg
          · rcases List.mem_append.1 hg with hg | hg
            · exact lt_of_groups? hleft hg
            · rw [List.eq_of_mem_replicate hg]
              decide
          · exact lt_of_groups? hright hg
      · cases h

/-- The text of an address is read back. -/
theorem parse?_text {i : Ipv6} (h : i.Valid) : parse? i.text.toList = some i := by
  obtain ⟨gs⟩ := i
  obtain ⟨hlength, hlt⟩ := h
  have hgap := take_append_replicate gs
  generalize hpair : longestGap gs = gap at hgap
  obtain ⟨start, length⟩ := gap
  simp only at hlength hlt hgap
  by_cases hshort : length ≤ 1
  · -- a single group of zeros is written out
    have hnone : splitGap (groupsChars gs) = none := by
      have h := splitGap_groupsChars gs []
      rwa [List.append_nil] at h
    simp only [text, hpair, if_pos hshort, toList_groupsText, parse?, hnone, parts_groupsChars,
      groups?_map hlt]
    exact if_pos hlength
  · have htext : (Ipv6.mk gs).text.toList =
        groupsChars (gs.take start) ++ ':' :: ':' :: groupsChars (gs.drop (start + length)) := by
      simp only [text, hpair, if_neg hshort, String.toList_append, toList_groupsText,
        List.append_assoc]
      rfl
    have hsplit := splitGap_groupsChars (gs.take start)
      (':' :: ':' :: groupsChars (gs.drop (start + length)))
    rw [splitGap, Option.map_some, List.append_nil] at hsplit
    have hdot : (groupsChars (gs.take start)).contains '.' = false := by
      simpa using dot_not_mem_groupsChars (gs.take start)
    have hleft : groups? (parts (groupsChars (gs.take start))) = some (gs.take start) := by
      rw [parts_groupsChars, groups?_map fun g hg => hlt g (List.mem_of_mem_take hg)]
    have hright : groups? (parts (groupsChars (gs.drop (start + length)))) =
        some (gs.drop (start + length)) := by
      rw [parts_groupsChars, groups?_map fun g hg => hlt g (List.mem_of_mem_drop hg)]
    -- the gap is filled up to eight groups again
    have hsum := congrArg List.length hgap
    simp only [List.length_append, List.length_replicate, hlength] at hsum
    have hsize : (gs.take start).length + (gs.drop (start + length)).length ≤ 7 := by omega
    have hzeros : 8 - ((gs.take start).length + (gs.drop (start + length)).length) = length := by
      omega
    simp only [htext, parse?, hsplit, hdot, hleft, hright, Option.bind_eq_bind, Option.bind_some,
      Bool.false_eq_true, if_false, if_pos hsize, hzeros, List.append_assoc, hgap]
    rfl

end Ipv6
end Net
end Outbox

import Outbox.Proofs.Json.RoundTrip

/-!
# Records are decoded field by field

The members of a record whose names are those of the fields, in their order, go into one slot each.
A record therefore decodes as soon as each value decodes for its field (`decodeRecord_record`).
-/

namespace Outbox.Json

/-- The members have the names of the fields, in order, and their values decode to the row. -/
inductive Row.DecodedFrom : (fs : List Field) → List (String × Json) → Row fs → Prop
  | nil : Row.DecodedFrom [] [] ()
  | cons {f : Field} {fs : List Field} {v : Json} {a : f.Value} {ms : List (String × Json)}
      {r : Row fs} (hv : f.decode v = .ok a) (h : Row.DecodedFrom fs ms r) :
      Row.DecodedFrom (f :: fs) ((f.name, v) :: ms) (a, r)

section
variable {fs : List Field} {ms : List (String × Json)}

theorem decodeText_text (s : String) : decodeText (text s) = .ok s := rfl

theorem decodeInt_int {bits : Nat} {name : String} {i : Int}
    (h : -(Nat.pow 2 (bits - 1) : Int) ≤ i ∧ i < Nat.pow 2 (bits - 1)) :
    decodeInt bits name (int i) = .ok i := if_pos h

/-- A value that may be absent is read by the reader of those that are there. -/
theorem decodeOption_option {α : Type} {f : α → Json} {d : Decoder α} {a : Option α}
    (hnull : ∀ x, f x ≠ null) (hd : ∀ x ∈ a, d (f x) = .ok x) :
    decodeOption d (option f a) = .ok a := by
  cases a with
  | none => rfl
  | some x =>
    change decodeOption d (f x) = _
    unfold decodeOption
    split
    · exact absurd ‹_› (hnull x)
    · rw [hd x rfl]
      rfl

theorem Row.DecodedFrom.names {r : Row fs} (h : Row.DecodedFrom fs ms r) :
    ms.map (·.1) = fs.map (·.name) := by
  induction h with
  | nil => rfl
  | cons _ _ ih => exact congrArg (List.cons _) ih

def Slots.full : (fs : List Field) → Row fs → Slots fs
  | [], _ => ()
  | _ :: fs, (a, r) => (some a, Slots.full fs r)

theorem Slots.toRow_full (fs : List Field) (r : Row fs) :
    Slots.toRow fs (Slots.full fs r) = .ok r := by
  induction fs with
  | nil => rfl
  | cons f fs ih =>
    obtain ⟨a, r⟩ := r
    change (Slots.toRow fs (Slots.full fs r) >>= fun r => .ok (a, r)) = _
    rw [ih]
    rfl

/-- Members of other names leave the first slot alone. -/
theorem Slots.putAll_cons {f : Field} (h : f.name ∉ ms.map (·.1)) (a : Option f.Value)
    (s : Slots fs) :
    Slots.putAll (f :: fs) (members ms) (a, s) =
      Slots.putAll fs (members ms) s >>= fun s => .ok (a, s) := by
  induction ms generalizing s with
  | nil => rfl
  | cons m ms ih =>
    simp only [List.map_cons, List.mem_cons, not_or] at h
    have hput : Slots.put (f :: fs) m.1 m.2 (a, s) =
        Slots.put fs m.1 m.2 s >>= fun s => .ok (a, s) := if_neg h.1
    change (Slots.put (f :: fs) m.1 m.2 (a, s) >>= Slots.putAll (f :: fs) (members ms)) =
      (Slots.put fs m.1 m.2 s >>= Slots.putAll fs (members ms)) >>= fun s => .ok (a, s)
    rw [hput]
    -- an error of a later slot is the error of both sides
    cases Slots.put fs m.1 m.2 s with
    | error e => rfl
    | ok s => exact ih h.2 s

theorem Slots.putAll_members {r : Row fs} (hfs : (fs.map (·.name)).Nodup)
    (h : Row.DecodedFrom fs ms r) :
    Slots.putAll fs (members ms) (Slots.empty fs) = .ok (Slots.full fs r) := by
  induction h with
  | nil => rfl
  | @cons f fs v a ms r hv h ih =>
    obtain ⟨hf, hfs⟩ := List.nodup_cons.1 hfs
    have hput : Slots.put (f :: fs) f.name v (Slots.empty (f :: fs)) =
        .ok (some a, Slots.empty fs) := by
      refine Eq.trans (if_pos rfl) ?_
      rw [hv]
      rfl
    change (Slots.put (f :: fs) f.name v (Slots.empty (f :: fs)) >>=
      Slots.putAll (f :: fs) (members ms)) = _
    rw [hput]
    change Slots.putAll (f :: fs) (members ms) (some a, Slots.empty fs) = _
    rw [Slots.putAll_cons (h.names ▸ hf), ih hfs]
    rfl

theorem Row.DecodedFrom.required {α : Type} {name : String} {d : Decoder α} {v : Json} {a : α}
    {r : Row fs} (hv : d v = .ok a) (h : Row.DecodedFrom fs ms r) :
    Row.DecodedFrom (.required name d :: fs) ((name, v) :: ms) (a, r) := .cons hv h

theorem Row.DecodedFrom.optional {α : Type} {name : String} {d : Decoder α} {v : Json}
    {a : Option α} {r : Row fs} (hv : decodeOption d v = .ok a) (h : Row.DecodedFrom fs ms r) :
    Row.DecodedFrom (.optional name d :: fs) ((name, v) :: ms) (a, r) := .cons hv h

theorem decodeRecord_record (name : String) {r : Row fs} (hfs : (fs.map (·.name)).Nodup)
    (h : Row.DecodedFrom fs ms r) : decodeRecord name fs (record ms) = .ok r := by
  change (Slots.putAll fs (members ms) (Slots.empty fs) >>= Slots.toRow fs) = _
  rw [Slots.putAll_members hfs h]
  exact Slots.toRow_full fs r

end

end Outbox.Json

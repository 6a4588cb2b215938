import Outbox.Scenario.Loop
import Outbox.Proofs.Scenario.Quiet

/-!
# What a loop watches

A loop watches four things of its world: the shutdown signal, whether somebody can still set it, and
the two settings. Who calls the store or sends a message neither reads nor changes any of them
(`Aloof`); they change only by what happens, in the order of the schedule, while time passes
(`Passage`).
-/

namespace Outbox.Scenario

open Config (Cell Watcher)

/-- What a loop can watch of its world. -/
structure Watched where
  signal : Cell Bool
  signalled : Bool
  relay : Cell RelayConfig
  cleaner : Cell CleanerConfig

def Watched.happen (v : Watched) : Happening → Watched
  | .signal stop => { v with signal := v.signal.update stop }
  | .dropSignal => { v with signalled := false }
  | .relayConfig c => { v with relay := v.relay.update c }
  | .cleanerConfig c => { v with cleaner := v.cleaner.update c }
  | .insert _ => v

/-- What is watched after some of a schedule has happened. -/
def Watched.after (v : Watched) (done : List (Millis × Happening)) : Watched :=
  done.foldl (fun v p => v.happen p.2) v

theorem Watched.after_append (v : Watched) (ps qs : List (Millis × Happening)) :
    v.after (ps ++ qs) = (v.after ps).after qs := List.foldl_append

namespace World

def watched (w : World) : Watched := ⟨w.signal, w.signalled, w.relay, w.cleaner⟩

/-- The same world with other things to watch and to come. -/
def under (w : World) (v : Watched) (hs : List (Millis × Happening)) : World :=
  { w with
    signal := v.signal
    signalled := v.signalled
    relay := v.relay
    cleaner := v.cleaner
    schedule := hs }

variable {w w' w'' : World} {v : Watched} {hs : List (Millis × Happening)}

/-! ### What takes no time -/

/-- It takes no time and has nothing to do with what is watched or to come. -/
structure Aloof {α : Type} (f : World → α × World) : Prop where
  under : ∀ w v hs, f (w.under v hs) = ((f w).1, (f w).2.under v hs)
  time : ∀ w, (f w).2.time = w.time

section
variable {α : Type} {f : World → α × World}

theorem Aloof.eq_under (h : Aloof f) (w : World) :
    (f w).2 = (f w).2.under w.watched w.schedule :=
  congrArg Prod.snd (h.under w w.watched w.schedule)

theorem Aloof.watched (h : Aloof f) (w : World) : (f w).2.watched = w.watched := by
  rw [h.eq_under]
  rfl

theorem Aloof.schedule (h : Aloof f) (w : World) : (f w).2.schedule = w.schedule := by
  rw [h.eq_under]
  rfl

theorem Aloof.congr {g : World → α × World} (h : Aloof f) (hg : ∀ w, g w = f w) : Aloof g := by
  rwa [show g = f from funext hg]

/-- What depends on its result in the world may do so. -/
theorem Aloof.read {κ : Type} {g : κ → World → α × World} {k : World → κ}
    (hg : ∀ x, Aloof (g x)) (hk : ∀ w v hs, k (w.under v hs) = k w) : Aloof fun w => g (k w) w where
  under w v hs := by rw [hk, (hg (k w)).under]
  time w := (hg (k w)).time w

/-- One after the other. -/
theorem Aloof.seq {β : Type} {g : α → World → β × World} (hf : Aloof f) (hg : ∀ a, Aloof (g a)) :
    Aloof fun w => g (f w).1 (f w).2 where
  under w v hs := by rw [hf.under, (hg _).under]
  time w := ((hg _).time _).trans (hf.time w)

/-- One after the other, unless the first crashes. -/
theorem Aloof.bind {β γ : Type} {f : World → Except Crash β × World}
    {g : β → World → Except Crash γ × World} {k : World → Except Crash γ × World}
    (hf : Aloof f) (hg : ∀ a, Aloof (g a))
    (herror : ∀ {w e w'}, f w = (.error e, w') → k w = (.error e, w'))
    (hok : ∀ {w a w'}, f w = (.ok a, w') → k w = g a w') : Aloof k := by
  refine (hf.seq (g := fun x w => match x with | .error e => (.error e, w) | .ok a => g a w)
    ?_).congr fun w => ?_
  · rintro (e | a)
    · exact ⟨fun _ _ _ => rfl, fun _ => rfl⟩
    · exact hg a
  · rcases h : f w with ⟨e | a, w'⟩
    · exact herror h
    · exact hok h

end

theorem aloof_log (m : Call.Method) : Aloof fun w => ((), w.log m) :=
  ⟨fun _ _ _ => rfl, fun _ => rfl⟩

theorem aloof_nextFault (m : Call.Method) : Aloof (·.nextFault m) where
  under w v hs := by
    have hf : (w.under v hs).faults m = w.faults m := rfl
    simp only [nextFault, hf]
    split <;> rfl
  time w := by
    simp only [nextFault]
    split <;> rfl

theorem aloof_performDirect (c : Call) : Aloof (·.performDirect c) where
  under w v hs := by
    have ht : (w.under v hs).table = w.table := rfl
    simp only [performDirect, ht]
    split <;> rfl
  time w := by
    simp only [performDirect]
    split <;> rfl

/-- A call that is answered beforehand does not reach the store. -/
theorem aloof_answered (c : Call) (answer? : Option c.Answer) : Aloof fun w => match answer? with
    | some a => (.ok a, w)
    | none => w.performDirect c := by
  cases answer? with
  | none => exact aloof_performDirect c
  | some a => exact ⟨fun _ _ _ => rfl, fun _ => rfl⟩

theorem aloof_perform (c : Call) : Aloof (·.perform c) :=
  ((aloof_log c.method).seq fun _ => (aloof_nextFault c.method).seq fun f =>
    aloof_answered c (f.bind (·.answer? c))).congr fun _ => rfl

theorem aloof_changed (next : Store → Option Store) : Aloof fun w => w.changed (next w.store) where
  under w v hs := by
    have hstore : (w.under v hs).store = w.store := rfl
    simp only [hstore]
    cases next w.store <;> rfl
  time w := by
    cases next w.store <;> rfl

theorem aloof_append (tx : String) (e : Event) : Aloof (·.append tx e) where
  under w v hs := by
    simp only [append, readClock, under]
    split <;> rfl
  time w := by
    simp only [append, readClock]
    split <;> rfl

theorem aloof_keep (name : Option String) (c : Call) (a : c.Answer) :
    Aloof fun w => ((.ok (.answer c a) : Except Crash Seen), w.keep name c a) where
  under w v hs := by
    unfold keep
    split
    · cases name <;> rfl
    · rfl
  time w := by
    unfold keep
    split
    · cases name <;> rfl
    · rfl

theorem keep_none (w : World) (c : Call) (a : c.Answer) : w.keep none c a = w := by
  unfold keep
  split <;> rfl

theorem aloof_call (c : Call) (name : Option String) :
    Aloof (·.act performDirect (.call c name)) :=
  (aloof_performDirect c).bind (aloof_keep name c) (fun h => by simp only [act, h])
    fun h => by simp only [act, h]

theorem aloof_act (a : Action) : Aloof (·.act performDirect a) := by
  cases a with
  | begin | entries => exact ⟨fun _ _ _ => rfl, fun _ => rfl⟩
  | insert tx e => exact aloof_changed (·.insert? tx e)
  | commit tx => exact aloof_changed (·.commit? tx)
  | rollback tx => exact aloof_changed (·.rollback? tx)
  | append tx event fault =>
    match event, fault with
    | .error e, _ => exact ⟨fun _ _ _ => rfl, fun _ => rfl⟩
    | .ok e, some _ => exact ⟨fun _ _ _ => rfl, fun _ => rfl⟩
    | .ok e, none =>
      exact ((aloof_append tx e).seq (g := fun s w => (.ok s, w))
        fun _ => ⟨fun _ _ _ => rfl, fun _ => rfl⟩).congr fun _ => rfl
  | call c name => exact aloof_call c name
  | callWith name c =>
    -- a call with a claim is one that keeps none, the claim being read off the world
    refine (Aloof.read (k := (·.kept name)) (fun k => aloof_call (c k) none)
      fun _ _ _ => rfl).congr fun w => ?_
    simp only [act]
    rcases w.performDirect (c (w.kept name)) with ⟨_ | a, w'⟩
    · rfl
    · simp only [keep_none]

theorem aloof_actAll (as : List Action) : Aloof (·.actAll as) := by
  induction as with
  | nil => exact ⟨fun _ _ _ => rfl, fun _ => rfl⟩
  | cons a as ih =>
    exact (aloof_act a).bind (fun _ => ih) (fun h => by simp only [actAll, h])
      fun h => by simp only [actAll, h]

theorem aloof_nextReply : Aloof nextReply where
  under w v hs := by
    simp only [nextReply, under]
    split <;> rfl
  time w := by
    simp only [nextReply]
    split <;> rfl

/-- What is done before a reply comes. -/
theorem aloof_before (r : Reply) : Aloof fun w => match w.actAll r.before with
    | (.error e, w) => ((.error e : Except Crash Reply), w)
    | (.ok (), w) => (.ok r, w) :=
  (aloof_actAll r.before).bind (g := fun _ w => (.ok r, w))
    (fun _ => ⟨fun _ _ _ => rfl, fun _ => rfl⟩) (fun h => by simp only [h])
    fun h => by simp only [h]

theorem aloof_send (m : Message) : Aloof (·.send m) := by
  have hsent : Aloof fun w => ((), { w with sent := (w.time, m) :: w.sent }) :=
    ⟨fun _ _ _ => rfl, fun _ => rfl⟩
  exact (hsent.seq fun _ => aloof_nextReply.seq fun r => aloof_before r).congr fun _ => rfl

/-! ### What time brings -/

/-- What is to come stands in the order of time and has not come yet. -/
structure Timely (w : World) : Prop where
  sorted : w.schedule.Pairwise (·.1 ≤ ·.1)
  future : ∀ p ∈ w.schedule, w.time < p.1

/-- Nothing but `done` has happened on the way from one world to a later one. -/
structure Passage (w : World) (done : List (Millis × Happening)) (w' : World) : Prop where
  schedule : w.schedule = done ++ w'.schedule
  watched : w'.watched = w.watched.after done
  time : w.time ≤ w'.time
  past : ∀ p ∈ done, p.1 ≤ w'.time
  timely : w'.Timely

theorem Passage.refl (h : w.Timely) : w.Passage [] w :=
  ⟨rfl, rfl, Nat.le_refl _, fun _ hp => absurd hp List.not_mem_nil, h⟩

theorem Passage.trans {ps qs : List (Millis × Happening)} (h : w.Passage ps w')
    (h' : w'.Passage qs w'') : w.Passage (ps ++ qs) w'' where
  schedule := by rw [h.schedule, h'.schedule, List.append_assoc]
  watched := by rw [h'.watched, h.watched, Watched.after_append]
  time := Nat.le_trans h.time h'.time
  past p hp := (List.mem_append.1 hp).elim (fun hp => Nat.le_trans (h.past p hp) h'.time)
    (h'.past p)
  timely := h'.timely

theorem Aloof.passage {α : Type} {f : World → α × World} (hf : Aloof f) (h : w.Timely) :
    w.Passage [] (f w).2 where
  schedule := (hf.schedule w).symm
  watched := hf.watched w
  time := Nat.le_of_eq (hf.time w).symm
  past _ hp := absurd hp List.not_mem_nil
  timely := ⟨hf.schedule w ▸ h.sorted, hf.schedule w ▸ hf.time w ▸ h.future⟩

theorem watched_happen (w : World) (h : Happening) : (w.happen h).watched = w.watched.happen h := by
  cases h <;> rfl

/-- Before a time happens what stands first and is due by then. -/
theorem happenUntil_eq (t : Millis) (hs : List (Millis × Happening)) (w : World) :
    (happenUntil t hs w).schedule = hs.dropWhile (·.1 ≤ t) ∧
      (happenUntil t hs w).watched = w.watched.after (hs.takeWhile (·.1 ≤ t)) := by
  induction hs generalizing w with
  | nil => exact ⟨rfl, rfl⟩
  | cons p hs ih =>
    obtain ⟨s, h⟩ := p
    unfold happenUntil
    by_cases hst : s ≤ t
    · rw [if_pos hst, List.dropWhile_cons_of_pos (by simpa), List.takeWhile_cons_of_pos (by simpa)]
      obtain ⟨hschedule, hwatched⟩ := ih (w.happen h)
      exact ⟨hschedule, hwatched.trans (by rw [watched_happen]; rfl)⟩
    · rw [if_neg hst, List.dropWhile_cons_of_neg (by simpa using hst),
        List.takeWhile_cons_of_neg (by simpa using hst)]
      exact ⟨rfl, rfl⟩

theorem lt_of_mem_dropWhile {t : Millis} {hs : List (Millis × Happening)}
    (h : hs.Pairwise (·.1 ≤ ·.1)) : ∀ p ∈ hs.dropWhile (·.1 ≤ t), t < p.1 := by
  induction hs with
  | nil => exact fun p hp => absurd hp List.not_mem_nil
  | cons q hs ih =>
    obtain ⟨hq, hs⟩ := List.pairwise_cons.1 h
    by_cases hqt : q.1 ≤ t
    · rw [List.dropWhile_cons_of_pos (by simpa)]
      exact ih hs
    · rw [List.dropWhile_cons_of_neg (by simpa using hqt)]
      rintro p (_ | ⟨_, hp⟩)
      · exact Nat.not_le.1 hqt
      · exact Nat.lt_of_lt_of_le (Nat.not_le.1 hqt) (hq p hp)

theorem timely_advance {t : Millis} (hs : w.schedule.Pairwise (·.1 ≤ ·.1)) (ht : w.time ≤ t) :
    (w.advance t).Timely := by
  have hschedule : (w.advance t).schedule = _ := (happenUntil_eq t w.schedule w).1
  constructor
  · rw [hschedule]
    exact hs.sublist (List.dropWhile_sublist _)
  · intro p hp
    rw [hschedule] at hp
    have hlt := lt_of_mem_dropWhile hs p hp
    exact Nat.max_lt.2 ⟨Nat.lt_of_le_of_lt ht hlt, hlt⟩

theorem passage_advance {t : Millis} (hs : w.schedule.Pairwise (·.1 ≤ ·.1)) (ht : w.time ≤ t) :
    w.Passage (w.schedule.takeWhile (·.1 ≤ t)) (w.advance t) where
  schedule := by
    have hschedule : (w.advance t).schedule = _ := (happenUntil_eq t w.schedule w).1
    rw [hschedule, List.takeWhile_append_dropWhile]
  watched := (happenUntil_eq t w.schedule w).2
  time := Nat.le_max_left ..
  past p hp := by
    have hpt : p.1 ≤ t := by simpa using List.all_eq_true.1 List.all_takeWhile p hp
    exact Nat.le_trans hpt (Nat.le_max_right ..)
  timely := timely_advance hs ht

end World
end Outbox.Scenario

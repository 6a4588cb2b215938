import Outbox.Proofs.Relay.Fleet

/-!
# No entry is lost

Whatever a fleet does and whichever calls fail, a committed entry stays in the table until a purge
removes it, and it is only published or purged after the broker acknowledged its message. The
invariant is `Sound`: a tick that is about to record a delivery has an acknowledged message of the
entry it holds, and every published or purged row has one.
-/

namespace Outbox

open Relay (Tick)

theorem Message.ofEntry_eq_of_origin_eq {e e' : Entry} (h : e.origin = e'.origin) :
    ofEntry e = ofEntry e' := by
  simp only [Entry.origin, Entry.Origin.mk.injEq, Draft.mk.injEq] at h
  simp only [ofEntry, h]

theorem Turn.published_of_status {d : Deed} {e e' : Entry} (h : Turn d e e')
    (hs : e'.status = .published) : ∃ claim now, d = .published claim now := by
  cases h with
  | published => exact ⟨_, _, rfl⟩
  | claimed pending => rw [Entry.leased, pending] at hs; cases hs
  | @retried e c error maxRetry held =>
    change (if e.retryCount + 1 ≥ maxRetry then Status.failed else e.status) = .published at hs
    rw [held.pending] at hs
    split at hs <;> cases hs
  | rejected | retired | replayed => cases hs

namespace History
variable {es : List Entry} {h : History}

/-- Entries that were committed with one id are one. -/
theorem Ledger.origin_eq (l : Ledger es h) (hn : (es.map (·.id)).Nodup) {e e₁ : Entry}
    (he : e ∈ h.table) (he₁ : ∃ e₀ ∈ h.committed, e₀.origin = e₁.origin) (hid : e.id = e₁.id) :
    e.origin = e₁.origin := by
  obtain ⟨e₀, he₀, ho⟩ := l.exists_committed he
  obtain ⟨e₀', he₀', ho'⟩ := he₁
  have hid₀ : e₀.id = e₀'.id := by
    rw [show e₀.id = e.id from congrArg Entry.Origin.id ho, hid]
    exact (congrArg Entry.Origin.id ho').symm
  rw [← ho, ← ho', List.inj_on_of_nodup_map (l.committed_nodup hn) he₀ he₀' hid₀]

theorem published_of_mem_purgedBy {t : Table} (ht : t.Distinct) {c : Call} {e : Entry}
    (he : e ∈ purgedBy t (t.answer c).2 c) : e ∈ t ∧ e.status = .published := by
  cases c with
  | deletePublished before limit lock =>
    obtain ⟨het, hnot⟩ := List.mem_filter.1 he
    obtain ⟨f, heff⟩ := Table.exists_effect ht (.deletePublished before limit lock)
    rcases heff.row_cases het with ⟨he', _⟩ | ⟨_, hd, _⟩ | ⟨_, _, _, _, ho⟩
    · simp [he'] at hnot
    · cases hd
    · simp only [Table.isOutdated, Bool.and_eq_true, decide_eq_true_eq] at ho
      exact ⟨het, ho.1⟩
  | _ => cases he

end History

namespace Fleet

def Acknowledged (f : Fleet) (m : Message) : Prop := (m, some (.ok ())) ∈ f.sends

/-- What a tick in a phase may rely on. -/
structure SoundPhase (f : Fleet) (p : Tick.Phase) : Prop where
  held : ∀ held, p.held? = some held → held.claim.entryId = held.entry.id ∧
    ∃ e ∈ f.history.committed, e.origin = held.entry.origin
  delivered : ∀ held rest report, p = .record held (.ok ()) rest report →
    f.Acknowledged (.ofEntry held.entry)

/-- Whatever is published or purged was acknowledged. -/
structure Sound (f : Fleet) : Prop where
  phase : ∀ i t p, f.jobs i = some ⟨t, p⟩ → f.SoundPhase p
  published : ∀ e ∈ f.table, e.status = .published → f.Acknowledged (.ofEntry e)
  purged : ∀ e ∈ f.history.purged, f.Acknowledged (.ofEntry e)

theorem SoundPhase.of_held?_eq_none {f : Fleet} {p : Tick.Phase} (h : p.held? = none) :
    f.SoundPhase p where
  held held hh := by rw [h] at hh; cases hh
  delivered held rest report hp := by rw [hp] at h; cases h

theorem SoundPhase.mono {f f' : Fleet} {p : Tick.Phase} (h : f.SoundPhase p)
    (hc : f.history.committed ⊆ f'.history.committed) (hs : f.sends ⊆ f'.sends) :
    f'.SoundPhase p where
  held held hh := by
    obtain ⟨hid, e, he, ho⟩ := h.held held hh
    exact ⟨hid, e, hc he, ho⟩
  delivered held rest report hp := hs (h.delivered held rest report hp)

namespace Sound
variable {es : List Entry} {f f' : Fleet}

/-- What a worker does next matters only in its own phase. -/
theorem assign (hs : Sound f) {i : Nat} {j : Option Job}
    (hj : ∀ t p, j = some ⟨t, p⟩ → f.SoundPhase p) : Sound (f.assign f.history i j) where
  phase k t p hp := by
    rcases jobs_assign hp with h | ⟨_, h⟩
    · exact (hj t p h).mono (List.Subset.refl _) (List.Subset.refl _)
    · exact (hs.phase k t p h).mono (List.Subset.refl _) (List.Subset.refl _)
  published := hs.published
  purged := hs.purged

theorem answered (hs : Sound f) (l : f.history.Ledger es) (hn : (es.map (·.id)).Nodup) (c : Call)
    (hc : ∀ claim now, c = .markPublished claim now → ∀ e ∈ f.table, e.id = claim.entryId →
      f.Acknowledged (.ofEntry e)) :
    Sound { f with
      history := f.history.answered c (f.table.answer c).1 (f.table.answer c).2 } where
  phase i t p hp := (hs.phase i t p hp).mono (List.Subset.refl _) (List.Subset.refl _)
  published e' he' hst := by
    obtain ⟨g, heff⟩ := Table.exists_effect (l.distinct hn) c
    rcases heff.mem_cases he' with ⟨he', _⟩ | ⟨d, hd, e, he, turn⟩
    · exact hs.published e' he' hst
    · obtain ⟨claim, now, rfl⟩ := turn.published_of_status hst
      have := hc claim now (Call.eq_markPublished hd) e he turn.entryId_eq.symm
      rwa [Message.ofEntry_eq_of_origin_eq turn.origin_eq]
  purged e he := by
    rcases List.mem_append.1 he with he | he
    · exact hs.purged e he
    · obtain ⟨he, hst⟩ := History.published_of_mem_purgedBy (l.distinct hn) he
      exact hs.published e he hst

theorem stepped (hs : Sound f) (l : f.history.Ledger es) (hn : (es.map (·.id)).Nodup)
    (hu : ∀ e ∈ es, e.status = .pending) {op : Store.Op} (ho : op.isOutside) {h : History}
    (hst : History.Stepped f.history op h) : Sound { f with history := h } := by
  cases hst with
  | same => exact hs
  | staged =>
    refine ⟨fun i t p hp => ?_, hs.published, hs.purged⟩
    exact (hs.phase i t p hp).mono (List.Subset.refl _) (List.Subset.refl _)
  | committed source =>
    refine ⟨fun i t p hp => ?_, fun e he hst => ?_, hs.purged⟩
    · exact (hs.phase i t p hp).mono (List.subset_append_left ..) (List.Subset.refl _)
    · rcases List.mem_append.1 he with he | he
      · exact hs.published e he hst
      · have hstaged := source.subset (List.mem_append_left _ he)
        rw [hu e (l.source.subset (List.mem_append_right _ hstaged))] at hst
        cases hst
  | @answered c eq =>
    refine hs.answered l hn c fun claim now hc => ?_
    subst eq hc
    cases ho

theorem step (hs : Sound f) (l : f.history.Ledger es) (hn : (es.map (·.id)).Nodup)
    (hu : ∀ e ∈ es, e.status = .pending) {m : Move} (hm : Moved f m f') : Sound f' := by
  cases hm with
  | same => exact hs
  | dropped => exact hs.assign fun _ _ h => by cases h
  | started => exact hs.assign fun _ _ h => by cases h; exact .of_held?_eq_none rfl
  | failed job ask e =>
    exact hs.assign fun _ _ h => by cases h; exact .of_held?_eq_none (Tick.held?_error ask e)
  | used outside stepped => exact hs.stepped l hn hu outside stepped
  | @answered i t p c next job ask =>
    have hp := hs.phase i t p job
    refine (hs.answered l hn c fun claim now hc e he hid => ?_).assign fun t' p' h => ?_
    · -- Only the phase after an acknowledged send asks to mark an entry as published.
      subst hc
      rcases Tick.ask_call_cases ask with hc | hc | ⟨_, hc⟩ | ⟨held, d, rest, report, rfl, hc⟩
      · cases hc
      · cases hc
      · cases hc
      · obtain ⟨rfl, rfl⟩ := Tick.outcomeCall_eq_markPublished hc.symm
        obtain ⟨hid', hcom⟩ := hp.held held rfl
        rw [Message.ofEntry_eq_of_origin_eq (l.origin_eq hn he hcom (hid.trans hid'))]
        exact hp.delivered held rest report rfl
    · cases h
      refine ⟨fun held hh => ?_, fun held rest report hr => ?_⟩
      · obtain ⟨e, he, _, _, _, rfl⟩ := Tick.held_of_answer ask hh
        obtain ⟨e₀, he₀, ho⟩ := l.exists_committed he
        exact ⟨rfl, e₀, he₀, ho⟩
      · exact absurd hr (Tick.next_ne_record ask _ held _ rest report)
  | @sent i reply t held rest report job =>
    have hp := hs.phase i t _ job
    have hsub : f.sends ⊆ (.ofEntry held.entry, reply) :: f.sends := List.subset_cons_self ..
    refine ⟨fun k t' p' h => ?_, fun e he hst => hsub (hs.published e he hst),
      fun e he => hsub (hs.purged e he)⟩
    rcases jobs_assign (h := f.history) h with h | ⟨_, h⟩
    · cases h
      refine ⟨fun held' hh => ?_, fun held' rest' report' hr => ?_⟩
      · cases hh
        exact hp.held held rfl
      · cases reply with
        | none => cases hr
        | some d => cases hr; exact List.mem_cons_self
    · exact (hs.phase k t' p' h).mono (List.Subset.refl _) hsub

end Sound

theorem sound_empty : Sound empty where
  phase _ _ _ h := absurd h (Option.some_ne_none _).symm
  published _ he := absurd he List.not_mem_nil
  purged _ he := absurd he List.not_mem_nil

theorem sound_run (ms : List Move) (hn : ((inserted ms).map (·.id)).Nodup)
    (hu : ∀ e ∈ inserted ms, e.status = .pending) :
    (run ms).history.Ledger (inserted ms) ∧ Sound (run ms) := by
  let P es (f : Fleet) := f.history.Ledger es ∧ ((∀ e ∈ es, e.status = .pending) → Sound f)
  have h : P (inserted ms) (run ms) := by
    refine run_induction ⟨⟨.refl _, List.Subperm.refl _⟩, fun _ => sound_empty⟩ ?_ ms hn
    rintro es f m hn ⟨l, hs⟩
    refine ⟨(f.moved m).ledger l hn, fun hu => ?_⟩
    have hu := fun e he => hu e (List.mem_append_left _ he)
    exact (hs hu).step l hn hu (f.moved m)
  exact ⟨h.1, h.2 hu⟩

theorem status_of_mem_inserted {ms : List Move}
    (hc : ∀ tx e, .use (.insert tx e) ∈ ms → ∃ id d now, Entry.create id d now = .ok e)
    {e : Entry} (he : e ∈ inserted ms) : e.status = .pending := by
  have hnew : ∃ id d now, Entry.create id d now = .ok e := by
    obtain ⟨m, hm, he⟩ := List.mem_filterMap.1 he
    cases m with
    | use op =>
      rcases Store.Op.incoming?_eq_some he with ⟨tx, rfl⟩ | ⟨tx, event, id, now, rfl, hev⟩
      · exact hc tx e hm
      · obtain ⟨d, hd⟩ := Event.exists_create_of_entry hev
        exact ⟨id, d, now, hd⟩
    | start | call | send | drop => cases he
  obtain ⟨id, d, now, h⟩ := hnew
  rw [Entry.eq_fresh_of_create h]
  rfl

/-- Whatever a fleet does, a committed entry is in the table or a purge removed it; and once it is
published or removed, the broker acknowledged a message with what was committed. -/
theorem committed_delivered (ms : List Move)
    (hc : ∀ tx e, .use (.insert tx e) ∈ ms → ∃ id d now, Entry.create id d now = .ok e)
    (hn : ((inserted ms).map (·.id)).Nodup) {e : Entry} (he : e ∈ (run ms).history.committed) :
    ((∃ r ∈ (run ms).table, r.origin = e.origin) ∨
      ∃ r ∈ (run ms).history.purged, r.origin = e.origin) ∧
    ((∃ r ∈ (run ms).table, r.id = e.id ∧ r.status = .published) ∨
        (∃ r ∈ (run ms).history.purged, r.id = e.id) →
      ∃ m, (m, some (.ok ())) ∈ (run ms).sends ∧ m.entryId = e.id ∧ m.topic = e.topic ∧
        m.key = e.aggregateId ∧ m.eventType = e.eventType ∧ m.payload = e.payload) := by
  obtain ⟨l, hs⟩ := sound_run ms hn fun _ => status_of_mem_inserted hc
  obtain ⟨r, hr, ho⟩ := List.mem_map.1 (l.balance.symm.subset (List.mem_map_of_mem he))
  -- The table and the purged rows have each id once, so it does not matter which row was seen.
  have hm : ∀ r' ∈ (run ms).table ++ (run ms).history.purged, r'.id = e.id →
      Message.ofEntry r' = Message.ofEntry e := by
    intro r' hr' hid
    have := List.inj_on_of_nodup_map (l.table_append_purged_nodup hn) hr' hr
      (hid.trans (congrArg Entry.Origin.id ho).symm)
    rw [this, Message.ofEntry_eq_of_origin_eq ho]
  refine ⟨?_, fun h => ⟨.ofEntry e, ?_, rfl, rfl, rfl, rfl, rfl⟩⟩
  · exact (List.mem_append.1 hr).imp (⟨r, ·, ho⟩) (⟨r, ·, ho⟩)
  · rcases h with ⟨r', hr', hid, hst⟩ | ⟨r', hr', hid⟩
    · rw [← hm r' (List.mem_append_left _ hr') hid]
      exact hs.published r' hr' hst
    · rw [← hm r' (List.mem_append_right _ hr') hid]
      exact hs.purged r' hr'

/-- A tick is dropped after its send, so another worker sends the message once more. -/
def resent : List Move :=
  [.use (.begin "tx"), .use (.insert "tx" .sample), .use (.commit "tx"),
    .start 0 "w1" .default 10, .call 0 none, .call 0 none, .call 0 none, .send 0 (some (.ok ())),
    .drop 0, .start 1 "w2" .default 300000000011, .call 1 none, .call 1 none, .call 1 none,
    .send 1 (some (.ok ())), .call 1 none,
    .use (.call (.deletePublished 300000000012 100 0) none)]

theorem resent_delivered :
    (∀ tx e, .use (.insert tx e) ∈ resent → ∃ id d now, Entry.create id d now = .ok e) ∧
    ((inserted resent).map (·.id)).Nodup ∧ Entry.sample ∈ (run resent).history.committed ∧
    (∃ r ∈ (run resent).history.purged, r.id = Entry.sample.id) ∧
    ∃ m, (m, some (.ok ())) ∈ (run resent).sends ∧ m.entryId = Entry.sample.id ∧
      m.topic = Entry.sample.topic ∧ m.key = Entry.sample.aggregateId ∧
      m.eventType = Entry.sample.eventType ∧ m.payload = Entry.sample.payload := by
  have hc : ∀ tx e, .use (.insert tx e) ∈ resent → ∃ id d now, Entry.create id d now = .ok e := by
    intro tx e he
    have he : e ∈ inserted resent := List.mem_filterMap.2 ⟨_, he, rfl⟩
    obtain rfl : e = .sample := List.mem_singleton.1 he
    exact ⟨_, ⟨"Follow", "a-1", "UserFollowed", "mopl.user.followed", "\x7b\x7d"⟩, 0, rfl⟩
  have hn : ((inserted resent).map (·.id)).Nodup := by decide
  have he : (run resent).history.committed = [.sample] := by decide +kernel
  have hp : (run resent).history.purged.map (·.id) = [Entry.sample.id] := by decide +kernel
  have he : Entry.sample ∈ (run resent).history.committed := he ▸ List.mem_singleton_self _
  have hp : ∃ r ∈ (run resent).history.purged, r.id = Entry.sample.id :=
    List.mem_map.1 (by rw [hp]; exact List.mem_singleton_self _)
  exact ⟨hc, hn, he, hp, (committed_delivered resent hc hn he).2 (.inr hp)⟩

end Fleet
end Outbox

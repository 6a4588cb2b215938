import Outbox.Proofs.Relay.Fleet
import Outbox.Proofs.Table.Oldest

/-!
# One attempt for each listing

A worker attempts an entry because its tick found the entry in a listing. A `Journal` is a fleet
with notes of its listings, messages and failed attempts. The invariant is `Fresh`: since its tick
listed them, a worker noted nothing about the candidates that are still to come. So no worker sends
an entry again, after an attempt that failed under its own hands, before it has listed anew. Other
workers hold back nothing: a failed attempt releases the entry, and whoever listed it before may
claim it at once.
-/

namespace Outbox

open Relay (Tick)

/-- What a worker notes. -/
inductive Note
  | started (i : Nat)
  /-- It read its candidates. -/
  | listed (i : Nat) (ids : List Uuid)
  /-- It claimed an entry, and the message goes out. -/
  | sent (i : Nat) (id : Uuid)
  /-- It recorded a failed attempt that is worth another. -/
  | retried (i : Nat) (id : Uuid)
  deriving DecidableEq

namespace Note

def worker : Note → Nat
  | started i | listed i _ | sent i _ | retried i _ => i

def entryId? : Note → Option Uuid
  | sent _ id | retried _ id => some id
  | _ => none

def isListing (i : Nat) : Note → Bool
  | listed k _ => k = i
  | _ => false

/-- The candidates that a worker listed last, the last note being the first. -/
def lastListed (i : Nat) : List Note → List Uuid
  | [] => []
  | listed k ids :: ns => if k = i then ids else lastListed i ns
  | _ :: ns => lastListed i ns

/-- What was noted since a worker listed its candidates. -/
def sinceListed (i : Nat) (ns : List Note) : List Note := ns.takeWhile fun n => !n.isListing i

/-- What a worker noted about an entry since it listed its candidates. -/
def ownSince (i : Nat) (id : Uuid) (ns : List Note) : List Note :=
  (sinceListed i ns).filter fun n => n.worker = i ∧ n.entryId? = some id

section
variable {i : Nat} {n : Note} {ns : List Note}

theorem lastListed_cons (h : n.isListing i = false) : lastListed i (n :: ns) = lastListed i ns := by
  cases n with
  | listed k ids => rw [lastListed, if_neg (by simpa [isListing] using h)]
  | started | sent | retried => rfl

theorem sinceListed_cons (h : n.isListing i = false) :
    sinceListed i (n :: ns) = n :: sinceListed i ns := by simp [sinceListed, h]

theorem ownSince_cons {id : Uuid} (h : n.isListing i = false)
    (ho : n.worker ≠ i ∨ n.entryId? ≠ some id) : ownSince i id (n :: ns) = ownSince i id ns := by
  rw [ownSince, sinceListed_cons h, List.filter_cons_of_neg]
  · rfl
  · simpa only [decide_eq_true_eq, not_and_or] using ho

theorem isListing_of_worker_ne (h : n.worker ≠ i) : n.isListing i = false := by
  cases n with
  | listed k ids => exact decide_eq_false h
  | started | sent | retried => rfl

end
end Note

/-- What a worker notes when a call of its tick is answered. -/
def Call.notes (i : Nat) : (c : Call) → c.Answer → List Note
  | .findPending .., .ok es => [.listed i (es.map (·.id))]
  | .tryClaim .., .ok held => [.sent i held.entry.id]
  | .recordFailure c _ _, .ok _ => [.retried i c.entryId]
  | _, _ => []

namespace Fleet

/-- What a move adds to the notes. -/
def noted (f : Fleet) : Move → List Note
  | .start i .. => [.started i]
  | .call i fault =>
    match f.jobs i with
    | none => []
    | some ⟨t, p⟩ =>
      match t.ask p with
      | .call c _ =>
        match (f.history.perform c fault).1 with
        | .ok a => c.notes i a
        | .error _ => []
      | _ => []
  | _ => []

/-- The entry whose message a worker is sending. -/
def sending? (f : Fleet) (i : Nat) : Option Uuid :=
  (f.jobs i).bind fun j =>
    match j.phase with
    | .send held _ _ => some held.entry.id
    | _ => none

end Fleet

/-- A fleet and what its workers noted, the last note first. -/
structure Journal where
  fleet : Fleet
  notes : List Note

namespace Journal

def step (j : Journal) (m : Move) : Journal := ⟨j.fleet.step m, j.fleet.noted m ++ j.notes⟩

def run (ms : List Move) : Journal := ms.foldl step ⟨.empty, []⟩

end Journal

namespace Relay.Tick

/-- The ids of the candidates that a tick has still to claim. -/
def Phase.waiting : Phase → List Uuid
  | .claim e rest _ => (e :: rest).map (·.id)
  | .send _ rest _ | .record _ _ rest _ => rest.map (·.id)
  | _ => []

@[simp] theorem Phase.waiting_proceed (rest : List Entry) (r : Report) :
    (Phase.proceed rest r).waiting = rest.map (·.id) := by cases rest <;> rfl

@[simp] theorem Phase.waiting_conclude (rest : List Entry) (r : Report) (o : Outcome) :
    (Phase.conclude rest r o).waiting = rest.map (·.id) := Phase.waiting_proceed ..

theorem waiting_error {t : Tick} {p : Phase} {c : Call} {next : c.Answer → Phase}
    (ha : t.ask p = .call c next) (e : StoreError) :
    (next (.error e)).waiting.Sublist p.waiting := by
  cases p with
  | sweep | list => cases ha; exact List.nil_sublist _
  | claim =>
    cases ha
    rw [Phase.waiting_conclude]
    exact List.sublist_cons_self ..
  | record => cases ha; rw [Phase.waiting_conclude]; exact List.Sublist.refl _
  | send | done => cases ha

/-- What a worker may rely on in a phase: it noted nothing yet about the candidates to come, and
about the one that it holds only that the message goes out. -/
structure Fresh (i : Nat) (ns : List Note) (p : Phase) : Prop where
  nodup : p.waiting.Nodup
  waiting : ∀ id ∈ p.waiting, id ∈ Note.lastListed i ns ∧ Note.ownSince i id ns = []
  held : ∀ held, p.held? = some held → held.claim.entryId = held.entry.id ∧
    held.entry.id ∉ p.waiting ∧ held.entry.id ∈ Note.lastListed i ns ∧
    Note.ownSince i held.entry.id ns = [.sent i held.entry.id]
  current : p.waiting ≠ [] ∨ p.held?.isSome → .started i ∉ Note.sinceListed i ns

namespace Fresh
variable {i : Nat} {ns : List Note} {p p' : Phase}

theorem of_idle (hw : p.waiting = []) (hh : p.held? = none) : Fresh i ns p where
  nodup := hw ▸ List.nodup_nil
  waiting id hid := by rw [hw] at hid; cases hid
  held held hp := by rw [hh] at hp; cases hp
  current h := by simp [hw, hh] at h

/-- The tick goes on with what is left of its candidates. -/
theorem proceed (h : Fresh i ns p) (hw : p'.waiting.Sublist p.waiting) (hh : p'.held? = none) :
    Fresh i ns p' where
  nodup := h.nodup.sublist hw
  waiting id hid := h.waiting id (hw.subset hid)
  held held hp := by rw [hh] at hp; cases hp
  current hc := by
    refine h.current (.inl fun hnil => ?_)
    rw [hnil, List.sublist_nil] at hw
    simp [hw, hh] at hc

/-- The tick notes something that is about none of its candidates. -/
theorem note (h : Fresh i ns p) {n : Note} (hl : n.isListing i = false) (hs : n ≠ .started i)
    (ho : ∀ id, id ∈ p.waiting ∨ (∃ held, p.held? = some held ∧ held.entry.id = id) →
      n.worker ≠ i ∨ n.entryId? ≠ some id) : Fresh i (n :: ns) p where
  nodup := h.nodup
  waiting id hid := by
    rw [Note.lastListed_cons hl, Note.ownSince_cons hl (ho id (.inl hid))]
    exact h.waiting id hid
  held held hp := by
    rw [Note.lastListed_cons hl, Note.ownSince_cons hl (ho _ (.inr ⟨held, hp, rfl⟩))]
    exact h.held held hp
  current hc := by
    rw [Note.sinceListed_cons hl, List.mem_cons, not_or]
    exact ⟨hs.symm, h.current hc⟩

theorem others (h : Fresh i ns p) {ms : List Note} (hm : ∀ n ∈ ms, n.worker ≠ i) :
    Fresh i (ms ++ ns) p := by
  induction ms with
  | nil => exact h
  | cons n ms ih =>
    have hn := hm n List.mem_cons_self
    refine (ih fun n hn => hm n (List.mem_cons_of_mem _ hn)).note (Note.isListing_of_worker_ne hn)
      (fun hs => hn ?_) fun _ _ => .inl hn
    rw [hs]
    rfl

theorem listed {es : List Entry} (hn : (es.map (·.id)).Nodup) (r : Report) :
    Fresh i (.listed i (es.map (·.id)) :: ns) (Phase.proceed es r) := by
  have hs : Note.sinceListed i (.listed i (es.map (·.id)) :: ns) = [] := by
    simp [Note.sinceListed, Note.isListing]
  refine ⟨by rwa [Phase.waiting_proceed], fun id hid => ⟨?_, ?_⟩, fun held hp => ?_, fun _ => ?_⟩
  · rw [Phase.waiting_proceed] at hid
    rwa [Note.lastListed, if_pos rfl]
  · rw [Note.ownSince, hs, List.filter_nil]
  · rw [Phase.held?_proceed] at hp; cases hp
  · rw [hs]; exact List.not_mem_nil

theorem claimed {e : Entry} {rest : List Entry} {r : Report} (h : Fresh i ns (.claim e rest r))
    {held : Claimed} (hc : held.claim.entryId = held.entry.id) (hid : held.entry.id = e.id) :
    Fresh i (.sent i held.entry.id :: ns) (.send held rest r) := by
  obtain ⟨hnot, hrest⟩ := List.nodup_cons.1 h.nodup
  obtain ⟨hlisted, hown⟩ := h.waiting e.id List.mem_cons_self
  have hl : (Note.sent i held.entry.id).isListing i = false := rfl
  refine ⟨hrest, fun id hw => ?_, fun held' hp => ?_, fun _ => ?_⟩
  · -- the note is about none of the rest, since no candidate is listed twice
    have hne : (Note.sent i held.entry.id).entryId? ≠ some id := by
      intro heq
      rw [← hid.symm.trans (Option.some.inj heq)] at hw
      exact hnot hw
    rw [Note.lastListed_cons hl, Note.ownSince_cons hl (.inr hne)]
    exact h.waiting id (List.mem_cons_of_mem _ hw)
  · cases hp
    rw [Note.lastListed_cons hl, Note.ownSince, Note.sinceListed_cons hl,
      List.filter_cons_of_pos (by simp [Note.worker, Note.entryId?])]
    change _ ∧ _ ∧ _ ∧ _ :: Note.ownSince i held.entry.id ns = _
    rw [hid, hown]
    exact ⟨hc.trans hid, hnot, hlisted, rfl⟩
  · rw [Note.sinceListed_cons hl, List.mem_cons, not_or]
    exact ⟨nofun, h.current (.inl nofun)⟩

theorem recorded {t : Tick} {held : Claimed} {d : Delivery} {rest : List Entry} {r : Report}
    (h : Fresh i ns (.record held d rest r)) (a : (t.outcomeCall held.claim d).Answer)
    (o : Outcome) :
    Fresh i ((t.outcomeCall held.claim d).notes i a ++ ns) (Phase.conclude rest r o) := by
  obtain ⟨hid, hnot, -, -⟩ := h.held held rfl
  have hgo : Fresh i ns (Phase.conclude rest r o) :=
    h.proceed (by rw [Phase.waiting_conclude]; exact List.Sublist.refl _) (Phase.held?_conclude ..)
  match d, a with
  | .ok (), _ => exact hgo
  | .error (.permanent _), _ => exact hgo
  | .error (.retryable _), .error _ => exact hgo
  | .error (.retryable _), .ok _ =>
    -- only here something is noted, and it is about the entry that is held no more
    refine hgo.note (n := .retried i held.claim.entryId) rfl nofun fun id hcand => .inr ?_
    rcases hcand with hw | ⟨held', hp, _⟩
    · rw [Phase.waiting_conclude] at hw
      rintro heq
      exact hnot (by rw [← hid, Option.some.inj heq]; exact hw)
    · rw [Phase.held?_conclude] at hp; cases hp

theorem answered {t : Tick} {c : Call} {next : c.Answer → Phase} {table : Table}
    (ht : table.Distinct) (h : Fresh i ns p) (ha : t.ask p = .call c next) :
    Fresh i (c.notes i (table.answer c).1 ++ ns) (next (table.answer c).1) := by
  cases p with
  | sweep => cases ha; exact of_idle rfl rfl
  | list retired =>
    cases ha
    refine listed ?_ _
    -- no id is listed twice, as none stands twice in the table
    have hperm := List.mergeSort_perm
      (table.filter fun e => e.isClaimable t.config.maxRetry t.cutoff) Entry.before
    have hall := (hperm.map Entry.id).nodup_iff.2 (ht.filter _)
    exact hall.sublist ((List.take_sublist ..).map _)
  | claim e rest report =>
    cases ha
    simp only [Table.answer]
    rcases table.tryClaim_cases e.id t.worker t.now t.cutoff with he | ⟨e', hr, -, -, he⟩ <;>
      rw [he]
    · exact h.proceed (by rw [Phase.waiting_conclude]; exact List.sublist_cons_self ..)
        (Phase.held?_conclude ..)
    · exact h.claimed rfl (Table.mem_of_row?_eq_some hr).2
  | record held d rest report => cases ha; exact h.recorded _ _
  | send | done => cases ha

end Fresh
end Relay.Tick

namespace Journal
variable {j : Journal}

/-- Every worker's candidates are fresh. -/
def Sound (j : Journal) : Prop := ∀ i t p, j.fleet.jobs i = some ⟨t, p⟩ → Tick.Fresh i j.notes p

/-- One worker goes on, with notes of its own. -/
theorem Sound.assign (hs : j.Sound) {h : History} {i : Nat} {job : Option Job} {ns : List Note}
    (hown : ∀ n ∈ ns, n.worker = i)
    (hjob : ∀ t p, job = some ⟨t, p⟩ → Tick.Fresh i (ns ++ j.notes) p) :
    Sound ⟨j.fleet.assign h i job, ns ++ j.notes⟩ := by
  intro k t p hk
  simp only [Fleet.assign] at hk
  split at hk <;> rename_i hki
  · subst hki
    exact hjob t p hk
  · exact (hs k t p hk).others fun n hn hw => hki (hw.symm.trans (hown n hn))

theorem Sound.silent (hs : j.Sound) {h : History} {i : Nat} {job : Option Job}
    (hjob : ∀ t p, job = some ⟨t, p⟩ → Tick.Fresh i j.notes p) :
    Sound ⟨j.fleet.assign h i job, j.notes⟩ := by
  show Sound ⟨_, [] ++ j.notes⟩
  exact hs.assign (fun _ hn => absurd hn List.not_mem_nil) hjob

theorem worker_of_mem_notes {i : Nat} {c : Call} {a : c.Answer} {n : Note} (h : n ∈ c.notes i a) :
    n.worker = i := by
  cases c with
  | findPending | tryClaim | recordFailure =>
    cases a with
    | error => cases h
    | ok => cases List.mem_singleton.1 h; rfl
  | _ => cases a <;> cases h

theorem notes_error (i : Nat) (c : Call) (e : StoreError) : c.notes i (.error e) = [] := by
  cases c <;> rfl

/-- The call of a tick is answered, fails, or breaks the tick. -/
theorem Sound.called (hs : j.Sound) (hd : j.fleet.table.Distinct) {i : Nat} {t : Tick}
    {p : Tick.Phase} {c : Call} {next : c.Answer → Tick.Phase}
    (hj : j.fleet.jobs i = some ⟨t, p⟩) (ha : t.ask p = .call c next) (fault : Option StoreError) :
    (j.step (.call i fault)).Sound := by
  have hp := hs i t p hj
  simp only [Journal.step, Fleet.step, Fleet.noted, hj, ha]
  rcases j.fleet.history.perform_cases c fault with ⟨e, he⟩ | ⟨e, he⟩ | ⟨rfl, he⟩ <;> simp only [he]
  · refine hs.assign (fun n hn => worker_of_mem_notes hn) fun t' p' h => ?_
    cases h
    rw [notes_error]
    exact hp.proceed (Tick.waiting_error ha e) (Tick.held?_error ha e)
  · exact hs.silent fun _ _ h => by cases h
  · refine hs.assign (fun n hn => worker_of_mem_notes hn) fun t' p' h => ?_
    cases h
    exact hp.answered hd ha

theorem Sound.step (hs : j.Sound) (hd : j.fleet.table.Distinct) (m : Move) :
    (j.step m).Sound := by
  cases m with
  | use op =>
    intro i t p hi
    refine hs i t p ?_
    simp only [Journal.step, Fleet.step] at hi
    split at hi <;> exact hi
  | start i worker config now =>
    refine hs.assign (fun n hn => by rw [List.mem_singleton.1 hn]; rfl) fun t p h => ?_
    obtain ⟨t', -, ht⟩ := Option.map_eq_some_iff.1 h
    cases ht
    exact .of_idle rfl rfl
  | drop i => exact hs.silent fun _ _ h => by cases h
  | call i fault =>
    cases hj : j.fleet.jobs i with
    | none =>
      simp only [Journal.step, Fleet.step, Fleet.noted, hj]
      exact hs
    | some job =>
      obtain ⟨t, p⟩ := job
      cases ha : t.ask p with
      | call c next => exact hs.called hd hj ha fault
      | done | send =>
        simp only [Journal.step, Fleet.step, Fleet.noted, hj, ha]
        exact hs
  | send i reply =>
    simp only [Journal.step, Fleet.step, Fleet.noted]
    cases hj : j.fleet.jobs i with
    | none => exact hs
    | some job =>
      obtain ⟨t, p⟩ := job
      cases p with
      | send held rest report =>
        have hp := hs i t _ hj
        have hrecord : Sound ⟨j.fleet.assign j.fleet.history i
            (some ⟨t, .record held (reply.getD (.error t.sendTimedOut)) rest report⟩), j.notes⟩ :=
          hs.silent fun t' p' h => by
            cases h
            exact ⟨hp.nodup, hp.waiting, hp.held, hp.current⟩
        exact hrecord
      | _ => exact hs

theorem sound_empty : Sound ⟨.empty, []⟩ := fun _ _ _ h => absurd h (Option.some_ne_none _).symm

theorem sound_run (ms : List Move) (hn : ((Fleet.inserted ms).map (·.id)).Nodup) :
    (run ms).Sound := by
  -- the ledger goes along: a step needs a table in which no id stands twice
  let P es (j : Journal) := j.fleet.history.Ledger es ∧ j.Sound
  have h : P (Fleet.inserted ms) (run ms) := by
    refine run_induction ⟨⟨.refl _, List.Subperm.refl _⟩, sound_empty⟩ ?_ ms hn
    rintro es j m hn ⟨l, hs⟩
    exact ⟨(j.fleet.moved m).ledger l hn, hs.step (l.distinct hn) m⟩
  exact h.2

/-- Whoever uses a store with a fleet: while a worker sends an entry, its last listing holds the
entry and is of the tick it is in, and all it noted about the entry since then is that this message
goes out. So each listing leads a worker to at most one attempt of an entry, and a failed attempt
that the worker recorded since then is none of this entry. -/
theorem attempt_listed (ms : List Move) (hn : ((Fleet.inserted ms).map (·.id)).Nodup) {i : Nat}
    {id : Uuid} (hi : (run ms).fleet.sending? i = some id) :
    id ∈ Note.lastListed i (run ms).notes ∧
      .started i ∉ Note.sinceListed i (run ms).notes ∧
      Note.ownSince i id (run ms).notes = [.sent i id] ∧
      ∀ k, .retried k id ∈ Note.sinceListed i (run ms).notes → k ≠ i := by
  obtain ⟨⟨t, p⟩, hj, hp⟩ := Option.bind_eq_some_iff.1 hi
  cases p with
  | send held rest report =>
    cases hp
    have hf := sound_run ms hn i t _ hj
    obtain ⟨-, -, hlisted, hown⟩ := hf.held held rfl
    refine ⟨hlisted, hf.current (.inr rfl), hown, ?_⟩
    rintro k hk rfl
    have hmem : .retried k held.entry.id ∈ Note.ownSince k held.entry.id (run ms).notes :=
      List.mem_filter.2 ⟨hk, by simp [Note.worker, Note.entryId?]⟩
    rw [hown] at hmem
    cases List.mem_singleton.1 hmem
  | _ => cases hp

/-- Two workers list the same entry; the first one fails to deliver it and releases it, and the
second one claims it on its listing from before. -/
def staleListing : List Move :=
  [.use (.begin "tx"), .use (.insert "tx" .sample), .use (.commit "tx"),
    .start 0 "w1" .default 10, .start 1 "w2" .default 10, .call 0 none, .call 0 none, .call 1 none,
    .call 1 none, .call 0 none, .send 0 (some (.error (.retryable "busy"))), .call 0 none,
    .call 1 none]

/-- Across workers a failed attempt holds nobody back: it can be recorded after the listing on which
another worker sends the entry again. -/
theorem not_held_back_across_workers :
    ¬ ∀ ms : List Move, ((Fleet.inserted ms).map (·.id)).Nodup → ∀ i id,
      (run ms).fleet.sending? i = some id →
        ∀ k, .retried k id ∉ Note.sinceListed i (run ms).notes := by
  intro h
  refine h staleListing (by decide) 1 Entry.sample.id ?_ 0 ?_
  · decide +kernel
  · decide +kernel

/-- The first worker lists again after its failed attempt, and only then sends the entry again. -/
def secondTick : List Move :=
  staleListing ++ [.drop 1, .start 0 "w1" .default 300000000011, .call 0 none, .call 0 none,
    .call 0 none]

theorem secondTick_listed :
    ((Fleet.inserted secondTick).map (·.id)).Nodup ∧
    (run secondTick).fleet.sending? 0 = some Entry.sample.id ∧
    .retried 0 Entry.sample.id ∈ (run secondTick).notes ∧
    Note.ownSince 0 Entry.sample.id (run secondTick).notes = [.sent 0 Entry.sample.id] := by
  have hn : ((Fleet.inserted secondTick).map (·.id)).Nodup := by decide
  have hs : (run secondTick).fleet.sending? 0 = some Entry.sample.id := by decide +kernel
  have hr : .retried 0 Entry.sample.id ∈ (run secondTick).notes := by decide +kernel
  exact ⟨hn, hs, hr, (attempt_listed secondTick hn hs).2.2.1⟩

end Journal
end Outbox

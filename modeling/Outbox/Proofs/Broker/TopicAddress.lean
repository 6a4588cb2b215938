import Outbox.Broker.Http
import Outbox.Event.Basic
import Outbox.Proofs.Config.Rewrite
import Outbox.Proofs.Url.Below

/-!
# Where messages go

The address of a topic is put together as a text and read again. It lies below the address of the
broker unless that ends in a query or a fragment: then the topic becomes part of what is behind the
path, and all topics have the path of the broker itself (`topicsBelow_iff`).
-/

namespace Outbox.Broker

open Url

variable {base u : Url} {topic : String} {cs : List Char} {c : Char}

theorem toList_trimSlashes (s : String) : (trimSlashes s).toList = dropSlashes s.toList := by
  rw [trimSlashes, String.toList_ofList]
  rfl

/-! ### Topics as segments -/

theorem lt_of_isUnreserved (h : Text.isUnreserved c = true) : c.toNat < 128 := by
  simp only [Text.isUnreserved, Bool.or_eq_true, decide_eq_true_eq] at h
  rcases h with (((h | rfl) | rfl) | rfl) | rfl
  · exact lt_of_isSchemeChar (by simp [isSchemeChar, h])
  all_goals decide

/-- A character that stands for itself everywhere in an address. -/
def IsSafe (c : Char) : Prop :=
  isSlash true c = false ∧ IsKept pathSet c ∧ (∀ special, IsKept (querySet special) c) ∧
    IsKept fragmentSet c

instance : DecidablePred IsSafe := fun _ => inferInstanceAs (Decidable (_ ∧ _))

theorem isSafe_of_mem_topicSegment (h : c ∈ (topicSegment topic).toList) : IsSafe c := by
  have hascii : ∀ n < 128, Text.isUnreserved (Char.ofNat n) = true → IsSafe (Char.ofNat n) := by
    decide +kernel
  rw [topicSegment, String.toList_ofList] at h
  refine Text.of_mem_percentEncode (fun c _ hc => ?_) (by decide) (by decide) h
  have hsafe := hascii c.toNat (lt_of_isUnreserved hc)
  rw [Char.ofNat_toNat] at hsafe
  exact hsafe hc

/-- Dots are the only characters that are dots when they are encoded. -/
theorem eq_replicate_of_dots {n : Nat}
    (h : dots (Text.percentEncode Text.isUnreserved cs) = some n) : cs = List.replicate n '.' := by
  induction cs generalizing n with
  | nil =>
    obtain rfl := Option.some.inj h
    rfl
  | cons c cs ih =>
    by_cases hdot : c = '.'
    · subst hdot
      rw [Text.percentEncode_cons, if_pos (by decide), List.singleton_append, dots,
        Option.map_eq_some_iff] at h
      obtain ⟨k, hk, rfl⟩ := h
      rw [ih hk, List.replicate_succ]
    · by_cases hkeep : Text.isUnreserved c
      · have hsign : c ≠ '%' := by
          rintro rfl
          exact absurd hkeep (by decide)
        rw [Text.percentEncode_cons, if_pos hkeep, List.singleton_append,
          dots_cons_of_ne hdot hsign] at h
        cases h
      · rw [dots_percentEncode_of_not_keep hdot hkeep] at h
        cases h

/-- A topic is a segment of its own unless it is one dot or two. -/
theorem isSegment_topicSegment (hone : topic ≠ ".") (htwo : topic ≠ "..") :
    IsSegment true (topicSegment topic) := by
  have hdots : ∀ n, dots (topicSegment topic).toList = some n →
      topic = String.ofList (List.replicate n '.') := by
    intro n h
    rw [topicSegment, String.toList_ofList] at h
    rw [← eq_replicate_of_dots h, String.ofList_toList]
  refine ⟨fun c hc => ?_, fun h => hone (hdots 1 h), fun h => htwo (hdots 2 h)⟩
  have hsafe := isSafe_of_mem_topicSegment hc
  exact ⟨hsafe.2.1, hsafe.1⟩

theorem percentDecode_topicSegment (topic : String) :
    Text.percentDecode (topicSegment topic).toList = Text.utf8 topic.toList := by
  rw [topicSegment, String.toList_ofList]
  exact Text.percentDecode_percentEncode rfl _

/-! ### Addresses of topics -/

/-- The path below that of the broker. -/
def topicPath (base : Url) (topic : String) : String :=
  trimSlashes base.path.text ++ "/topics/" ++ topicSegment topic

theorem toList_segments (topic : String) :
    (Path.segments ["topics", topicSegment topic]).text.toList =
      "/topics/".toList ++ (topicSegment topic).toList := by
  simp [Path.text]

theorem toList_topicText (base : Url) (topic : String) : (topicText base topic).toList =
    dropSlashes base.text.toList ++ (Path.segments ["topics", topicSegment topic]).text.toList := by
  rw [toList_segments, topicText, String.toList_append, String.toList_append, toList_trimSlashes,
    List.append_assoc]

theorem toList_topicPath (base : Url) (topic : String) : (topicPath base topic).toList =
    dropSlashes base.path.text.toList ++
      (Path.segments ["topics", topicSegment topic]).text.toList := by
  rw [toList_segments, topicPath, String.toList_append, String.toList_append, toList_trimSlashes,
    List.append_assoc]

theorem topicUrl_of_parse (h : Url.parse (topicText base topic) = .ok u) :
    topicUrl base topic = .ok u := by
  rw [topicUrl, h]
  rfl

/-- Without a query and a fragment, the address of a topic lies below that of the broker. -/
theorem topicUrl_below (hbase : base.Normal) (hquery : base.query = none)
    (hfragment : base.fragment = none) (hone : topic ≠ ".") (htwo : topic ≠ "..") :
    ∃ u, topicUrl base topic = .ok u ∧ u.SameServer base ∧
      u.path.text = topicPath base topic := by
  have hmore : ∀ s ∈ ["topics", topicSegment topic], IsSegment true s := by
    have htopics : IsSegment true "topics" :=
      ⟨List.all_iff_forall_prop.1 (by decide), by decide⟩
    simp only [List.forall_mem_cons]
    exact ⟨htopics, isSegment_topicSegment hone htwo, List.forall_mem_nil _⟩
  obtain ⟨u, hparse, hserver, hpath⟩ := parse_below hbase hquery hfragment (by decide) hmore
    (toList_topicText base topic)
  exact ⟨u, topicUrl_of_parse hparse, hserver,
    String.toList_injective (hpath.trans (toList_topicPath base topic).symm)⟩

/-- With a query or a fragment, the topic is no part of the path. -/
theorem topicUrl_beside (hbase : base.Normal) (h : ¬(base.query = none ∧ base.fragment = none))
    (topic : String) :
    ∃ u, topicUrl base topic = .ok u ∧ u.SameServer base ∧ u.path = base.path := by
  have hsafe : ∀ c ∈ (Path.segments ["topics", topicSegment topic]).text.toList,
      (∀ special, IsKept (querySet special) c) ∧ IsKept fragmentSet c := by
    have htopics : ∀ c ∈ "/topics/".toList,
        (∀ special, IsKept (querySet special) c) ∧ IsKept fragmentSet c :=
      List.all_iff_forall_prop.1 (by decide)
    intro c hc
    rw [toList_segments, List.mem_append] at hc
    rcases hc with hc | hc
    · exact htopics c hc
    · exact (isSafe_of_mem_topicSegment hc).2.2
  have hne : (Path.segments ["topics", topicSegment topic]).text.toList ≠ [] := by
    simp [Path.text]
  cases hfragment : base.fragment with
  | some f =>
    have hparse := parse_fragment hbase hfragment (fun c hc => (hsafe c hc).2) hne
      (toList_topicText base topic)
    exact ⟨_, topicUrl_of_parse hparse, ⟨rfl, rfl, rfl⟩, rfl⟩
  | none =>
    cases hquery : base.query with
    | some q =>
      have hparse := parse_query hbase hquery hfragment (fun c hc => (hsafe c hc).1 _) hne
        (toList_topicText base topic)
      exact ⟨_, topicUrl_of_parse hparse, ⟨rfl, rfl, rfl⟩, rfl⟩
    | none => exact absurd ⟨hquery, hfragment⟩ h

theorem path_ne_topicPath (base : Url) (topic : String) :
    base.path.text ≠ topicPath base topic := by
  intro heq
  have htext := congrArg String.toList heq
  rw [toList_topicPath, toList_segments] at htext
  have hback := List.rdropWhile_append_rtakeWhile (p := (· = '/')) (l := base.path.text.toList)
  have hslashes := List.append_cancel_left (hback.trans htext)
  have hmem : 't' ∈ base.path.text.toList.rtakeWhile (· = '/') := by
    rw [hslashes]
    exact List.mem_append_left _ (by decide)
  simpa using List.mem_rtakeWhile_imp hmem

/-! ### Topics of events -/

/-- The topics of events are words of ASCII between dots. -/
theorem topic_kind (k : Event.Kind) :
    (∀ c ∈ k.topic.toList, c.toNat < 0x80) ∧ k.topic ≠ "." ∧ k.topic ≠ ".." := by
  refine ⟨List.all_iff_forall_prop.1 ?_, ?_⟩ <;> cases k <;> decide

/-- The segment of a topic is decoded to the topic. -/
theorem decode_topicSegment (k : Event.Kind) :
    Text.ofUtf8? (Text.percentDecode (topicSegment k.topic).toList) = some k.topic.toList := by
  rw [percentDecode_topicSegment, Text.ofUtf8?_utf8 (topic_kind k).1]

theorem topicPath_injective {k k' : Event.Kind}
    (h : topicPath base k.topic = topicPath base k'.topic) : k.topic = k'.topic := by
  have hsegment : topicSegment k.topic = topicSegment k'.topic :=
    (String.append_right_inj _).1 h
  have hdecode := decode_topicSegment k
  rw [hsegment, decode_topicSegment k'] at hdecode
  exact String.toList_injective (Option.some.inj hdecode).symm

/-- Every topic of an event has an address of its own below that of the broker. -/
structure TopicsBelow (base : Url) : Prop where
  address : ∀ e : Event, ∃ u, topicUrl base e.kind.topic = .ok u ∧ u.SameServer base ∧
    u.path.text = topicPath base e.kind.topic
  /-- What is behind the path is a single segment. -/
  single : ∀ e : Event, '/' ∉ (topicSegment e.kind.topic).toList
  decoded : ∀ e : Event,
    Text.ofUtf8? (Text.percentDecode (topicSegment e.kind.topic).toList) = some e.kind.topic.toList
  distinct : ∀ {e e' : Event} {u u' : Url}, topicUrl base e.kind.topic = .ok u →
    topicUrl base e'.kind.topic = .ok u' → u.path.text = u'.path.text → e.kind.topic = e'.kind.topic

theorem topicsBelow_of_normal (hbase : base.Normal) (hquery : base.query = none)
    (hfragment : base.fragment = none) : TopicsBelow base := by
  have haddress : ∀ e : Event, ∃ u, topicUrl base e.kind.topic = .ok u ∧ u.SameServer base ∧
      u.path.text = topicPath base e.kind.topic := fun e =>
    topicUrl_below hbase hquery hfragment (topic_kind e.kind).2.1 (topic_kind e.kind).2.2
  refine ⟨haddress, fun e hmem => ?_, fun e => decode_topicSegment e.kind, ?_⟩
  · exact absurd (isSafe_of_mem_topicSegment hmem).1 (by decide)
  · intro e e' u u' hu hu' hpath
    obtain ⟨v, hv, -, hvpath⟩ := haddress e
    obtain ⟨v', hv', -, hvpath'⟩ := haddress e'
    obtain rfl := Except.ok.inj (hu.symm.trans hv)
    obtain rfl := Except.ok.inj (hu'.symm.trans hv')
    exact topicPath_injective (hvpath.symm.trans (hpath.trans hvpath'))

/-- Somebody follows somebody. -/
def followed : Event := .userFollowed ⟨.nil, .nil, "", .nil⟩

theorem not_topicsBelow (hbase : base.Normal) (h : ¬(base.query = none ∧ base.fragment = none)) :
    ¬TopicsBelow base := by
  intro hbelow
  obtain ⟨u, hu, -, hpath⟩ := hbelow.address followed
  obtain ⟨v, hv, -, hbeside⟩ := topicUrl_beside hbase h followed.kind.topic
  obtain rfl := Except.ok.inj (hu.symm.trans hv)
  exact path_ne_topicPath base _ (hbeside ▸ hpath)

/-! ### Addresses of brokers -/

theorem exists_parse_baseUrl {s : String} {f : ConfigFile} (h : ConfigFile.parse? s = some f) :
    ∃ t, Url.parse t = .ok f.broker.baseUrl := by
  obtain ⟨toml, -, h⟩ := Option.bind_eq_some_iff.1 h
  simp only [ConfigFile.ofToml?, ConfigFile.broker?, Toml.required, Option.bind_eq_bind,
    Option.bind_eq_some_iff, Option.pure_def, Option.some.injEq] at h
  obtain ⟨_, -, _, -, _, -, _, -, _, -, _, ⟨_, -, _, -, url, ⟨_, -, hurl⟩, _, -, rfl⟩, rfl⟩ := h
  obtain ⟨t, -, ht⟩ := Option.bind_eq_some_iff.1 hurl
  refine ⟨t, ?_⟩
  cases hparse : Url.parse t with
  | error e =>
    rw [hparse] at ht
    cases ht
  | ok u =>
    rw [hparse] at ht
    cases ht
    rfl

open Config

/-- The topics of events have addresses of their own below that of the broker just if that has
neither a query nor a fragment. Else each topic has the path of the broker itself. -/
theorem topicsBelow_iff {env : Environment} {d d' : Disk} {l : Loaded}
    (hload : load env d = .ok (l, d')) :
    (TopicsBelow l.broker.baseUrl ↔
      l.broker.baseUrl.query = none ∧ l.broker.baseUrl.fragment = none) ∧
    (¬(l.broker.baseUrl.query = none ∧ l.broker.baseUrl.fragment = none) → ∀ e : Event,
      ∃ u, topicUrl l.broker.baseUrl e.kind.topic = .ok u ∧ u.SameServer l.broker.baseUrl ∧
        u.path = l.broker.baseUrl.path) := by
  obtain ⟨s, f, -, hf, -, rfl, -⟩ := exists_file_of_load hload
  obtain ⟨t, ht⟩ := exists_parse_baseUrl hf
  have hbase : f.broker.baseUrl.Normal := normal_of_parse ht
  refine ⟨⟨fun h => ?_, fun h => topicsBelow_of_normal hbase h.1 h.2⟩,
    fun h e => topicUrl_beside hbase h e.kind.topic⟩
  by_contra hnot
  exact not_topicsBelow hbase hnot h

theorem internalBroker_topicsBelow :
    ∃ l d', load (host none) ⟨.text plainFile.render, false⟩ = .ok (l, d') ∧
      TopicsBelow l.broker.baseUrl :=
  ⟨_, _, load_plainFile none, (topicsBelow_iff (load_plainFile none)).1.2 ⟨rfl, rfl⟩⟩

/-- A file with a broker whose address has a query. -/
def tenantFile : ConfigFile :=
  { plainFile with
    broker := { internalBroker with
      baseUrl := { internalBroker.baseUrl with
        path := .segments ["ingest"]
        query := some "tenant=1" } } }

theorem parse?_tenantFile : ConfigFile.parse? tenantFile.render = some tenantFile :=
  ConfigFile.parse?_render
    ⟨by decide +kernel, RelaySection.writable_default, CleanerConfig.writable_default,
      ⟨by decide +kernel, by decide⟩⟩

theorem load_tenantFile : load (host none) ⟨.text tenantFile.render, false⟩ =
    .ok (.ofFile (host none) tenantFile (rewritten (host none) tenantFile).secret,
      ⟨.text (rewritten (host none) tenantFile).render, false⟩) := by
  have hcheck : check tenantFile (instanceId tenantFile.relay.instanceId (host none)) = .ok () :=
    check_plainFile none
  rw [load_of_plain rfl parse?_tenantFile (by decide), hcheck]
  rfl

/-- A configuration with a query in the address of its broker is loaded, and all topics have the
path of that address. -/
theorem query_takes_topics :
    ∃ l d', load (host none) ⟨.text tenantFile.render, false⟩ = .ok (l, d') ∧
      ¬TopicsBelow l.broker.baseUrl ∧
      ∀ e : Event, ∃ u, topicUrl l.broker.baseUrl e.kind.topic = .ok u ∧
        u.path.text = "/ingest" := by
  obtain ⟨t, ht⟩ := exists_parse_baseUrl parse?_tenantFile
  have hbase : tenantFile.broker.baseUrl.Normal := normal_of_parse ht
  have hquery : ¬(tenantFile.broker.baseUrl.query = none ∧
      tenantFile.broker.baseUrl.fragment = none) := by decide
  refine ⟨_, _, load_tenantFile, not_topicsBelow hbase hquery, fun e => ?_⟩
  obtain ⟨u, hu, -, hpath⟩ := topicUrl_beside hbase hquery e.kind.topic
  exact ⟨u, hu, by rw [hpath]; decide⟩

end Outbox.Broker

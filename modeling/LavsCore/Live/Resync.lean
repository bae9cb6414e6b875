import LavsCore.Live.ProductEvents

/-!
# Re-synchronisation

A state is in sync when every cached answer is up to date, or a frame that makes the client
ask for it again is under way (`InSync`). The reconnect asks for nothing: what keeps a
client in sync is that no frame is needed that it does not get (`Recoverable`).

* `inSync_step`: a recoverable step keeps the client in sync.
* `resync_of_recoverable`: along recoverable steps, a client that has settled holds what the
  routes answer.
* `stale_of_not_recoverable`: after any other step some answer is out of date, and stays so.
* `resync_lost`: a version that is created while the stream is down is never seen.
-/

namespace LavsCore

open Store CacheSimulationLemmas EndpointLemmas

/-- One of the frames makes the client ask for an answer again. -/
def Carries (frames : List DomainEvent) (key : QueryKey) : Prop :=
  ∃ event ∈ frames, eventKey event = some key

namespace LiveState

variable (keepsFirst : Bool) (productId : String) (s : LiveState)

/-- The cached answer is what the route answers now, or it is going to be. -/
def UpToDate (key : QueryKey) : Prop :=
  ∃ current, answer productId key s.world = .ok current ∧ (s.cache key).UpToDate current

/-- Each answer is up to date, or a frame for it is under way. -/
def InSync : Prop := ∀ key, s.UpToDate productId key ∨ Carries s.underway key

/-- The frame that the client handles next. -/
def next : Option DomainEvent :=
  match s.stream with
  | some ⟨_, true, event :: _⟩ => some event
  | _ => none

/-- There is a queue for the client. -/
def listening : Bool :=
  match s.stream with
  | some ⟨.live _, _, _⟩ => true
  | _ => false

/-- The frames under way that a step leaves under way. -/
def kept : LiveStep → List DomainEvent
  | .write r =>
    match s.stream with
    | some stream =>
      stream.wire ++ stream.queue.drop (stream.overflow (announced productId s.world r)).length
    | none => []
  | .unsubscribe => s.stream.elim [] Stream.wire
  | .onError => []
  | .onEvent => s.underway.drop s.next.toList.length
  | _ => s.underway

/-- The frames that a step puts under way. -/
def arriving : LiveStep → List DomainEvent
  | .write r => if s.listening then announced productId s.world r else []
  | _ => []

/-- The frames that a step loses. A frame is also lost if the client handles it while it
lets a first fetch run on. -/
def Loses (key : QueryKey) : LiveStep → Prop
  | .write r => ∃ stream, s.stream = some stream ∧
    Carries (stream.overflow (announced productId s.world r)) key
  | .unsubscribe => ∃ stream, s.stream = some stream ∧ Carries stream.queue key
  | .onError => Carries s.underway key
  | .onEvent => Carries s.next.toList key ∧ (s.cache key).RunsOn keepsFirst
  | _ => False

/-- A step that the client recovers from, whatever else it misses. -/
structure Recoverable (step : LiveStep) : Prop where
  /-- What a lost frame would have brought is there, or another frame is going to bring it. -/
  lost : ∀ key, s.Loses keepsFirst productId key step →
    s.UpToDate productId key ∨ Carries (s.kept productId step ++ s.arriving productId step) key
  /-- A write that changes an answer tells the client, unless it will ask anyway. -/
  changed : ∀ r, step = .write r → ∀ key,
    answer productId key (respond s.world r) ≠ answer productId key s.world →
    (s.cache key).fetch = .requested ∨ Carries (s.kept productId step) key ∨
      s.listening = true ∧ r.1.publishes = true ∧ (outcome s.world r).isOk = true

end LiveState

namespace ResyncLemmas

variable {keepsFirst : Bool} {productId : String} {s : LiveState} {step : LiveStep}
  {key : QueryKey} {frames frames' : List DomainEvent}

theorem carries_mono (hsub : frames ⊆ frames') (h : Carries frames key) : Carries frames' key :=
  h.imp fun _ h => ⟨hsub h.1, h.2⟩

theorem carries_append :
    Carries (frames ++ frames') key ↔ Carries frames key ∨ Carries frames' key := by
  simp only [Carries, List.mem_append, or_and_right, exists_or]

theorem not_carries_nil : ¬ Carries [] key := by
  rintro ⟨_, h, _⟩
  exact List.not_mem_nil h

/-! ## Frames -/

theorem underway_publish (stream : Stream) (events : List DomainEvent) :
    stream.wire ++ stream.queue.drop (stream.overflow events).length ⊆
      (stream.publish events).underway := by
  obtain ⟨subscription, opened, wire⟩ := stream
  cases subscription with
  | live queue =>
    intro event hevent
    rcases List.mem_append.mp hevent with hwire | hqueue
    · exact List.mem_append_left _ hwire
    · exact List.mem_append_right _ (drop_evictedAll_subset queue events hqueue)
  | _ => exact List.Subset.refl _

theorem underway_subscribe (stream : Stream) : stream.subscribe.underway = stream.underway := by
  obtain ⟨subscription, opened, wire⟩ := stream
  cases subscription <;> rfl

theorem underway_send (stream : Stream) : stream.send.underway = stream.underway := by
  obtain ⟨subscription, opened, wire⟩ := stream
  cases subscription with
  | live queue =>
    cases queue with
    | nil => rfl
    | cons event rest => exact List.append_assoc wire [event] rest
  | _ => rfl

/-- What a step keeps is under way after it. -/
theorem kept_subset : s.kept productId step ⊆ (liveStep keepsFirst productId s step).underway := by
  obtain ⟨world, stream, connected, cache⟩ := s
  cases stream with
  | none =>
    cases step with
    | _ => exact List.nil_subset _
  | some stream =>
    cases step with
    | write r => exact underway_publish stream _
    | subscribe =>
      show stream.underway ⊆ stream.subscribe.underway
      rw [underway_subscribe]
      exact List.Subset.refl _
    | send =>
      show stream.underway ⊆ stream.send.underway
      rw [underway_send]
      exact List.Subset.refl _
    | unsubscribe => exact List.subset_append_left _ _
    | onError => exact List.nil_subset _
    | onEvent =>
      obtain ⟨subscription, opened, wire⟩ := stream
      cases opened with
      | false => exact List.Subset.refl _
      | true =>
        cases wire with
        | _ => exact List.Subset.refl _
    | _ => exact List.Subset.refl _

/-- What a step puts under way is under way after it. -/
theorem carries_arriving (h : Carries (s.arriving productId step) key) :
    Carries (liveStep keepsFirst productId s step).underway key := by
  cases step with
  | write r =>
    obtain ⟨world, stream, connected, cache⟩ := s
    rw [LiveState.arriving] at h
    split at h
    · next hlistening =>
      obtain ⟨event, hevent, hkey⟩ := h
      obtain hnone | ⟨event', hone, _⟩ := announced_cases productId world r
      · rw [hnone] at hevent
        exact absurd hevent List.not_mem_nil
      · rw [hone] at hevent
        obtain rfl := List.mem_singleton.mp hevent
        match stream, hlistening with
        | some ⟨.live queue, opened, wire⟩, _ =>
          refine ⟨event, List.mem_append_right _ ?_, hkey⟩
          show event ∈ dropOldestAll queueMaxsize queue (announced productId world r)
          rw [hone]
          exact mem_dropOldest_self queue event
    · exact absurd h not_carries_nil
  | _ => exact absurd h not_carries_nil

theorem carries_step
    (h : Carries (s.kept productId step ++ s.arriving productId step) key) :
    Carries (liveStep keepsFirst productId s step).underway key := by
  rcases carries_append.mp h with hkept | harriving
  · exact carries_mono kept_subset hkept
  · exact carries_arriving harriving

/-- A frame is kept, or lost, or handled. -/
theorem carries_underway (h : Carries s.underway key) :
    Carries (s.kept productId step) key ∨ s.Loses keepsFirst productId key step ∨
      step = .onEvent ∧ Carries s.next.toList key := by
  obtain ⟨world, stream, connected, cache⟩ := s
  cases stream with
  | none => exact absurd h not_carries_nil
  | some stream =>
    cases step with
    | write r =>
      rcases carries_append.mp h with hwire | hqueue
      · exact Or.inl (carries_append.mpr (Or.inl hwire))
      · obtain ⟨subscription, opened, wire⟩ := stream
        cases subscription with
        | live queue =>
          obtain ⟨event, hevent, hkey⟩ := hqueue
          rw [← List.take_append_drop
            (evictedAll queueMaxsize queue (announced productId world r)).length
            (Stream.queue _)] at hevent
          rcases List.mem_append.mp hevent with htake | hdrop
          · exact Or.inr (Or.inl ⟨_, rfl, event, take_evictedAll_subset queue _ htake, hkey⟩)
          · exact Or.inl ⟨event, List.mem_append_right _ hdrop, hkey⟩
        | _ => exact absurd hqueue not_carries_nil
    | unsubscribe =>
      rcases carries_append.mp h with hwire | hqueue
      · exact Or.inl hwire
      · exact Or.inr (Or.inl ⟨stream, rfl, hqueue⟩)
    | onError => exact Or.inr (Or.inl h)
    | onEvent =>
      obtain ⟨subscription, opened, wire⟩ := stream
      cases opened with
      | false => exact Or.inl h
      | true =>
        cases wire with
        | nil => exact Or.inl h
        | cons event rest =>
          have hunderway :
              Carries ([event] ++ (Stream.mk subscription true rest).underway) key := h
          rcases carries_append.mp hunderway with hnext | hrest
          · exact Or.inr (Or.inr ⟨rfl, hnext⟩)
          · exact Or.inl hrest
    | _ => exact Or.inl h

/-! ## Answers -/

/-- The handler of a frame makes the client ask, unless a first fetch runs on. -/
theorem fetch_onEvent {event : DomainEvent} {cache : QueryCache} (hkey : eventKey event = some key)
    (h : ¬ (cache key).RunsOn keepsFirst) :
    (onEvent keepsFirst event cache key).fetch = .requested := by
  obtain ⟨parsed, hparsed, rfl⟩ := Option.map_eq_some_iff.mp hkey
  rw [onEvent, hparsed]
  show (Function.update cache parsed.key _ parsed.key).fetch = .requested
  rw [Function.update_self]
  exact Entry.fetch_invalidate (Entry.runsOn_setData.not.mpr h)

/-- A handler leaves the other entries alone. -/
theorem onEvent_of_ne {event : DomainEvent} {cache : QueryCache}
    (hkey : eventKey event ≠ some key) : onEvent keepsFirst event cache key = cache key := by
  rw [onEvent]
  cases hparsed : parseEvent event with
  | none => rfl
  | some parsed =>
    have hne : key ≠ parsed.key := by
      rintro rfl
      exact hkey (by rw [eventKey, hparsed]; rfl)
    show handleEvent keepsFirst parsed cache key = cache key
    rw [handleEvent, Function.update_of_ne hne]

/-- A handler leaves an entry alone whose first fetch runs on. -/
theorem onEvent_of_runsOn {event : DomainEvent} {cache : QueryCache}
    (h : (cache key).RunsOn keepsFirst) : onEvent keepsFirst event cache key = cache key := by
  by_cases hkey : eventKey event = some key
  · obtain ⟨parsed, hparsed, rfl⟩ := Option.map_eq_some_iff.mp hkey
    rw [onEvent, hparsed]
    show Function.update cache parsed.key _ parsed.key = cache parsed.key
    rw [Function.update_self, Entry.setData_of_runsOn h, Entry.invalidate_of_runsOn h]
  · exact onEvent_of_ne hkey

/-- A handler keeps an answer up to date, whether or not it is for this answer. -/
theorem upToDate_onEvent {event : DomainEvent} {cache : QueryCache} {current : key.Data}
    (h : (cache key).UpToDate current) :
    (onEvent keepsFirst event cache key).UpToDate current := by
  by_cases hruns : (cache key).RunsOn keepsFirst
  · rwa [onEvent_of_runsOn hruns]
  · by_cases hkey : eventKey event = some key
    · exact Entry.upToDate_of_requested (fetch_onEvent hkey hruns)
    · rwa [onEvent_of_ne hkey]

/-- A change of one entry keeps an answer up to date if it does so for its own. -/
theorem upToDate_update {cache : QueryCache} {key' : QueryKey} {current : key.Data}
    {f : (key : QueryKey) → Entry ApiError key.Data → Entry ApiError key.Data}
    (hf : (cache key).UpToDate current → (f key (cache key)).UpToDate current)
    (h : (cache key).UpToDate current) :
    (Function.update cache key' (f key' (cache key')) key).UpToDate current := by
  by_cases hkey : key = key'
  · subst hkey
    rw [Function.update_self]
    exact hf h
  · rwa [Function.update_of_ne hkey]

/-- An answer stays up to date as long as the route answers the same. -/
theorem upToDate_step
    (hanswer : answer productId key (liveStep keepsFirst productId s step).world =
      answer productId key s.world) (h : s.UpToDate productId key) :
    (liveStep keepsFirst productId s step).UpToDate productId key := by
  obtain ⟨current, hcurrent, hentry⟩ := h
  refine ⟨current, hanswer.trans hcurrent, ?_⟩
  obtain ⟨world, stream, connected, cache⟩ := s
  cases step with
  | onEvent =>
    rw [liveStep]
    split
    · exact upToDate_onEvent hentry
    · exact hentry
  | invalidate key' =>
    exact upToDate_update (f := fun _ entry => entry.invalidate keepsFirst)
      Entry.upToDate_invalidate hentry
  | serve key' =>
    refine upToDate_update (f := fun key entry => entry.serve (answer productId key world))
      ?_ hentry
    rw [hcurrent]
    exact Entry.upToDate_serve
  | receive key' =>
    exact upToDate_update (f := fun _ entry => entry.receive) Entry.upToDate_receive hentry
  | connect =>
    rw [liveStep]
    split <;> exact hentry
  | onOpen =>
    rw [liveStep]
    split <;> exact hentry
  | _ => exact hentry

theorem world_step (h : ∀ r, step ≠ .write r) :
    (liveStep keepsFirst productId s step).world = s.world := by
  cases step with
  | write r => exact absurd rfl (h r)
  | connect =>
    rw [liveStep]
    split <;> rfl
  | onOpen =>
    rw [liveStep]
    split <;> rfl
  | onEvent =>
    rw [liveStep]
    split <;> rfl
  | _ => rfl

/-- The handler of a frame, seen from the state. -/
theorem fetch_next (hnext : Carries s.next.toList key) (h : ¬ (s.cache key).RunsOn keepsFirst) :
    ((liveStep keepsFirst productId s .onEvent).cache key).fetch = .requested := by
  obtain ⟨event, hevent, hkey⟩ := hnext
  rw [LiveState.next] at hevent
  split at hevent
  · next subscription event' rest hstream =>
    obtain rfl := List.mem_singleton.mp hevent
    rw [liveStep, hstream]
    exact fetch_onEvent hkey h
  · exact absurd hevent List.not_mem_nil

theorem upToDate_of_fetch (hserved : s.world.db.Served productId)
    (h : (s.cache key).fetch = .requested) : s.UpToDate productId key := by
  obtain ⟨current, hcurrent⟩ := exists_answer hserved key
  exact ⟨current, hcurrent, Entry.upToDate_of_requested h⟩

theorem served_step (hserved : s.world.db.Served productId) :
    (liveStep keepsFirst productId s step).world.db.Served productId := by
  by_cases hwrite : ∃ r, step = .write r
  · obtain ⟨r, rfl⟩ := hwrite
    exact served_respond hserved r
  · rw [world_step fun r hr => hwrite ⟨r, hr⟩]
    exact hserved

/-! ## Steps -/

/-- A write that changes an answer sends a frame for it, or the client asks anyway. -/
theorem sync_changed {r : Request} (hserved : s.world.db.Served productId)
    (hrecoverable : s.Recoverable keepsFirst productId (.write r))
    (hchanged : answer productId key (respond s.world r) ≠ answer productId key s.world) :
    (liveStep keepsFirst productId s (.write r)).UpToDate productId key ∨
      Carries (s.kept productId (.write r) ++ s.arriving productId (.write r)) key := by
  rcases hrecoverable.changed r rfl key hchanged with hfetch | hkept | ⟨hlistening, hpublishes, hok⟩
  · exact Or.inl (upToDate_of_fetch (served_step hserved) hfetch)
  · exact Or.inr (carries_append.mpr (Or.inl hkept))
  · obtain ⟨event, hone, hkey⟩ :=
      (answer_respond hserved hpublishes hok key).resolve_left hchanged
    refine Or.inr (carries_append.mpr (Or.inr ⟨event, ?_, hkey⟩))
    rw [LiveState.arriving, if_pos hlistening, hone]
    exact List.mem_singleton_self event

end ResyncLemmas

open ResyncLemmas

/-- A recoverable step keeps the client in sync. -/
theorem inSync_step {keepsFirst : Bool} {productId : String} {s : LiveState} {step : LiveStep}
    (hserved : s.world.db.Served productId) (hrecoverable : s.Recoverable keepsFirst productId step)
    (hsync : s.InSync productId) : (liveStep keepsFirst productId s step).InSync productId := by
  intro key
  suffices h : (liveStep keepsFirst productId s step).UpToDate productId key ∨
      Carries (s.kept productId step ++ s.arriving productId step) key from
    h.imp_right carries_step
  by_cases hanswer : answer productId key (liveStep keepsFirst productId s step).world =
      answer productId key s.world
  · rcases hsync key with hdata | hunderway
    · exact Or.inl (upToDate_step hanswer hdata)
    · have hframe : Carries (s.kept productId step) key ∨ s.Loses keepsFirst productId key step ∨
          step = .onEvent ∧ Carries s.next.toList key := carries_underway hunderway
      rcases hframe with hkept | hlost | ⟨rfl, hnext⟩
      · exact Or.inr (carries_append.mpr (Or.inl hkept))
      · exact (hrecoverable.lost key hlost).imp_left (upToDate_step hanswer)
      · by_cases hruns : (s.cache key).RunsOn keepsFirst
        · exact (hrecoverable.lost key ⟨hnext, hruns⟩).imp_left (upToDate_step hanswer)
        · exact Or.inl (upToDate_of_fetch (served_step hserved) (fetch_next hnext hruns))
  · by_cases hwrite : ∃ r, step = .write r
    · obtain ⟨r, rfl⟩ := hwrite
      exact sync_changed hserved hrecoverable hanswer
    · exact absurd (by rw [world_step fun r hr => hwrite ⟨r, hr⟩]) hanswer

/-- A client that mounts asks for everything. -/
theorem inSync_mount {productId : String} {w : World} (hserved : w.db.Served productId) :
    (LiveState.mount w).InSync productId :=
  fun _ => Or.inl (upToDate_of_fetch hserved rfl)

/-- A client that has settled and is in sync holds what the routes answer. -/
theorem data_of_settled {productId : String} {s : LiveState} (hsync : s.InSync productId)
    (hsettled : s.Settled) (key : QueryKey) :
    ∃ data, answer productId key s.world = .ok data ∧ (s.cache key).data = some data := by
  rcases hsync key with ⟨data, hanswer, hdata⟩ | hunderway
  · exact ⟨data, hanswer, Entry.data_of_idle hdata (hsettled.idle key)⟩
  · rw [hsettled.handled] at hunderway
    exact absurd hunderway not_carries_nil

/-- The page of a known product, after any steps that the client recovers from: once it has
settled, every cached answer is what the route answers. -/
theorem resync_of_recoverable (keepsFirst : Bool) (requests : List Request) (productId : String)
    (hknown : productId ∈ (run World.init requests).db.products.keys) (steps : List LiveStep)
    (hrecoverable : History.Along (liveStep keepsFirst productId)
      (fun s step => s.Recoverable keepsFirst productId step)
      (LiveState.mount (run World.init requests)) steps) :
    ∀ before, before <+: steps →
      (liveRun keepsFirst productId (.mount (run World.init requests)) before).Settled →
      ∀ key, ∃ data,
        answer productId key
          (liveRun keepsFirst productId (.mount (run World.init requests)) before).world =
            .ok data ∧
        ((liveRun keepsFirst productId (.mount (run World.init requests)) before).cache key).data =
          some data := by
  rintro before ⟨after, rfl⟩ hsettled key
  have hserved := served_run requests hknown
  have hbefore := (History.along_append.mp hrecoverable).1
  have hinv := History.run_invariant_of_along
    (J := fun s => s.world.db.Served productId ∧ s.InSync productId)
    ⟨hserved, inSync_mount hserved⟩
    (fun s step hstep h => ⟨served_step h.1, inSync_step h.1 hstep h.2⟩) hbefore
  exact data_of_settled hinv.2 hsettled key

/-! ## A step that the client does not recover from -/

namespace ResyncLemmas

variable {keepsFirst : Bool} {productId : String} {s : LiveState} {step : LiveStep}
  {key : QueryKey}

/-- Nothing is under way but what a step keeps and what it puts there. -/
theorem underway_subset : (liveStep keepsFirst productId s step).underway ⊆
    s.kept productId step ++ s.arriving productId step := by
  obtain ⟨world, stream, connected, cache⟩ := s
  cases stream with
  | none =>
    cases step with
    | _ => exact List.nil_subset _
  | some stream =>
    cases step with
    | write r =>
      obtain ⟨subscription, opened, wire⟩ := stream
      cases subscription with
      | live queue =>
        intro event hevent
        rcases List.mem_append.mp hevent with hwire | hqueue
        · exact List.mem_append_left _ (List.mem_append_left _ hwire)
        · rcases List.mem_append.mp (dropOldestAll_subset queue _ hqueue) with hkept | hnew
          · exact List.mem_append_left _ (List.mem_append_right _ hkept)
          · exact List.mem_append_right _ hnew
      | _ => exact List.subset_append_left _ _
    | subscribe =>
      show stream.subscribe.underway ⊆ stream.underway ++ []
      rw [underway_subscribe]
      exact List.subset_append_left _ _
    | send =>
      show stream.send.underway ⊆ stream.underway ++ []
      rw [underway_send]
      exact List.subset_append_left _ _
    | onEvent =>
      obtain ⟨subscription, opened, wire⟩ := stream
      cases opened with
      | false => exact List.subset_append_left _ _
      | true =>
        cases wire with
        | _ => exact List.subset_append_left _ _
    | unsubscribe => exact List.Subset.refl _
    | onError => exact List.nil_subset _
    | _ => exact List.subset_append_left _ _

/-- A write that makes room announces an event. -/
theorem listening_of_overflow {r : Request} {stream : Stream} (hstream : s.stream = some stream)
    (h : Carries (stream.overflow (announced productId s.world r)) key) :
    s.listening = true ∧ r.1.publishes = true ∧ (outcome s.world r).isOk = true := by
  obtain ⟨subscription, opened, wire⟩ := stream
  cases subscription with
  | live queue =>
    refine ⟨by rw [LiveState.listening, hstream], ?_⟩
    obtain hnone | ⟨event, _, hcompletes⟩ := announced_cases productId s.world r
    · rw [hnone] at h
      exact absurd h not_carries_nil
    · exact hcompletes
  | _ => exact absurd h not_carries_nil

/-- What is out of date when a step loses the frame for it stays out of date. -/
theorem not_upToDate_of_loses (hserved : s.world.db.Served productId)
    (hlost : s.Loses keepsFirst productId key step) (hdata : ¬ s.UpToDate productId key)
    (hframes : ¬ Carries (s.kept productId step ++ s.arriving productId step) key) :
    ¬ (liveStep keepsFirst productId s step).UpToDate productId key := by
  cases step with
  | write r =>
    obtain ⟨stream, hstream, hoverflow⟩ := hlost
    obtain ⟨hlistening, hpublishes, hok⟩ := listening_of_overflow hstream hoverflow
    have hanswer : answer productId key (respond s.world r) = answer productId key s.world := by
      refine (answer_respond hserved hpublishes hok key).resolve_right ?_
      rintro ⟨event, hone, hkey⟩
      refine hframes (carries_append.mpr (Or.inr ⟨event, ?_, hkey⟩))
      rw [LiveState.arriving, if_pos hlistening, hone]
      exact List.mem_singleton_self event
    rintro ⟨current, hcurrent, hentry⟩
    exact hdata ⟨current, hanswer ▸ hcurrent, hentry⟩
  | onEvent =>
    obtain ⟨_, hruns⟩ := hlost
    have hworld : (liveStep keepsFirst productId s .onEvent).world = s.world :=
      world_step fun r hr => by cases hr
    rintro ⟨current, hcurrent, hentry⟩
    rw [hworld] at hcurrent
    refine hdata ⟨current, hcurrent, ?_⟩
    rw [liveStep] at hentry
    split at hentry
    · next event rest _ =>
      have hhandled : (onEvent keepsFirst event s.cache key).UpToDate current := hentry
      rwa [onEvent_of_runsOn hruns] at hhandled
    · exact hentry
  | unsubscribe => exact hdata
  | onError => exact hdata
  | _ => exact hlost.elim

/-- What is up to date is not after a write that changes it, unless the client has asked. -/
theorem not_upToDate_of_changed {r : Request}
    (hchanged : answer productId key (respond s.world r) ≠ answer productId key s.world)
    (hfetch : (s.cache key).fetch ≠ .requested) (hdata : s.UpToDate productId key) :
    ¬ (liveStep keepsFirst productId s (.write r)).UpToDate productId key := by
  obtain ⟨current, hcurrent, hentry⟩ := hdata
  rintro ⟨current', hcurrent', hentry'⟩
  refine hchanged ?_
  have hsome : some current' = some current :=
    ((Entry.upToDate_iff hfetch).mp hentry').symm.trans ((Entry.upToDate_iff hfetch).mp hentry)
  cases hsome
  exact hcurrent'.trans hcurrent.symm

/-- After a step that is not recoverable, an answer is out of date and no frame for it is under
way. -/
theorem not_inSync_of_not_recoverable (hserved : s.world.db.Served productId)
    (hsync : s.InSync productId) (h : ¬ s.Recoverable keepsFirst productId step) :
    ¬ (liveStep keepsFirst productId s step).InSync productId := by
  by_cases hlost : ∀ key, s.Loses keepsFirst productId key step →
      s.UpToDate productId key ∨ Carries (s.kept productId step ++ s.arriving productId step) key
  · intro hsync'
    refine h ⟨hlost, ?_⟩
    rintro r rfl key hchanged
    by_contra hnot
    obtain ⟨hfetch, hkept, hcompletes⟩ : (s.cache key).fetch ≠ .requested ∧
        ¬ Carries (s.kept productId (.write r)) key ∧ ¬ (s.listening = true ∧
          r.1.publishes = true ∧ (outcome s.world r).isOk = true) := by
      simpa only [not_or] using hnot
    have hframes :
        ¬ Carries (s.kept productId (.write r) ++ s.arriving productId (.write r)) key := by
      intro hcarries
      rcases carries_append.mp hcarries with hcarries | ⟨event, hevent, _⟩
      · exact hkept hcarries
      · rw [LiveState.arriving] at hevent
        split at hevent
        · next hlistening =>
          obtain hnone | ⟨_, _, hdone⟩ := announced_cases productId s.world r
          · rw [hnone] at hevent
            exact List.not_mem_nil hevent
          · exact hcompletes ⟨hlistening, hdone⟩
        · exact List.not_mem_nil hevent
    have hdata : s.UpToDate productId key := by
      rcases hsync key with hdata | hunderway
      · exact hdata
      · have hframe : Carries (s.kept productId (.write r)) key ∨
            s.Loses keepsFirst productId key (.write r) ∨
              LiveStep.write r = .onEvent ∧ Carries s.next.toList key :=
          carries_underway hunderway
        rcases hframe with hcarries | hloses | ⟨hstep, _⟩
        · exact absurd hcarries hkept
        · exact (hlost key hloses).resolve_right hframes
        · cases hstep
    exact (hsync' key).elim (not_upToDate_of_changed hchanged hfetch hdata)
      fun hcarries => hframes (carries_mono underway_subset hcarries)
  · intro hsync'
    refine hlost fun key hloses => ?_
    by_contra hnot
    obtain ⟨hdata, hframes⟩ := not_or.mp hnot
    exact (hsync' key).elim (not_upToDate_of_loses hserved hloses hdata hframes)
      fun hcarries => hframes (carries_mono underway_subset hcarries)

end ResyncLemmas

/-- The client reconnects, and everything arrives that is on its way. -/
def settle : List LiveStep :=
  [.onError, .connect, .onOpen, .subscribe, .serve .timeline, .receive .timeline, .serve .graph,
   .receive .graph, .serve .releases, .receive .releases]

namespace ResyncLemmas

variable {keepsFirst : Bool} {productId : String}

theorem cache_settle (s : LiveState) (key : QueryKey) :
    (liveRun keepsFirst productId s settle).cache key =
      ((s.cache key).serve (answer productId key s.world)).receive := by
  cases key <;> rfl

theorem world_settle (s : LiveState) : (liveRun keepsFirst productId s settle).world = s.world :=
  rfl

theorem settled_settle (s : LiveState) : (liveRun keepsFirst productId s settle).Settled where
  connected := rfl
  handled := rfl
  idle key := by
    rw [cache_settle]
    exact Entry.fetch_serve_receive _ _

end ResyncLemmas

/-- The condition is exact: after a step that is not recoverable, some answer is out of date
and no frame for it is under way, and it stays out of date when the client has settled. -/
theorem stale_of_not_recoverable {keepsFirst : Bool} {productId : String} {s : LiveState}
    {step : LiveStep} (hserved : s.world.db.Served productId) (hsync : s.InSync productId)
    (h : ¬ s.Recoverable keepsFirst productId step) :
    ∃ key, ¬ Carries (liveStep keepsFirst productId s step).underway key ∧
      (liveRun keepsFirst productId (liveStep keepsFirst productId s step) settle).Settled ∧
      ∃ data,
        answer productId key
          (liveRun keepsFirst productId (liveStep keepsFirst productId s step) settle).world =
            .ok data ∧
        ((liveRun keepsFirst productId (liveStep keepsFirst productId s step) settle).cache
          key).data ≠ some data := by
  obtain ⟨key, hkey⟩ := not_forall.mp (not_inSync_of_not_recoverable hserved hsync h)
  obtain ⟨hdata, hframes⟩ := not_or.mp hkey
  obtain ⟨current, hcurrent⟩ := exists_answer (served_step hserved) key
  refine ⟨key, hframes, settled_settle _, current, ?_⟩
  rw [world_settle, cache_settle]
  refine ⟨hcurrent, ?_⟩
  exact Entry.data_serve_receive fun hentry => hdata ⟨current, hcurrent, hentry⟩

namespace Sample

/-- The page mounts and gets its answers, and the stream opens. -/
def opened : List LiveStep :=
  [.serve .timeline, .receive .timeline, .serve .graph, .receive .graph, .serve .releases,
   .receive .releases, .connect, .onOpen, .subscribe]

/-- 1.2.0 is created, the page hears of it, and the stream breaks once without a loss. -/
def told : List LiveStep :=
  opened ++ [.write (.createVersion true api12, env 23), .send, .onEvent, .serve .timeline,
    .receive .timeline, .onError, .connect, .onOpen, .subscribe]

/-- 1.2.0 is created while the stream is down. -/
def missed : List LiveStep :=
  opened ++ [.onError, .write (.createVersion true api12, env 23), .connect, .onOpen, .subscribe]

end Sample

/-- A step that loses no frame, whatever the state. -/
def LiveStep.quiet : LiveStep → Bool
  | .write _ | .onEvent | .unsubscribe | .onError => false
  | _ => true

namespace ResyncLemmas

theorem recoverable_of_quiet {keepsFirst : Bool} {productId : String} {s : LiveState}
    {step : LiveStep} (h : step.quiet = true) :
    s.Recoverable keepsFirst productId step := by
  cases step with
  | write r => cases h
  | onEvent => cases h
  | unsubscribe => cases h
  | onError => cases h
  | _ => exact ⟨fun _ hlost => hlost.elim, fun r hr => by cases hr⟩

theorem along_of_quiet {keepsFirst : Bool} {productId : String} {s : LiveState}
    {steps : List LiveStep} (h : ∀ step ∈ steps, step.quiet = true) :
    History.Along (liveStep keepsFirst productId)
      (fun s step => s.Recoverable keepsFirst productId step) s steps := by
  induction steps generalizing s with
  | nil => trivial
  | cons step rest ih =>
    exact ⟨recoverable_of_quiet (h step List.mem_cons_self),
      ih fun step hstep => h step (List.mem_cons_of_mem _ hstep)⟩

end ResyncLemmas

theorem resync_of_recoverable_sample :
    ∃ data,
      answer (Sample.id 10) .timeline
        (liveRun true (Sample.id 10) (.mount Sample.versioned) Sample.told).world = .ok data ∧
      ((liveRun true (Sample.id 10) (.mount Sample.versioned) Sample.told).cache .timeline).data =
        some data := by
  refine resync_of_recoverable true (Sample.setup ++ Sample.versions) (Sample.id 10)
    (by decide +kernel) Sample.told ?_ Sample.told (List.prefix_refl _) ⟨rfl, rfl, ?_⟩ .timeline
  · refine History.along_append.mpr ⟨along_of_quiet (by decide), ⟨?_, ?_⟩,
      recoverable_of_quiet rfl, ⟨?_, fun r hr => by cases hr⟩, recoverable_of_quiet rfl,
      recoverable_of_quiet rfl, ⟨?_, fun r hr => by cases hr⟩, along_of_quiet (by decide)⟩
    -- The write: nothing makes room, and the stream is open.
    · rintro key ⟨stream, hstream, hoverflow⟩
      cases hstream
      exact absurd hoverflow not_carries_nil
    · intro r hr key _
      cases hr
      exact Or.inr (Or.inr ⟨rfl, rfl, by decide +kernel⟩)
    -- The frame: every answer is cached.
    · rintro key ⟨_, _, hnone, _⟩
      cases key <;> cases hnone
    -- The error: nothing is under way.
    · exact fun key h => absurd h not_carries_nil
  · intro key
    cases key <;> rfl

/-- The version that is created while the stream is down: the client has opened it again, has
handled every frame and waits for no answer, and does not have the version. -/
theorem resync_lost :
    (liveRun true (Sample.id 10) (.mount Sample.versioned) Sample.missed).Settled ∧
      ∃ timeline cached : TimelineResponseModel,
        answer (Sample.id 10) .timeline
          (liveRun true (Sample.id 10) (.mount Sample.versioned) Sample.missed).world =
            .ok timeline ∧
        ((liveRun true (Sample.id 10) (.mount Sample.versioned) Sample.missed).cache
          .timeline).data = some cached ∧
        cached ≠ timeline := by
  refine ⟨⟨rfl, rfl, ?_⟩, (exec Sample.versioned
      (.createVersion true Sample.api12, Sample.env 23)).db.timelineView Sample.auroraRow,
    Sample.versioned.db.timelineView Sample.auroraRow, ?_, rfl, by decide +kernel⟩
  · intro key
    cases key <;> rfl
  · exact getTimeline_ok_iff.mpr ⟨Sample.auroraRow, by decide +kernel, rfl, by decide +kernel, rfl⟩

end LavsCore

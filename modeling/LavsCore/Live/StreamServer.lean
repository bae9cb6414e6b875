import LavsCore.Live.EventBus
import LavsCore.Live.SseFrames
import LavsCore.Python.JsonTexts

/-!
# The live streams of a server

`sse_event_stream.py` on top of the event bus: any number of responses, each a generator that
subscribes when it is first asked for a frame, sends an event or, after a pause, a comment, and
unsubscribes when it is closed. Publishers, responses and disconnects interleave in any order.

`live_stream_end_to_end`: what a client decodes from the body of its response and parses as JSON
are events that were published for its product while it was connected, in order, with the payloads
that the server gave them; an event is skipped only for 256 newer ones; and the bus knows the
products that somebody listens to, and no others.
-/

namespace LavsCore

/-- Where the generator of a response stands. -/
inductive StreamState where
  | created
  | waiting (queue : QueueId)
  | closed

/-- `sse_event_stream` of one response, with the turns of its loop so far. -/
structure SseStream where
  productId : String
  state : StreamState
  turns : List StreamTurn

/-- The bus with the responses that use it. -/
structure StreamServer where
  bus : EventBus
  streams : List SseStream
  /-- What has been published for the product of a stream while the stream was subscribed. -/
  offered : Nat → List DomainEvent

inductive ServerStep where
  | publish (event : DomainEvent)
  | connect (productId : String)
  /-- The first `__anext__` runs up to the wait. -/
  | start (i : Nat)
  /-- The wait ends, with an event or with the timeout. -/
  | turn (i : Nat)
  | close (i : Nat)

/-- The stream is subscribed for the product of the event. -/
def SseStream.listens (stream : SseStream) (event : DomainEvent) : Bool :=
  match stream.state with
  | .waiting _ => stream.productId = event.productId
  | _ => false

/-- The frame of a wait. -/
def StreamTurn.ofWait : Option DomainEvent → StreamTurn
  | some e => .event e.framed
  | none => .timeout

namespace StreamServer

def init : StreamServer := ⟨.init, [], fun _ => []⟩

def step (s : StreamServer) : ServerStep → Except QueueError StreamServer
  | .publish event => do
    return { s with
      bus := ← s.bus.publish event
      offered := fun i =>
        s.offered i ++ if (s.streams[i]?).any (SseStream.listens · event) then [event] else [] }
  | .connect productId => .ok { s with streams := s.streams ++ [⟨productId, .created, []⟩] }
  | .start i =>
    match s.streams[i]? with
    | some ⟨productId, .created, turns⟩ =>
      let (queue, bus) := s.bus.subscribe productId
      .ok { s with bus, streams := s.streams.set i ⟨productId, .waiting queue, turns⟩ }
    | _ => .ok s
  | .turn i =>
    match s.streams[i]? with
    | some ⟨productId, .waiting queue, turns⟩ =>
      let (event, bus) := s.bus.get queue
      .ok { s with
        bus, streams := s.streams.set i ⟨productId, .waiting queue, turns ++ [.ofWait event]⟩ }
    | _ => .ok s
  | .close i =>
    match s.streams[i]? with
    | some ⟨productId, .waiting queue, turns⟩ =>
      .ok { s with
        bus := s.bus.unsubscribe productId queue
        streams := s.streams.set i ⟨productId, .closed, turns⟩ }
    | some ⟨productId, _, turns⟩ =>
      .ok { s with streams := s.streams.set i ⟨productId, .closed, turns⟩ }
    | none => .ok s

def run (s : StreamServer) (steps : List ServerStep) : Except QueueError StreamServer :=
  steps.foldlM step s

end StreamServer

/-! ## The invariant -/

open BoundedQueue (Op)

/-- The stream has sent what a reader of its queue has received. -/
structure SseStream.Sends (stream : SseStream) (queues : QueueId → List DomainEvent)
    (offered : List DomainEvent) (ops : List (Op DomainEvent)) : Prop where
  puts : BoundedQueue.puts ops = offered
  received : stream.turns.filterMap StreamTurn.event? =
    (BoundedQueue.run queueMaxsize ops).received.map DomainEvent.framed
  created : stream.state = .created → ops = []
  pending : ∀ queue, stream.state = .waiting queue →
    (BoundedQueue.run queueMaxsize ops).pending = queues queue

/-- The registry holds the queues of the streams that wait, each stream has a queue of its own,
and has sent what its queue has delivered. -/
structure StreamServer.Sound (s : StreamServer) : Prop where
  valid : s.bus.Valid
  registered : ∀ productId queue, s.bus.Subscribed productId queue ↔
    ∃ (i : Nat) (stream : SseStream), s.streams[i]? = some stream ∧
      stream.productId = productId ∧ stream.state = .waiting queue
  alone : ∀ (i j : Nat) (stream stream' : SseStream) queue, s.streams[i]? = some stream →
    s.streams[j]? = some stream' → stream.state = .waiting queue →
      stream'.state = .waiting queue → i = j
  silent : ∀ i, s.streams[i]? = none → s.offered i = []
  sends : ∀ (i : Nat) (stream : SseStream), s.streams[i]? = some stream →
    ∃ ops, stream.Sends s.bus.queues (s.offered i) ops

namespace StreamServerLemmas

open EventBusLemmas

variable {s : StreamServer} {i : Nat} {stream stream' : SseStream}

theorem getElem?_set_iff {α : Type} {l : List α} {i j : Nat} {x y : α} (hi : i < l.length) :
    (l.set i x)[j]? = some y ↔ j = i ∧ y = x ∨ j ≠ i ∧ l[j]? = some y := by
  rcases eq_or_ne j i with rfl | hne
  · rw [List.getElem?_set_self hi]
    simp [eq_comm]
  · rw [List.getElem?_set_ne hne.symm]
    simp [hne]

/-- A stream moves on, alone or with the bus, and the others do not notice. -/
theorem sound_set (h : s.Sound) (hi : s.streams[i]? = some stream) {bus : EventBus}
    (hvalid : bus.Valid)
    (hregistered : ∀ productId queue, bus.Subscribed productId queue ↔
      stream'.productId = productId ∧ stream'.state = .waiting queue ∨
        s.bus.Subscribed productId queue ∧ stream.state ≠ .waiting queue)
    (halone : ∀ productId queue, stream'.state = .waiting queue →
      s.bus.Subscribed productId queue → stream.state = .waiting queue)
    (hothers : ∀ productId queue, s.bus.Subscribed productId queue →
      stream.state ≠ .waiting queue → bus.queues queue = s.bus.queues queue)
    (hsends : ∃ ops, stream'.Sends bus.queues (s.offered i) ops) :
    StreamServer.Sound { s with bus, streams := s.streams.set i stream' } := by
  have hlt : i < s.streams.length := (List.getElem?_eq_some_iff.mp hi).1
  have hwaits : ∀ (j : Nat) (t : SseStream) queue, s.streams[j]? = some t →
      t.state = .waiting queue → s.bus.Subscribed t.productId queue :=
    fun j t queue hj ht => (h.registered _ _).mpr ⟨j, t, hj, rfl, ht⟩
  -- Another stream does not wait on the queue of stream `i`.
  have hne : ∀ (j : Nat) (t : SseStream) queue, j ≠ i → s.streams[j]? = some t →
      t.state = .waiting queue → stream.state ≠ .waiting queue :=
    fun j t queue hji hj ht hstream => hji (h.alone j i t stream queue hj hi ht hstream)
  refine ⟨hvalid, fun productId queue => ?_, ?_, fun j hj => ?_, fun j t hj => ?_⟩
  · rw [hregistered]
    constructor
    · rintro (⟨hproduct, hstate⟩ | ⟨hsub, hold⟩)
      · exact ⟨i, stream', (getElem?_set_iff hlt).mpr (Or.inl ⟨rfl, rfl⟩), hproduct, hstate⟩
      · obtain ⟨j, t, hj, hproduct, hstate⟩ := (h.registered productId queue).mp hsub
        refine ⟨j, t, (getElem?_set_iff hlt).mpr (Or.inr ⟨?_, hj⟩), hproduct, hstate⟩
        rintro rfl
        cases hi.symm.trans hj
        exact hold hstate
    · rintro ⟨j, t, hj, rfl, hstate⟩
      rcases (getElem?_set_iff hlt).mp hj with ⟨rfl, rfl⟩ | ⟨hji, hj⟩
      · exact Or.inl ⟨rfl, hstate⟩
      · exact Or.inr ⟨hwaits j t queue hj hstate, hne j t queue hji hj hstate⟩
  · -- The queue of stream `i` is its own, or it is new.
    have hnew : ∀ (j : Nat) (t : SseStream) queue, j ≠ i → s.streams[j]? = some t →
        stream'.state = .waiting queue → t.state ≠ .waiting queue := by
      intro j t queue hji hj hstream ht
      exact hne j t queue hji hj ht (halone t.productId queue hstream (hwaits j t queue hj ht))
    intro j k t t' queue hj hk ht ht'
    rcases (getElem?_set_iff hlt).mp hj with ⟨rfl, rfl⟩ | ⟨hji, hj'⟩
    · rcases (getElem?_set_iff hlt).mp hk with ⟨rfl, -⟩ | ⟨hki, hk'⟩
      · rfl
      · exact absurd ht' (hnew k t' queue hki hk' ht)
    · rcases (getElem?_set_iff hlt).mp hk with ⟨rfl, rfl⟩ | ⟨hki, hk'⟩
      · exact absurd ht (hnew j t queue hji hj' ht')
      · exact h.alone j k t t' queue hj' hk' ht ht'
  · refine h.silent j ?_
    rw [List.getElem?_eq_none_iff] at hj ⊢
    rwa [List.length_set] at hj
  · rcases (getElem?_set_iff hlt).mp hj with ⟨rfl, rfl⟩ | ⟨hji, hj⟩
    · exact hsends
    · obtain ⟨ops, hops⟩ := h.sends j t hj
      refine ⟨ops, hops.puts, hops.received, hops.created, fun queue hstate => ?_⟩
      rw [hops.pending queue hstate]
      exact (hothers t.productId queue (hwaits j t queue hj hstate)
        (hne j t queue hji hj hstate)).symm

theorem sound_publish (h : s.Sound) (event : DomainEvent) :
    ∃ s', s.step (.publish event) = .ok s' ∧ s'.Sound := by
  refine ⟨_, by rw [StreamServer.step, publish_spec h.valid]; rfl, ?_⟩
  refine ⟨valid_withQueues h.valid fun queue => ?_, h.registered, h.alone, fun i hi => ?_,
    fun i stream hi => ?_⟩
  · split
    · exact dropOldest_length (by decide) event (h.valid.bounded queue)
    · exact h.valid.bounded queue
  · show s.offered i ++ _ = []
    rw [h.silent i hi, hi]
    rfl
  · obtain ⟨ops, hops⟩ := h.sends i stream hi
    show ∃ ops, stream.Sends (s.bus.fanOut event).queues
      (s.offered i ++ if (s.streams[i]?).any (SseStream.listens · event) then [event] else []) ops
    rw [hi, Option.any_some]
    cases hstate : stream.state with
    | waiting queue =>
      have hsub : s.bus.Subscribed event.productId queue ↔
          stream.productId = event.productId := by
        rw [h.registered]
        constructor
        · rintro ⟨j, t, hj, ht, hwaiting⟩
          obtain rfl := h.alone j i t stream queue hj hi hwaiting hstate
          cases hi.symm.trans hj
          exact ht
        · exact fun hproduct => ⟨i, stream, hi, hproduct, hstate⟩
      have hlistens : stream.listens event = decide (stream.productId = event.productId) := by
        rw [SseStream.listens, hstate]
      by_cases hproduct : stream.productId = event.productId
      · refine ⟨ops ++ [.put event], ?_, ?_, fun hcreated => ?_, fun queue' hqueue' => ?_⟩
        · rw [BoundedQueue.puts_put, hops.puts, hlistens, decide_eq_true hproduct]
          rfl
        · rw [BoundedQueue.run_append_singleton]
          exact hops.received
        · rw [hstate] at hcreated
          cases hcreated
        · cases hstate.symm.trans hqueue'
          rw [BoundedQueue.run_append_singleton, EventBus.fanOut]
          dsimp only
          rw [if_pos (hsub.mpr hproduct), ← hops.pending queue hstate]
          rfl
      · refine ⟨ops, ?_, hops.received, hops.created, fun queue' hqueue' => ?_⟩
        · rw [hops.puts, hlistens, decide_eq_false hproduct]
          exact (List.append_nil _).symm
        · cases hstate.symm.trans hqueue'
          rw [hops.pending queue hstate, EventBus.fanOut]
          dsimp only
          rw [if_neg (mt hsub.mp hproduct)]
    | _ =>
      have hlistens : stream.listens event = false := by rw [SseStream.listens, hstate]
      refine ⟨ops, ?_, hops.received, hops.created, fun queue hqueue => ?_⟩
      · rw [hops.puts, hlistens]
        exact (List.append_nil _).symm
      · rw [hstate] at hqueue
        cases hqueue

theorem sound_connect (h : s.Sound) (productId : String) :
    ∃ s', s.step (.connect productId) = .ok s' ∧ s'.Sound := by
  -- The new stream waits on nothing, and the others stay where they are.
  have hat : ∀ (j : Nat) (t : SseStream),
      (s.streams ++ [⟨productId, .created, []⟩])[j]? = some t ↔ s.streams[j]? = some t ∨
        j = s.streams.length ∧ t = ⟨productId, .created, []⟩ := by
    intro j t
    rcases lt_trichotomy j s.streams.length with hlt | rfl | hgt
    · rw [List.getElem?_append_left hlt]
      simp [hlt.ne]
    · simp [eq_comm]
    · rw [List.getElem?_eq_none (by simpa using Nat.succ_le_of_lt hgt),
        List.getElem?_eq_none hgt.le]
      simp [hgt.ne']
  have hold : ∀ (j : Nat) (t : SseStream) queue,
      (s.streams ++ [⟨productId, .created, []⟩])[j]? = some t → t.state = .waiting queue →
        s.streams[j]? = some t := by
    intro j t queue hj hstate
    rcases (hat j t).mp hj with hj | ⟨-, rfl⟩
    · exact hj
    · cases hstate
  refine ⟨_, rfl, h.valid, fun productId' queue => ?_, ?_, fun j hj => ?_, fun j t hj => ?_⟩
  · rw [h.registered]
    constructor
    · rintro ⟨j, t, hj, hproduct, hstate⟩
      exact ⟨j, t, (hat j t).mpr (Or.inl hj), hproduct, hstate⟩
    · rintro ⟨j, t, hj, hproduct, hstate⟩
      exact ⟨j, t, hold j t queue hj hstate, hproduct, hstate⟩
  · intro j k t t' queue hj hk ht ht'
    exact h.alone j k t t' queue (hold j t queue hj ht) (hold k t' queue hk ht') ht ht'
  · refine h.silent j ?_
    rw [List.getElem?_eq_none_iff] at hj ⊢
    exact Nat.le_trans (by simp) hj
  · rcases (hat j t).mp hj with hj | ⟨rfl, rfl⟩
    · exact h.sends j t hj
    · refine ⟨[], ?_, rfl, fun _ => rfl, fun queue hstate => ?_⟩
      · exact (h.silent _ (List.getElem?_eq_none (Nat.le_refl _))).symm
      · cases hstate

theorem sound_start (h : s.Sound) (i : Nat) : ∃ s', s.step (.start i) = .ok s' ∧ s'.Sound := by
  unfold StreamServer.step
  dsimp only
  split
  · next productId turns hi =>
    obtain ⟨ops, hops⟩ := h.sends i _ hi
    have hnew : ∀ productId', ¬ s.bus.Subscribed productId' s.bus.fresh :=
      fun productId' hsub => Nat.lt_irrefl _ (h.valid.known productId' _ hsub)
    refine ⟨_, rfl, sound_set h hi (valid_subscribe h.valid productId) ?_ ?_ ?_ ?_⟩
    · intro productId' queue
      rw [subscribed_subscribe]
      constructor
      · rintro (hsub | ⟨rfl, rfl⟩)
        · exact Or.inr ⟨hsub, by rintro ⟨⟩⟩
        · exact Or.inl ⟨rfl, rfl⟩
      · rintro (⟨rfl, hstate⟩ | ⟨hsub, -⟩)
        · cases hstate
          exact Or.inr ⟨rfl, rfl⟩
        · exact Or.inl hsub
    · rintro productId' queue ⟨⟩ hsub
      exact absurd hsub (hnew productId')
    · intro productId' queue hsub _
      show Function.update s.bus.queues s.bus.fresh [] queue = s.bus.queues queue
      rw [Function.update_of_ne]
      rintro rfl
      exact hnew productId' hsub
    · -- Nothing has happened on the new queue.
      obtain rfl := hops.created rfl
      refine ⟨[], hops.puts, hops.received, fun hcreated => ?_, fun queue hstate => ?_⟩
      · cases hcreated
      · cases hstate
        show [] = Function.update s.bus.queues s.bus.fresh [] s.bus.fresh
        rw [Function.update_self]
  · exact ⟨s, rfl, h⟩

theorem sound_turn (h : s.Sound) (i : Nat) : ∃ s', s.step (.turn i) = .ok s' ∧ s'.Sound := by
  unfold StreamServer.step
  dsimp only
  split
  · next productId queue turns hi =>
    obtain ⟨ops, hops⟩ := h.sends i _ hi
    have hpending := hops.pending queue rfl
    have hregistered : ∀ (bus : EventBus), bus.subscribers = s.bus.subscribers →
        ∀ productId' queue', bus.Subscribed productId' queue' ↔
          productId = productId' ∧ StreamState.waiting queue = .waiting queue' ∨
            s.bus.Subscribed productId' queue' ∧ StreamState.waiting queue ≠ .waiting queue' := by
      intro bus hbus productId' queue'
      rw [EventBus.Subscribed, hbus]
      refine ⟨fun hsub => ?_, ?_⟩
      · rcases eq_or_ne queue queue' with rfl | hne
        · have hown := (h.registered productId queue).mpr ⟨i, _, hi, rfl, rfl⟩
          exact Or.inl ⟨h.valid.owner _ _ _ hown hsub, rfl⟩
        · exact Or.inr ⟨hsub, fun heq => hne (StreamState.waiting.inj heq)⟩
      · rintro (⟨rfl, hstate⟩ | ⟨hsub, -⟩)
        · cases hstate
          exact (h.registered productId queue).mpr ⟨i, _, hi, rfl, rfl⟩
        · exact hsub
    cases hqueue : s.bus.queues queue with
    | nil =>
      have hget : s.bus.get queue = (none, s.bus) := by rw [EventBus.get, hqueue, getNowait]
      rw [hget]
      refine ⟨_, rfl, sound_set h hi h.valid (hregistered s.bus rfl) (fun _ _ hstate _ => hstate)
        (fun _ _ _ _ => rfl) ⟨ops, hops.puts, ?_, ?_, hops.pending⟩⟩
      · rw [← hops.received, List.filterMap_append]
        exact List.append_nil _
      · rintro ⟨⟩
    | cons event rest =>
      have hget : s.bus.get queue =
          (some event, { s.bus with queues := Function.update s.bus.queues queue rest }) := by
        rw [EventBus.get, hqueue, getNowait]
      have hstep : BoundedQueue.run queueMaxsize (ops ++ [.get]) =
          ⟨rest, (BoundedQueue.run queueMaxsize ops).received ++ [event]⟩ := by
        rw [BoundedQueue.run_append_singleton, BoundedQueue.step, hpending, hqueue]
      rw [hget]
      refine ⟨_, rfl, sound_set h hi (valid_withQueues h.valid fun queue' => ?_)
        (hregistered _ rfl) (fun _ _ hstate _ => hstate) ?_ ⟨ops ++ [.get], ?_, ?_, ?_, ?_⟩⟩
      · have hbound := h.valid.bounded queue
        rw [hqueue, List.length_cons] at hbound
        rw [Function.update_apply]
        split
        · exact Nat.le_of_succ_le hbound
        · exact h.valid.bounded queue'
      · intro productId' queue' _ hstate
        show Function.update s.bus.queues queue rest queue' = s.bus.queues queue'
        rw [Function.update_of_ne]
        rintro rfl
        exact hstate rfl
      · rw [BoundedQueue.puts_get, hops.puts]
      · rw [hstep, List.map_append, ← hops.received, List.filterMap_append]
        rfl
      · rintro ⟨⟩
      · rintro queue' ⟨⟩
        rw [hstep]
        show rest = Function.update s.bus.queues queue rest queue
        rw [Function.update_self]
  · exact ⟨s, rfl, h⟩

theorem sound_close (h : s.Sound) (i : Nat) : ∃ s', s.step (.close i) = .ok s' ∧ s'.Sound := by
  unfold StreamServer.step
  dsimp only
  split
  · next productId queue turns hi =>
    obtain ⟨ops, hops⟩ := h.sends i _ hi
    have hown := (h.registered productId queue).mpr ⟨i, _, hi, rfl, rfl⟩
    refine ⟨_, rfl, sound_set h hi (valid_unsubscribe h.valid productId queue) ?_ ?_ ?_ ?_⟩
    · intro productId' queue'
      rw [subscribed_unsubscribe]
      constructor
      · rintro ⟨hsub, hne⟩
        refine Or.inr ⟨hsub, ?_⟩
        rintro ⟨⟩
        exact hne ⟨h.valid.owner _ _ _ hsub hown, rfl⟩
      · rintro (⟨-, hstate⟩ | ⟨hsub, hstate⟩)
        · cases hstate
        · exact ⟨hsub, fun heq => hstate (congrArg _ heq.2.symm)⟩
    · rintro _ _ ⟨⟩
    · intro productId' queue' _ _
      rw [queues_unsubscribe]
    · refine ⟨ops, hops.puts, hops.received, ?_, ?_⟩
      · rintro ⟨⟩
      · rintro _ ⟨⟩
  · next productId state turns hnot hi =>
    obtain ⟨ops, hops⟩ := h.sends i _ hi
    refine ⟨_, rfl, sound_set h hi h.valid ?_ ?_ (fun _ _ _ _ => rfl) ?_⟩
    · intro productId' queue'
      constructor
      · intro hsub
        refine Or.inr ⟨hsub, ?_⟩
        rintro rfl
        exact hnot queue' rfl
      · rintro (⟨-, hstate⟩ | ⟨hsub, -⟩)
        · cases hstate
        · exact hsub
    · rintro _ _ ⟨⟩
    · refine ⟨ops, hops.puts, hops.received, ?_, ?_⟩
      · rintro ⟨⟩
      · rintro _ ⟨⟩
  · exact ⟨s, rfl, h⟩

/-- Every step goes through and leaves the server sound. -/
theorem step_sound (h : s.Sound) (x : ServerStep) : ∃ s', s.step x = .ok s' ∧ s'.Sound := by
  cases x with
  | publish event => exact sound_publish h event
  | connect productId => exact sound_connect h productId
  | start i => exact sound_start h i
  | turn i => exact sound_turn h i
  | close i => exact sound_close h i

theorem sound_init : StreamServer.init.Sound := by
  refine ⟨valid_init, fun productId queue => ?_, ?_, fun _ _ => rfl, ?_⟩
  · refine ⟨fun hsub => absurd hsub List.not_mem_nil, ?_⟩
    rintro ⟨i, stream, hi, -⟩
    cases hi
  · rintro i j stream stream' queue hi
    cases hi
  · rintro i stream hi
    cases hi

theorem run_sound (h : s.Sound) (steps : List ServerStep) :
    ∃ s', s.run steps = .ok s' ∧ s'.Sound := by
  induction steps generalizing s with
  | nil => exact ⟨s, rfl, h⟩
  | cons x rest ih =>
    obtain ⟨next, hstep, hnext⟩ := step_sound h x
    obtain ⟨s', hrun, hsound⟩ := ih hnext
    refine ⟨s', ?_, hsound⟩
    rw [StreamServer.run, List.foldlM_cons, hstep]
    exact hrun

/-- A product is registered while a stream waits for it. -/
theorem mem_keys (h : s.Sound) (productId : String) :
    productId ∈ s.bus.subscribers.keys ↔
      ∃ stream ∈ s.streams, stream.productId = productId ∧
        ∃ queue, stream.state = .waiting queue := by
  rw [Dict.mem_keys_iff]
  constructor
  · rintro ⟨members, hget⟩
    obtain ⟨queue, hqueue⟩ := List.exists_mem_of_ne_nil members
      fun hnil => h.valid.filled productId (hnil ▸ hget)
    have hsub : s.bus.Subscribed productId queue := by rwa [EventBus.Subscribed, hget]
    obtain ⟨i, stream, hi, hproduct, hstate⟩ := (h.registered productId queue).mp hsub
    exact ⟨stream, List.mem_of_getElem? hi, hproduct, queue, hstate⟩
  · rintro ⟨stream, hmem, hproduct, queue, hstate⟩
    obtain ⟨i, hi⟩ := List.mem_iff_getElem?.mp hmem
    have hsub := (h.registered productId queue).mpr ⟨i, stream, hi, hproduct, hstate⟩
    cases hget : s.bus.subscribers.get? productId with
    | some members => exact ⟨members, rfl⟩
    | none =>
      rw [EventBus.Subscribed, hget] at hsub
      exact absurd hsub List.not_mem_nil

/-- A message as a client sees it: its type, and its data parsed as JSON. -/
def seen (message : EventStream.Message) : String × Option JsonText.Value :=
  (String.ofList message.type, JsonText.parse message.data)

/-- A client sees what its stream has sent. -/
theorem decode_sends {queues : QueueId → List DomainEvent} {offered : List DomainEvent}
    {ops : List (Op DomainEvent)} (h : stream.Sends queues offered ops) :
    (EventStream.decode (streamText stream.turns)).map seen =
      (BoundedQueue.run queueMaxsize ops).received.map fun event =>
        (event.eventType.value, some event.data.parsed) := by
  rw [SseFramesLemmas.decode_streamText, h.received, List.map_map, List.map_map]
  refine List.map_congr_left fun event _ => ?_
  simp only [Function.comp_apply, seen, DomainEvent.framed, String.ofList_toList,
    Py.parse_dumpsCompact]

end StreamServerLemmas

open StreamServerLemmas

/-- However publishers, responses and disconnects interleave, every client decodes events that
were published for its product while it was subscribed, at increasing positions and with their
payloads. It misses one before another only if 256 newer ones follow. The registry holds the
products of the streams that wait. -/
theorem live_stream_end_to_end (steps : List ServerStep) :
    ∃ s, StreamServer.init.run steps = .ok s ∧
      (∀ productId, productId ∈ s.bus.subscribers.keys ↔
        ∃ stream ∈ s.streams, stream.productId = productId ∧
          ∃ queue, stream.state = .waiting queue) ∧
      ∀ (i : Nat) (stream : SseStream), s.streams[i]? = some stream →
        ∃ positions : List Nat, positions.Pairwise (· < ·) ∧
          (EventStream.decode (streamText stream.turns)).map (fun message =>
              some (String.ofList message.type, JsonText.parse message.data)) =
            positions.map (fun k => (s.offered i)[k]?.map fun event =>
              (event.eventType.value, some event.data.parsed)) ∧
          ∀ k < (s.offered i).length, k ∈ positions ∨ (∀ j ∈ positions, j < k) ∨
            k + queueMaxsize < (s.offered i).length := by
  obtain ⟨s, hrun, hsound⟩ := run_sound sound_init steps
  refine ⟨s, hrun, mem_keys hsound, fun i stream hi => ?_⟩
  obtain ⟨ops, hops⟩ := hsound.sends i stream hi
  obtain ⟨positions, hfollows⟩ := BoundedQueue.exists_follows (by decide : 0 < queueMaxsize) ops
  refine ⟨positions, hfollows.increasing, ?_, fun k hk => ?_⟩
  · have hdecoded := congrArg (List.map some) (decode_sends hops)
    rw [List.map_map] at hdecoded
    have hreceived := congrArg (List.map (Option.map fun event : DomainEvent =>
      (event.eventType.value, some event.data.parsed))) hfollows.received
    rw [hops.puts, List.map_map, List.map_map] at hreceived
    rw [List.map_map] at hdecoded
    exact hdecoded.trans hreceived
  · rw [← hops.puts] at hk ⊢
    by_cases hmem : k ∈ positions
    · exact Or.inl hmem
    · exact Or.inr (hfollows.skipped hk hmem)

end LavsCore

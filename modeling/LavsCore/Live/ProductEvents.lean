import LavsCore.Lib.History
import LavsCore.Lib.Revalidation
import LavsCore.Live.Endpoints
import LavsCore.Live.EventBus
import Mathlib.Logic.Function.Basic

/-!
# The live stream of a product

`EventBus` and `sse_event_stream.py` on the server, `subscribeToProductEvents` and
`useProductEvents` on the client, as one state machine (`liveStep`). The handlers of the
server run to their end on one event loop, so that a write and the events it publishes are
one step, and so is an answer.

The server puts an event into the queue of the subscriber (`publish`), the generator of the
response takes it out and sends it, and the client handles it. The head of the response is
sent before the generator subscribes, and the client reports the connection as open when
the head arrives. Queue and wire of a connection end with it. A lost connection is opened
again after a pause, whose length does not matter here.

The client fetches all three answers when it mounts, and after that only when it is told to
(`invalidate`). The query client is no part of the repository. It cancels a running request
for a new one, and may make an exception for a first one: `keepsFirst` says whether it does.

`queue_bounded`: no queue of a subscriber outgrows `queueMaxsize`.
-/

namespace LavsCore

/-! ## The server's side of a connection -/

/-- The generator of the response: not started, subscribed with its queue, or ended. -/
inductive Subscription where
  | pending
  | live (queue : List DomainEvent)
  | closed

/-- A connection: the generator, whether the client has seen the response, and the frames
sent and not yet handled. -/
structure Stream where
  subscription : Subscription
  opened : Bool
  wire : List DomainEvent

namespace Stream

/-- A request for the stream, on its way. -/
def connecting : Stream := ⟨.pending, false, []⟩

/-- What is queued for the client. -/
def queue (stream : Stream) : List DomainEvent :=
  match stream.subscription with
  | .live queue => queue
  | _ => []

/-- `EventBus.publish`, at the queue of this connection. A full queue drops its oldest event. -/
def publish (events : List DomainEvent) (stream : Stream) : Stream :=
  match stream.subscription with
  | .live queue => { stream with subscription := .live (dropOldestAll queueMaxsize queue events) }
  | _ => stream

/-- The events that make room for others. -/
def overflow (events : List DomainEvent) (stream : Stream) : List DomainEvent :=
  match stream.subscription with
  | .live queue => evictedAll queueMaxsize queue events
  | _ => []

/-- `EventBus.subscribe`. -/
def subscribe (stream : Stream) : Stream :=
  match stream.subscription with
  | .pending => { stream with subscription := .live [] }
  | _ => stream

/-- The generator sends the oldest event. -/
def send (stream : Stream) : Stream :=
  match stream.subscription with
  | .live (event :: rest) =>
    { stream with subscription := .live rest, wire := stream.wire ++ [event] }
  | _ => stream

/-- `EventBus.unsubscribe`: the queue goes. -/
def unsubscribe (stream : Stream) : Stream := { stream with subscription := .closed }

/-- What has been published to the client and not been handled. -/
def underway (stream : Stream) : List DomainEvent := stream.wire ++ stream.queue

end Stream

/-! ## The client -/

/-- The cached answers. -/
abbrev QueryCache := (key : QueryKey) → Entry ApiError key.Data

/-- The handler of an event: set what is cached, and invalidate it. -/
def handleEvent (keepsFirst : Bool) (event : ProductEvent) (cache : QueryCache) : QueryCache :=
  Function.update cache event.key
    (((cache event.key).setData (event.reduce event.key)).invalidate keepsFirst)

/-- A listener of the stream: nothing happens on a payload that cannot be read. -/
def onEvent (keepsFirst : Bool) (event : DomainEvent) (cache : QueryCache) : QueryCache :=
  match parseEvent event with
  | some event => handleEvent keepsFirst event cache
  | none => cache

/-- The server, the connection if there is one, and the client. -/
structure LiveState where
  world : World
  stream : Option Stream
  connected : Bool
  cache : QueryCache

namespace LiveState

/-- The client mounts. -/
def mount (w : World) : LiveState := ⟨w, none, false, fun _ => Entry.mount⟩

/-- The frames on their way to the client. -/
def underway (s : LiveState) : List DomainEvent :=
  match s.stream with
  | some stream => stream.underway
  | none => []

end LiveState

/-! ## Steps -/

/-- What can happen next. -/
inductive LiveStep where
  /-- The server executes a write. -/
  | write (request : Request)
  /-- `connect`, unless there is a connection. -/
  | connect
  /-- The generator of the response starts. -/
  | subscribe
  /-- The response arrives. -/
  | onOpen
  | send
  /-- The client handles the next frame. -/
  | onEvent
  /-- The generator ends. -/
  | unsubscribe
  /-- The client loses the connection. -/
  | onError
  /-- Some other part of the client asks for an answer again. -/
  | invalidate (key : QueryKey)
  /-- The server answers a request. -/
  | serve (key : QueryKey)
  /-- The answer arrives. -/
  | receive (key : QueryKey)

/-- One step, for the page of a product. A step that cannot happen changes nothing. -/
def liveStep (keepsFirst : Bool) (productId : String) (s : LiveState) : LiveStep → LiveState
  | .write r =>
    { s with
      world := respond s.world r
      stream := s.stream.map (Stream.publish (announced productId s.world r)) }
  | .connect =>
    match s.stream with
    | none => { s with stream := some Stream.connecting }
    | some _ => s
  | .subscribe => { s with stream := s.stream.map Stream.subscribe }
  | .onOpen =>
    match s.stream with
    | some stream => { s with stream := some { stream with opened := true }, connected := true }
    | none => s
  | .send => { s with stream := s.stream.map Stream.send }
  | .onEvent =>
    match s.stream with
    | some ⟨subscription, true, event :: rest⟩ =>
      { s with
        stream := some ⟨subscription, true, rest⟩
        cache := onEvent keepsFirst event s.cache }
    | _ => s
  | .unsubscribe => { s with stream := s.stream.map Stream.unsubscribe }
  | .onError => { s with stream := none, connected := false }
  | .invalidate key =>
    { s with cache := Function.update s.cache key ((s.cache key).invalidate keepsFirst) }
  | .serve key =>
    { s with
      cache := Function.update s.cache key ((s.cache key).serve (answer productId key s.world)) }
  | .receive key => { s with cache := Function.update s.cache key (s.cache key).receive }

/-- The state after a list of steps. -/
abbrev liveRun (keepsFirst : Bool) (productId : String) (s : LiveState) (steps : List LiveStep) :
    LiveState :=
  History.run (liveStep keepsFirst productId) s steps

/-- The client reports the connection as open, it has handled every frame, and no answer is
on its way. -/
structure LiveState.Settled (s : LiveState) : Prop where
  connected : s.connected = true
  handled : s.underway = []
  idle : ∀ key, (s.cache key).fetch = .idle

/-! ## The queue is bounded -/

namespace ProductEventsLemmas

variable {stream : Stream}

theorem queue_publish {events : List DomainEvent} (h : stream.queue.length ≤ queueMaxsize) :
    (stream.publish events).queue.length ≤ queueMaxsize := by
  obtain ⟨subscription, opened, wire⟩ := stream
  cases subscription with
  | live queue => exact dropOldestAll_length (by decide) events h
  | _ => exact h

theorem queue_subscribe (h : stream.queue.length ≤ queueMaxsize) :
    stream.subscribe.queue.length ≤ queueMaxsize := by
  obtain ⟨subscription, opened, wire⟩ := stream
  cases subscription with
  | _ => exact h

theorem queue_send (h : stream.queue.length ≤ queueMaxsize) :
    stream.send.queue.length ≤ queueMaxsize := by
  obtain ⟨subscription, opened, wire⟩ := stream
  cases subscription with
  | live queue =>
    cases queue with
    | nil => exact h
    | cons event rest => exact Nat.le_of_succ_le h
  | _ => exact h

end ProductEventsLemmas

open ProductEventsLemmas

/-- No queue of a subscriber outgrows its bound. -/
theorem queue_bounded (keepsFirst : Bool) (productId : String) (w : World)
    (steps : List LiveStep) :
    ∀ stream ∈ (liveRun keepsFirst productId (LiveState.mount w) steps).stream,
      stream.queue.length ≤ queueMaxsize := by
  refine History.run_invariant (liveStep keepsFirst productId)
    (J := fun s => ∀ stream ∈ s.stream, stream.queue.length ≤ queueMaxsize) ?_ ?_
  · intro stream hstream
    cases hstream
  · intro s step _ hs
    have hmap : ∀ {f : Stream → Stream},
        (∀ stream : Stream, stream.queue.length ≤ queueMaxsize →
          (f stream).queue.length ≤ queueMaxsize) →
        ∀ stream ∈ s.stream.map f, stream.queue.length ≤ queueMaxsize := by
      intro f hf stream hstream
      obtain ⟨before, hbefore, rfl⟩ := Option.mem_map.mp hstream
      exact hf before (hs before hbefore)
    cases step with
    | write r => exact hmap fun _ h => queue_publish h
    | subscribe => exact hmap fun _ h => queue_subscribe h
    | send => exact hmap fun _ h => queue_send h
    | unsubscribe => exact hmap fun _ _ => Nat.zero_le _
    | connect =>
      intro stream hstream
      rw [liveStep] at hstream
      split at hstream
      · cases hstream
        exact Nat.zero_le _
      · exact hs stream hstream
    | onOpen =>
      intro stream hstream
      rw [liveStep] at hstream
      split at hstream
      · next before hbefore =>
        cases hstream
        exact hs before hbefore
      · exact hs stream hstream
    | onEvent =>
      intro stream hstream
      rw [liveStep] at hstream
      split at hstream
      · next subscription event rest hbefore =>
        cases hstream
        exact hs ⟨subscription, true, event :: rest⟩ hbefore
      · exact hs stream hstream
    | onError =>
      intro stream hstream
      cases hstream
    | _ => exact hs

/-- What the bus does to the queue of one connection. -/
theorem stream_publish_eq {bus : EventBus} (hbus : bus.Valid) {event : DomainEvent}
    {queue : QueueId} (hsubscribed : bus.Subscribed event.productId queue) {stream : Stream}
    (hstream : stream.subscription = .live (bus.queues queue)) :
    ∃ bus', bus.publish event = .ok bus' ∧
      (stream.publish [event]).subscription = .live (bus'.queues queue) := by
  refine ⟨bus.fanOut event, EventBusLemmas.publish_spec hbus event, ?_⟩
  rw [Stream.publish, hstream, EventBus.fanOut]
  exact congrArg Subscription.live (if_pos hsubscribed).symm

end LavsCore

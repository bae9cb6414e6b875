import LavsCore.Lib.BoundedQueue
import LavsCore.Lib.Dict
import LavsCore.Lib.History
import LavsCore.Models.Responses
import Mathlib.Logic.Function.Basic

/-!
# The event bus

`EventBus` fans a published event out to the queues that are subscribed for its product. All
of its methods run without an `await` in between, and a consumer takes one event at a time,
so a run is a list of `subscribe`, `unsubscribe`, `publish` and `get` steps in any order.

The queue of one subscriber runs like a `BoundedQueue` over its own steps (`runs_like`), and
`event_bus_delivers` is what follows for every run.
-/

namespace LavsCore

/-! ## `asyncio.Queue` -/

inductive QueueError where
  | queueEmpty
  | queueFull

section

variable {α : Type}

/-- `put_nowait`; a queue with `maxsize` 0 has no bound. -/
def putNowait (maxsize : Nat) (queue : List α) (item : α) : Except QueueError (List α) :=
  if 0 < maxsize ∧ maxsize ≤ queue.length then .error .queueFull else .ok (queue ++ [item])

/-- `get_nowait`. -/
def getNowait : List α → Except QueueError (α × List α)
  | [] => .error .queueEmpty
  | item :: rest => .ok (item, rest)

end

/-! ## The bus -/

/-- `QUEUE_MAXSIZE`. -/
def queueMaxsize : Nat := 256

/-- The identity of a queue object. -/
abbrev QueueId := Nat

/-- `_subscribers`, with the queue objects that it refers to. -/
structure EventBus where
  subscribers : Dict String (List QueueId)
  queues : QueueId → List DomainEvent
  /-- The next queue that is created. -/
  fresh : QueueId

namespace EventBus

def init : EventBus := ⟨Table.empty, fun _ => [], 0⟩

/-- `_evict_oldest_and_put` -/
def evictOldestAndPut (queue : List DomainEvent) (event : DomainEvent) :
    Except QueueError (List DomainEvent) := do
  let queue ←
    match getNowait queue with
    | .ok (_, rest) => .ok rest
    | .error .queueEmpty => .ok queue
    | .error error => .error error
  match putNowait queueMaxsize queue event with
  | .error .queueFull => .ok queue
  | result => result

/-- The body of the loop of `publish`. -/
def deliver (event : DomainEvent) (queues : QueueId → List DomainEvent) (queue : QueueId) :
    Except QueueError (QueueId → List DomainEvent) := do
  let items ←
    match putNowait queueMaxsize (queues queue) event with
    | .error .queueFull => evictOldestAndPut (queues queue) event
    | result => result
  return Function.update queues queue items

/-- The set of a product is a list here. Python visits a set in an order of its own, but
what `publish` does to a queue depends on membership only (`publish_spec`). -/
def publish (bus : EventBus) (event : DomainEvent) : Except QueueError EventBus := do
  let queues ← ((bus.subscribers.get? event.productId).getD []).foldlM (deliver event) bus.queues
  return { bus with queues }

def subscribe (bus : EventBus) (productId : String) : QueueId × EventBus :=
  (bus.fresh,
    { subscribers :=
        (bus.subscribers.setDefault productId []).modify productId (List.insert bus.fresh)
      queues := Function.update bus.queues bus.fresh []
      fresh := bus.fresh + 1 })

def unsubscribe (bus : EventBus) (productId : String) (queue : QueueId) : EventBus :=
  match bus.subscribers.get? productId with
  | none => bus
  | some subscribers =>
    let subscribers := subscribers.filter (· ≠ queue)
    if subscribers = [] then
      { bus with subscribers := bus.subscribers.keep fun e => e.1 ≠ productId }
    else { bus with subscribers := bus.subscribers.set productId subscribers }

/-- A consumer takes the next event, or goes on waiting. -/
def get (bus : EventBus) (queue : QueueId) : Option DomainEvent × EventBus :=
  match getNowait (bus.queues queue) with
  | .ok (event, rest) => (some event, { bus with queues := Function.update bus.queues queue rest })
  | .error _ => (none, bus)

end EventBus

/-! ## Runs -/

inductive BusStep where
  | subscribe (productId : String)
  | unsubscribe (productId : String) (queue : QueueId)
  | publish (event : DomainEvent)
  | get (queue : QueueId)

/-- The bus, and what the consumer of each queue has received so far. -/
structure BusRun where
  bus : EventBus
  received : QueueId → List DomainEvent

namespace BusRun

def init : BusRun := ⟨.init, fun _ => []⟩

def step (w : BusRun) : BusStep → Except QueueError BusRun
  | .subscribe productId =>
    let (queue, bus) := w.bus.subscribe productId
    .ok ⟨bus, Function.update w.received queue []⟩
  | .unsubscribe productId queue => .ok { w with bus := w.bus.unsubscribe productId queue }
  | .publish event => do return { w with bus := ← w.bus.publish event }
  | .get queue =>
    let (event, bus) := w.bus.get queue
    .ok ⟨bus, Function.update w.received queue (w.received queue ++ event.toList)⟩

def run (w : BusRun) (steps : List BusStep) : Except QueueError BusRun := steps.foldlM step w

end BusRun

def BusStep.isSubscribe : BusStep → Bool
  | .subscribe _ => true
  | _ => false

/-- The queue that a `subscribe` after these steps returns. -/
def nextQueue (steps : List BusStep) : QueueId := steps.countP BusStep.isSubscribe

/-- What is published for the product until the queue is unsubscribed from it. -/
def publishedFor (productId : String) (queue : QueueId) : List BusStep → List DomainEvent
  | [] => []
  | .publish event :: rest =>
    if event.productId = productId then event :: publishedFor productId queue rest
    else publishedFor productId queue rest
  | .unsubscribe productId' queue' :: rest =>
    if productId' = productId ∧ queue' = queue then [] else publishedFor productId queue rest
  | _ :: rest => publishedFor productId queue rest

/-- The step is one of the subscriber's own, or publishes for its product. -/
def BusStep.concerns (productId : String) (queue : QueueId) : BusStep → Bool
  | .subscribe _ => false
  | .unsubscribe productId' queue' => productId' = productId ∧ queue' = queue
  | .publish event => event.productId = productId
  | .get queue' => queue' = queue

/-! ## What a step does -/

/-- The queue is registered for the product. -/
def EventBus.Subscribed (bus : EventBus) (productId : String) (queue : QueueId) : Prop :=
  queue ∈ (bus.subscribers.get? productId).getD []

instance (bus : EventBus) (productId : String) (queue : QueueId) :
    Decidable (bus.Subscribed productId queue) := inferInstanceAs (Decidable (_ ∈ _))

/-- No set of the registry is empty, every queue belongs to one product, and no queue outgrows
its bound. -/
structure EventBus.Valid (bus : EventBus) : Prop where
  filled : ∀ productId, bus.subscribers.get? productId ≠ some []
  distinct : ∀ productId, ((bus.subscribers.get? productId).getD []).Nodup
  known : ∀ productId queue, bus.Subscribed productId queue → queue < bus.fresh
  owner : ∀ productId productId' queue, bus.Subscribed productId queue →
    bus.Subscribed productId' queue → productId = productId'
  bounded : ∀ queue, (bus.queues queue).length ≤ queueMaxsize

/-- Every queue of the product takes the event. -/
def EventBus.fanOut (bus : EventBus) (event : DomainEvent) : EventBus where
  subscribers := bus.subscribers
  queues queue :=
    if bus.Subscribed event.productId queue then dropOldest queueMaxsize (bus.queues queue) event
    else bus.queues queue
  fresh := bus.fresh

namespace EventBusLemmas

variable {bus : EventBus} {event : DomainEvent} {queues : QueueId → List DomainEvent}
  {productId : String} {queue : QueueId}

theorem deliver_eq (h : (queues queue).length ≤ queueMaxsize) :
    EventBus.deliver event queues queue =
      .ok (Function.update queues queue (dropOldest queueMaxsize (queues queue) event)) := by
  have hpos : 0 < queueMaxsize := by decide
  unfold EventBus.deliver putNowait dropOldest
  by_cases hroom : (queues queue).length < queueMaxsize
  · rw [if_neg (by omega), if_pos hroom]
    rfl
  · rw [if_pos ⟨hpos, not_lt.mp hroom⟩, if_neg hroom]
    cases hqueue : queues queue with
    | nil =>
      rw [hqueue] at hroom
      exact absurd hpos hroom
    | cons oldest rest =>
      rw [hqueue, List.length_cons] at h
      have hput : putNowait queueMaxsize rest event = .ok (rest ++ [event]) :=
        if_neg (by omega)
      simp only [EventBus.evictOldestAndPut, getNowait, hput, bind, Except.bind]
      rfl

/-- The order in which the queues are visited does not matter. -/
theorem foldlM_deliver {visited : List QueueId} (hdistinct : visited.Nodup)
    (hbounded : ∀ q, (queues q).length ≤ queueMaxsize) :
    visited.foldlM (EventBus.deliver event) queues = .ok fun q =>
      if q ∈ visited then dropOldest queueMaxsize (queues q) event else queues q := by
  induction visited generalizing queues with
  | nil => simp [pure, Except.pure]
  | cons first rest ih =>
    obtain ⟨hfirst, hrest⟩ := List.nodup_cons.mp hdistinct
    have hnext : ∀ q, (Function.update queues first
        (dropOldest queueMaxsize (queues first) event) q).length ≤ queueMaxsize := by
      intro q
      rw [Function.update_apply]
      split
      · exact dropOldest_length (by decide) event (hbounded first)
      · exact hbounded q
    rw [List.foldlM_cons, deliver_eq (hbounded first)]
    refine (ih hrest hnext).trans (congrArg Except.ok (funext fun q => ?_))
    rcases eq_or_ne q first with rfl | hne
    · rw [if_neg hfirst, if_pos List.mem_cons_self, Function.update_self]
    · simp only [Function.update_of_ne hne, List.mem_cons, hne, false_or]

theorem publish_spec (h : bus.Valid) (event : DomainEvent) :
    bus.publish event = .ok (bus.fanOut event) := by
  rw [EventBus.publish, foldlM_deliver (h.distinct event.productId) h.bounded]
  rfl

theorem getD_subscribe (bus : EventBus) (productId' productId : String) :
    (Dict.get? (bus.subscribe productId').2.subscribers productId).getD [] =
      if productId' = productId then
        ((Dict.get? bus.subscribers productId).getD []).insert bus.fresh
      else (Dict.get? bus.subscribers productId).getD [] :=
  Dict.getD_modify_setDefault bus.subscribers productId' [] (List.insert bus.fresh) productId

theorem subscribed_subscribe (productId' : String) :
    (bus.subscribe productId').2.Subscribed productId queue ↔
      bus.Subscribed productId queue ∨ productId = productId' ∧ queue = bus.fresh := by
  unfold EventBus.Subscribed
  rw [getD_subscribe]
  split
  · next heq =>
    rw [List.mem_insert_iff, or_comm]
    simp [heq]
  · next hne => simp [Ne.symm hne]

theorem subscribed_unsubscribe (productId' : String) (queue' : QueueId) :
    (bus.unsubscribe productId' queue').Subscribed productId queue ↔
      bus.Subscribed productId queue ∧ ¬ (productId = productId' ∧ queue = queue') := by
  unfold EventBus.Subscribed EventBus.unsubscribe
  cases hget : bus.subscribers.get? productId' with
  | none =>
    refine (and_iff_left_of_imp fun hmem => ?_).symm
    rintro ⟨rfl, -⟩
    rw [hget] at hmem
    exact List.not_mem_nil hmem
  | some subscribers =>
    dsimp only
    rcases eq_or_ne productId productId' with rfl | hne
    · have hmem : queue ∈ subscribers.filter (· ≠ queue') ↔
          queue ∈ subscribers ∧ ¬ queue = queue' := by simp
      rw [hget, Option.getD_some, and_iff_right rfl, ← hmem]
      split
      · next hempty =>
        rw [Dict.get?_erase, if_pos rfl, hempty]
        rfl
      · rw [Dict.get?_set, if_pos rfl]
        rfl
    · rw [and_iff_left fun heq => hne heq.1]
      split
      · rw [Dict.get?_erase, if_neg hne]
      · rw [Dict.get?_set, if_neg hne]

@[simp] theorem queues_unsubscribe (bus : EventBus) (productId' : String) (queue' : QueueId) :
    (bus.unsubscribe productId' queue').queues = bus.queues := by
  unfold EventBus.unsubscribe
  split
  · rfl
  · dsimp only
    split <;> rfl

@[simp] theorem fresh_unsubscribe (bus : EventBus) (productId' : String) (queue' : QueueId) :
    (bus.unsubscribe productId' queue').fresh = bus.fresh := by
  unfold EventBus.unsubscribe
  split
  · rfl
  · dsimp only
    split <;> rfl

theorem filled_unsubscribe (h : bus.Valid) (productId' : String) (queue' : QueueId) :
    (bus.unsubscribe productId' queue').subscribers.get? productId ≠ some [] := by
  unfold EventBus.unsubscribe
  split
  · exact h.filled productId
  · next subscribers hget =>
    dsimp only
    split
    · rw [Dict.get?_erase]
      split
      · simp
      · exact h.filled productId
    · next hkept =>
      rw [Dict.get?_set]
      split
      · exact fun hnil => hkept (Option.some.inj hnil)
      · exact h.filled productId

/-! ## The registry stays valid -/

theorem valid_init : EventBus.init.Valid where
  filled _ hnil := by cases hnil
  distinct _ := List.nodup_nil
  known _ _ hmem := absurd hmem List.not_mem_nil
  owner _ _ _ hmem := absurd hmem List.not_mem_nil
  bounded _ := Nat.zero_le _

theorem valid_subscribe (h : bus.Valid) (productId' : String) :
    (bus.subscribe productId').2.Valid where
  filled productId := by
    show Dict.get? ((bus.subscribers.setDefault productId' []).modify productId' _) productId ≠ _
    rw [Dict.get?_modify, Dict.get?_setDefault]
    split
    · intro hnil
      obtain ⟨members, -, hinsert⟩ := Option.map_eq_some_iff.mp hnil
      exact List.not_mem_nil (hinsert ▸ List.mem_insert_self (a := bus.fresh) (l := members))
    · next hne =>
      rw [if_neg fun heq => hne heq.1]
      exact h.filled productId
  distinct productId := by
    rw [getD_subscribe]
    split
    · exact (h.distinct productId).insert
    · exact h.distinct productId
  known productId queue hmem := by
    rcases (subscribed_subscribe productId').mp hmem with hmem | ⟨-, rfl⟩
    · exact Nat.lt_succ_of_lt (h.known productId queue hmem)
    · exact Nat.lt_succ_self _
  owner productId productId'' queue hmem hmem' := by
    rcases (subscribed_subscribe productId').mp hmem with hmem | ⟨rfl, rfl⟩
    · rcases (subscribed_subscribe productId').mp hmem' with hmem' | ⟨-, rfl⟩
      · exact h.owner productId productId'' queue hmem hmem'
      · exact absurd (h.known productId _ hmem) (Nat.lt_irrefl _)
    · rcases (subscribed_subscribe productId).mp hmem' with hmem' | ⟨rfl, -⟩
      · exact absurd (h.known productId'' _ hmem') (Nat.lt_irrefl _)
      · rfl
  bounded queue := by
    show (Function.update bus.queues bus.fresh [] queue).length ≤ queueMaxsize
    rw [Function.update_apply]
    split
    · exact Nat.zero_le _
    · exact h.bounded queue

theorem valid_unsubscribe (h : bus.Valid) (productId' : String) (queue' : QueueId) :
    (bus.unsubscribe productId' queue').Valid where
  filled _ := filled_unsubscribe h productId' queue'
  distinct productId := by
    unfold EventBus.unsubscribe
    split
    · exact h.distinct productId
    · next subscribers hget =>
      have hmembers := h.distinct productId'
      rw [hget] at hmembers
      dsimp only
      split
      · rw [Dict.get?_erase]
        split
        · exact List.nodup_nil
        · exact h.distinct productId
      · rw [Dict.get?_set]
        split
        · exact hmembers.filter _
        · exact h.distinct productId
  known productId queue hmem := by
    rw [fresh_unsubscribe]
    exact h.known productId queue ((subscribed_unsubscribe productId' queue').mp hmem).1
  owner productId productId'' queue hmem hmem' :=
    h.owner productId productId'' queue ((subscribed_unsubscribe productId' queue').mp hmem).1
      ((subscribed_unsubscribe productId' queue').mp hmem').1
  bounded queue := by
    rw [queues_unsubscribe]
    exact h.bounded queue

/-- What changes queues only leaves the registry valid. -/
theorem valid_withQueues (h : bus.Valid) (hbounded : ∀ q, (queues q).length ≤ queueMaxsize) :
    EventBus.Valid { bus with queues } :=
  ⟨h.filled, h.distinct, h.known, h.owner, hbounded⟩

/-! ## One subscriber -/

open BoundedQueue (Op)

/-- What a step does to one queue, while it is subscribed or not. -/
def ownOp (productId : String) (queue : QueueId) (subscribed : Bool) :
    BusStep → Option (Op DomainEvent)
  | .publish event => if subscribed ∧ event.productId = productId then some (.put event) else none
  | .get queue' => if queue' = queue then some .get else none
  | _ => none

/-- Whether the queue is subscribed after a step. -/
def stays (productId : String) (queue : QueueId) (subscribed : Bool) : BusStep → Bool
  | .unsubscribe productId' queue' => subscribed && !(productId' = productId && queue' = queue)
  | _ => subscribed

def ownOps (productId : String) (queue : QueueId) : Bool → List BusStep → List (Op DomainEvent)
  | _, [] => []
  | subscribed, s :: rest =>
    (ownOp productId queue subscribed s).toList ++
      ownOps productId queue (stays productId queue subscribed s) rest

/-- A queue, and what its consumer has received. -/
def reader (w : BusRun) (queue : QueueId) : BoundedQueue.State DomainEvent :=
  ⟨w.bus.queues queue, w.received queue⟩

/-- The queue belongs to the product, and is subscribed if the flag says so. -/
structure Owns (w : BusRun) (productId : String) (queue : QueueId) (subscribed : Bool) : Prop where
  known : queue < w.bus.fresh
  subscribed_iff : ∀ productId', w.bus.Subscribed productId' queue ↔
    subscribed = true ∧ productId' = productId

/-- The step goes through, keeps the registry valid, and is for every queue what `ownOp`
says. -/
structure Stepped (w : BusRun) (s : BusStep) (w' : BusRun) : Prop where
  runs : w.step s = .ok w'
  valid : w'.bus.Valid
  fresh : w'.bus.fresh = w.bus.fresh + if s.isSubscribe then 1 else 0
  subscribed_iff : ∀ productId queue, w'.bus.Subscribed productId queue ↔
    w.bus.Subscribed productId queue ∧ s ≠ .unsubscribe productId queue ∨
      s = .subscribe productId ∧ queue = w.bus.fresh
  reads : ∀ productId queue subscribed, Owns w productId queue subscribed →
    reader w' queue = BoundedQueue.runFrom queueMaxsize (reader w queue)
      (ownOp productId queue subscribed s).toList

variable {w : BusRun}

theorem stays_eq_true {subscribed : Bool} {s : BusStep} :
    stays productId queue subscribed s = true ↔
      subscribed = true ∧ s ≠ .unsubscribe productId queue := by
  cases s with
  | unsubscribe productId' queue' => simp [stays, imp_iff_not_or]
  | _ => simp [stays]

/-- The queue stays with its product. -/
theorem Stepped.owns {s : BusStep} {w' : BusRun} (h : Stepped w s w') {subscribed : Bool}
    (hown : Owns w productId queue subscribed) :
    Owns w' productId queue (stays productId queue subscribed s) where
  known := by
    rw [h.fresh]
    exact Nat.lt_add_right _ hown.known
  subscribed_iff productId' := by
    rw [h.subscribed_iff, or_iff_left fun hnew => hown.known.ne hnew.2, hown.subscribed_iff,
      stays_eq_true]
    constructor
    · rintro ⟨⟨hsub, rfl⟩, hs⟩
      exact ⟨⟨hsub, hs⟩, rfl⟩
    · rintro ⟨⟨hsub, hs⟩, rfl⟩
      exact ⟨⟨hsub, rfl⟩, hs⟩

/-- Steps that neither subscribe nor unsubscribe. -/
theorem subscribed_same {s : BusStep} {P : Prop} (hsub : ∀ productId, s ≠ .subscribe productId)
    (hunsub : ∀ productId queue, s ≠ .unsubscribe productId queue) :
    (P ∧ s ≠ .unsubscribe productId queue ∨ s = .subscribe productId ∧ queue = w.bus.fresh) ↔ P := by
  simp [hsub, hunsub]

theorem stepped_subscribe (h : w.bus.Valid) (productId' : String) :
    Stepped w (.subscribe productId')
      ⟨(w.bus.subscribe productId').2, Function.update w.received w.bus.fresh []⟩ where
  runs := rfl
  valid := valid_subscribe h productId'
  fresh := rfl
  subscribed_iff productId queue := by
    refine (subscribed_subscribe productId').trans ?_
    simp [eq_comm]
  reads productId queue subscribed hown := by
    have hqueues : (w.bus.subscribe productId').2.queues =
        Function.update w.bus.queues w.bus.fresh [] := rfl
    simp only [reader, hqueues, Function.update_of_ne hown.known.ne]
    rfl

theorem stepped_unsubscribe (h : w.bus.Valid) (productId' : String) (queue' : QueueId) :
    Stepped w (.unsubscribe productId' queue')
      { w with bus := w.bus.unsubscribe productId' queue' } where
  runs := rfl
  valid := valid_unsubscribe h productId' queue'
  fresh := fresh_unsubscribe _ _ _
  subscribed_iff productId queue := by
    refine (subscribed_unsubscribe productId' queue').trans ?_
    simp [eq_comm]
  reads productId queue subscribed hown := by
    simp only [reader, queues_unsubscribe]
    rfl

theorem stepped_publish (h : w.bus.Valid) (event : DomainEvent) :
    Stepped w (.publish event) { w with bus := w.bus.fanOut event } where
  runs := by
    rw [BusRun.step, publish_spec h event]
    rfl
  valid := by
    refine valid_withQueues h fun queue => ?_
    split
    · exact dropOldest_length (by decide) event (h.bounded queue)
    · exact h.bounded queue
  fresh := rfl
  subscribed_iff productId queue := (subscribed_same (by simp) (by simp)).symm
  reads productId queue subscribed hown := by
    have hiff := hown.subscribed_iff event.productId
    by_cases hsub : w.bus.Subscribed event.productId queue
    · simp only [reader, EventBus.fanOut, ownOp, if_pos hsub, if_pos (hiff.mp hsub)]
      rfl
    · simp only [reader, EventBus.fanOut, ownOp, if_neg hsub, if_neg (mt hiff.mpr hsub)]
      rfl

theorem stepped_get (h : w.bus.Valid) (queue' : QueueId) :
    Stepped w (.get queue') ⟨(w.bus.get queue').2,
      Function.update w.received queue' (w.received queue' ++ (w.bus.get queue').1.toList)⟩ := by
  cases hqueue : w.bus.queues queue' with
  | nil =>
    have hget : w.bus.get queue' = (none, w.bus) := by rw [EventBus.get, hqueue, getNowait]
    rw [hget]
    refine ⟨by rw [BusRun.step, hget], h, rfl,
      fun productId queue => (subscribed_same (by simp) (by simp)).symm,
      fun productId queue subscribed hown => ?_⟩
    rcases eq_or_ne queue' queue with rfl | hne
    · simp [reader, ownOp, BoundedQueue.runFrom, BoundedQueue.step, hqueue]
    · simp only [reader, ownOp, if_neg hne, Function.update_of_ne hne.symm]
      rfl
  | cons event rest =>
    have hget : w.bus.get queue' =
        (some event, { w.bus with queues := Function.update w.bus.queues queue' rest }) := by
      rw [EventBus.get, hqueue, getNowait]
    rw [hget]
    refine ⟨by rw [BusRun.step, hget], valid_withQueues h fun queue => ?_, rfl,
      fun productId queue => (subscribed_same (by simp) (by simp)).symm,
      fun productId queue subscribed hown => ?_⟩
    · have hbound := h.bounded queue'
      rw [hqueue, List.length_cons] at hbound
      rw [Function.update_apply]
      split
      · exact Nat.le_of_succ_le hbound
      · exact h.bounded queue
    · rcases eq_or_ne queue' queue with rfl | hne
      · simp [reader, ownOp, BoundedQueue.runFrom, BoundedQueue.step, hqueue]
      · simp only [reader, ownOp, if_neg hne, Function.update_of_ne hne.symm]
        rfl

theorem step_spec (h : w.bus.Valid) (s : BusStep) : ∃ w', Stepped w s w' := by
  cases s with
  | subscribe productId' => exact ⟨_, stepped_subscribe h productId'⟩
  | unsubscribe productId' queue' => exact ⟨_, stepped_unsubscribe h productId' queue'⟩
  | publish event => exact ⟨_, stepped_publish h event⟩
  | get queue' => exact ⟨_, stepped_get h queue'⟩

/-! ## Runs -/

/-- A run, and what it is for one queue. -/
theorem run_spec (h : w.bus.Valid) (steps : List BusStep) :
    ∃ w', w.run steps = .ok w' ∧ w'.bus.Valid ∧
      w'.bus.fresh = w.bus.fresh + nextQueue steps ∧
      ∀ productId queue subscribed, Owns w productId queue subscribed →
        reader w' queue = BoundedQueue.runFrom queueMaxsize (reader w queue)
          (ownOps productId queue subscribed steps) := by
  induction steps generalizing w with
  | nil => exact ⟨w, rfl, h, rfl, fun productId queue subscribed _ => rfl⟩
  | cons s rest ih =>
    obtain ⟨next, hstep⟩ := step_spec h s
    obtain ⟨w', hrun, hvalid, hfresh, hreads⟩ := ih hstep.valid
    refine ⟨w', ?_, hvalid, ?_, fun productId queue subscribed hown => ?_⟩
    · rw [BusRun.run, List.foldlM_cons, hstep.runs]
      exact hrun
    · rw [hfresh, hstep.fresh, nextQueue, nextQueue, List.countP_cons, Nat.add_assoc]
      exact congrArg (w.bus.fresh + ·) (Nat.add_comm _ _)
    · rw [hreads productId queue _ (hstep.owns hown),
        hstep.reads productId queue subscribed hown, ownOps, BoundedQueue.runFrom,
        BoundedQueue.runFrom, BoundedQueue.runFrom, List.foldl_append]

theorem run_append (w : BusRun) (steps steps' : List BusStep) :
    w.run (steps ++ steps') = w.run steps >>= fun w' => w'.run steps' :=
  List.foldlM_append

theorem owns_new (h : w.bus.Valid) (productId : String) :
    Owns ⟨(w.bus.subscribe productId).2, Function.update w.received w.bus.fresh []⟩ productId
      w.bus.fresh true where
  known := Nat.lt_succ_self w.bus.fresh
  subscribed_iff productId' := by
    refine (subscribed_subscribe productId).trans ?_
    have hnew : ¬ w.bus.Subscribed productId' w.bus.fresh :=
      fun hmem => absurd (h.known productId' _ hmem) (Nat.lt_irrefl _)
    simp [hnew]

/-- The queue of a subscriber runs over the subscriber's own steps. -/
theorem runs_like (before : List BusStep) (productId : String) (after : List BusStep) :
    ∃ w, BusRun.init.run (before ++ .subscribe productId :: after) = .ok w ∧
      reader w (nextQueue before) =
        BoundedQueue.run queueMaxsize (ownOps productId (nextQueue before) true after) := by
  obtain ⟨w, hrun, hvalid, hfresh, -⟩ := run_spec (w := .init) valid_init before
  have hqueue : w.bus.fresh = nextQueue before := hfresh.trans (Nat.zero_add _)
  have hstep := stepped_subscribe hvalid productId
  obtain ⟨w', hrun', -, -, hreads⟩ := run_spec hstep.valid after
  refine ⟨w', ?_, ?_⟩
  · rw [run_append, hrun]
    show BusRun.run w (.subscribe productId :: after) = _
    rw [BusRun.run, List.foldlM_cons, hstep.runs]
    exact hrun'
  · rw [← hqueue]
    rw [hreads productId w.bus.fresh true (owns_new hvalid productId), BoundedQueue.run]
    congr 1
    simp [reader, EventBus.subscribe]

/-- A product has a subscriber when a queue of it has not been unsubscribed. -/
theorem subscribed_run_iff {steps : List BusStep} (hrun : BusRun.init.run steps = .ok w) :
    w.bus.Subscribed productId queue ↔ ∃ before after,
      steps = before ++ .subscribe productId :: after ∧ queue = nextQueue before ∧
        .unsubscribe productId queue ∉ after := by
  induction steps using List.reverseRecOn generalizing w with
  | nil =>
    cases hrun
    refine ⟨fun hmem => absurd hmem List.not_mem_nil, ?_⟩
    rintro ⟨before, after, hsplit, -⟩
    exact absurd hsplit (by simp)
  | append_singleton steps s ih =>
    obtain ⟨middle, hmiddle, hvalid, hfresh, -⟩ := run_spec (w := .init) valid_init steps
    obtain ⟨last, hstep⟩ := step_spec hvalid s
    have hlast : BusRun.init.run (steps ++ [s]) = .ok last := by
      rw [run_append, hmiddle]
      show BusRun.run middle [s] = _
      rw [BusRun.run, List.foldlM_cons, hstep.runs]
      rfl
    cases hrun.symm.trans hlast
    have hqueue : middle.bus.fresh = nextQueue steps := hfresh.trans (Nat.zero_add _)
    rw [hstep.subscribed_iff, ih hmiddle, hqueue]
    simp only [History.append_singleton_eq_append_cons]
    constructor
    · rintro (⟨⟨before, after, rfl, hqueue, hafter⟩, hs⟩ | ⟨rfl, hqueue⟩)
      · refine ⟨before, after ++ [s], Or.inr ⟨after, rfl, rfl⟩, hqueue, ?_⟩
        simpa [hafter] using hs.symm
      · exact ⟨steps, [], Or.inl ⟨rfl, rfl, rfl⟩, hqueue, List.not_mem_nil⟩
    · rintro ⟨before, after, ⟨rfl, hs, rfl⟩ | ⟨rest, rfl, rfl⟩, hqueue, hafter⟩
      · exact Or.inr ⟨hs, hqueue⟩
      · rw [List.mem_append, List.mem_singleton, not_or] at hafter
        exact Or.inl ⟨⟨before, rest, rfl, hqueue, hafter.1⟩, Ne.symm hafter.2⟩

/-! ## The subscriber's own steps -/

@[simp] theorem puts_ownOp_get (subscribed : Bool) (queue' : QueueId) :
    BoundedQueue.puts (ownOp productId queue subscribed (.get queue')).toList = [] := by
  by_cases hown : queue' = queue
  · rw [ownOp, if_pos hown]
    rfl
  · rw [ownOp, if_neg hown]
    rfl

theorem puts_ownOps_unsubscribed (steps : List BusStep) :
    BoundedQueue.puts (ownOps productId queue false steps) = [] := by
  induction steps with
  | nil => rfl
  | cons s rest ih =>
    have hstays : stays productId queue false s = false := by
      rw [Bool.eq_false_iff, ne_eq, stays_eq_true]
      simp
    rw [ownOps, hstays, BoundedQueue.puts_append, ih, List.append_nil]
    cases s with
    | publish event => rfl
    | get queue' => exact puts_ownOp_get false queue'
    | _ => rfl

/-- The events that reach the queue are those published for the product. -/
theorem puts_ownOps (steps : List BusStep) :
    BoundedQueue.puts (ownOps productId queue true steps) =
      publishedFor productId queue steps := by
  induction steps with
  | nil => rfl
  | cons s rest ih =>
    rw [ownOps, BoundedQueue.puts_append]
    cases s with
    | subscribe productId' => exact ih
    | unsubscribe productId' queue' =>
      by_cases hsame : productId' = productId ∧ queue' = queue
      · have hstays : stays productId queue true (.unsubscribe productId' queue') = false := by
          simp [stays, hsame]
        rw [hstays, puts_ownOps_unsubscribed, publishedFor, if_pos hsame]
        rfl
      · have hstays : stays productId queue true (.unsubscribe productId' queue') = true := by
          simpa [stays, imp_iff_not_or] using not_and_or.mp hsame
        rw [hstays, ih, publishedFor, if_neg hsame]
        rfl
    | publish event =>
      by_cases hproduct : event.productId = productId
      · rw [publishedFor, if_pos hproduct, ownOp, if_pos ⟨rfl, hproduct⟩]
        exact congrArg (event :: ·) ih
      · rw [publishedFor, if_neg hproduct, ownOp, if_neg fun h => hproduct h.2]
        exact ih
    | get queue' =>
      rw [puts_ownOp_get]
      exact ih

/-- A moment of the queue is a moment of the run. -/
theorem exists_of_ownOps_eq_append {subscribed : Bool} {steps : List BusStep}
    {ops ops' : List (Op DomainEvent)}
    (h : ownOps productId queue subscribed steps = ops ++ ops') :
    ∃ earlier later, steps = earlier ++ later ∧
      ownOps productId queue subscribed earlier = ops := by
  induction steps generalizing subscribed ops with
  | nil => exact ⟨[], [], rfl, (List.append_eq_nil_iff.mp h.symm).1.symm⟩
  | cons s rest ih =>
    cases ops with
    | nil => exact ⟨[], s :: rest, rfl, rfl⟩
    | cons op ops =>
      rw [ownOps] at h
      cases hop : ownOp productId queue subscribed s with
      | none =>
        rw [hop] at h
        obtain ⟨earlier, later, rfl, hearlier⟩ := ih h
        exact ⟨s :: earlier, later, rfl, by rw [ownOps, hop, hearlier]; rfl⟩
      | some first =>
        rw [hop] at h
        obtain ⟨rfl, htail⟩ := List.cons.inj h
        obtain ⟨earlier, later, rfl, hearlier⟩ := ih htail
        exact ⟨s :: earlier, later, rfl, by rw [ownOps, hop, hearlier]; rfl⟩

/-- Steps that concern others leave no trace. -/
theorem ownOps_filter (subscribed : Bool) (steps : List BusStep) :
    ownOps productId queue subscribed (steps.filter (BusStep.concerns productId queue)) =
      ownOps productId queue subscribed steps := by
  induction steps generalizing subscribed with
  | nil => rfl
  | cons s rest ih =>
    by_cases hconcerns : s.concerns productId queue = true
    · rw [List.filter_cons_of_pos hconcerns, ownOps, ownOps, ih]
    · have hop : ownOp productId queue subscribed s = none := by
        cases s with
        | publish event => exact if_neg fun h => hconcerns (decide_eq_true h.2)
        | get queue' => exact if_neg fun h => hconcerns (decide_eq_true h)
        | _ => rfl
      have hstays : stays productId queue subscribed s = subscribed := by
        cases s with
        | unsubscribe productId' queue' =>
          have hother : ¬ (productId' = productId ∧ queue' = queue) :=
            fun h => hconcerns (decide_eq_true h)
          cases subscribed with
          | true => simpa [stays, imp_iff_not_or] using not_and_or.mp hother
          | false => rfl
        | _ => rfl
      rw [List.filter_cons_of_neg hconcerns, ih, ownOps, hop, hstays]
      rfl

/-! ## Every run -/

/-- A product is registered while it has a subscriber. -/
theorem keys_run_iff {steps : List BusStep} (hrun : BusRun.init.run steps = .ok w) :
    productId ∈ w.bus.subscribers.keys ↔ ∃ before after,
      steps = before ++ .subscribe productId :: after ∧
        .unsubscribe productId (nextQueue before) ∉ after := by
  obtain ⟨w', hrun', hvalid, -, -⟩ := run_spec (w := .init) valid_init steps
  cases hrun.symm.trans hrun'
  rw [Dict.mem_keys_iff]
  constructor
  · rintro ⟨members, hget⟩
    obtain ⟨queue, hqueue⟩ := List.exists_mem_of_ne_nil members
      fun hnil => hvalid.filled productId (hnil ▸ hget)
    have hsubscribed : w.bus.Subscribed productId queue := by rwa [EventBus.Subscribed, hget]
    obtain ⟨before, after, hsplit, rfl, hafter⟩ := (subscribed_run_iff hrun).mp hsubscribed
    exact ⟨before, after, hsplit, hafter⟩
  · rintro ⟨before, after, hsplit, hafter⟩
    have hsubscribed := (subscribed_run_iff hrun).mpr ⟨before, after, hsplit, rfl, hafter⟩
    cases hget : w.bus.subscribers.get? productId with
    | some members => exact ⟨members, rfl⟩
    | none =>
      rw [EventBus.Subscribed, hget] at hsubscribed
      exact absurd hsubscribed List.not_mem_nil

variable {before after : List BusStep}

theorem reader_run (hrun : BusRun.init.run (before ++ .subscribe productId :: after) = .ok w) :
    reader w (nextQueue before) =
      BoundedQueue.run queueMaxsize (ownOps productId (nextQueue before) true after) := by
  obtain ⟨w', hrun', hreader⟩ := runs_like before productId after
  cases hrun.symm.trans hrun'
  exact hreader

/-- What others do makes no difference to a subscriber. -/
theorem reader_congr {after' : List BusStep} {w' : BusRun}
    (hrun : BusRun.init.run (before ++ .subscribe productId :: after) = .ok w)
    (hrun' : BusRun.init.run (before ++ .subscribe productId :: after') = .ok w')
    (hsame : after'.filter (BusStep.concerns productId (nextQueue before)) =
      after.filter (BusStep.concerns productId (nextQueue before))) :
    reader w' (nextQueue before) = reader w (nextQueue before) := by
  rw [reader_run hrun, reader_run hrun', ← ownOps_filter, hsame, ownOps_filter]

end EventBusLemmas

open EventBusLemmas

/-- What a consumer has received are events of its product, at increasing positions among
those published since it subscribed; its queue holds the newest of the rest. An event that it
never receives was pushed out by newer ones. -/
theorem event_bus_delivers (steps : List BusStep) :
    ∃ w, BusRun.init.run steps = .ok w ∧
      (∀ productId, productId ∈ w.bus.subscribers.keys ↔ ∃ before after,
        steps = before ++ .subscribe productId :: after ∧
          .unsubscribe productId (nextQueue before) ∉ after) ∧
      ∀ before productId after, steps = before ++ .subscribe productId :: after →
        let queue := nextQueue before
        let events := publishedFor productId queue after
        (∃ positions : List Nat, positions.Pairwise (· < ·) ∧
          (w.received queue).map some = positions.map (fun i => events[i]?) ∧
          w.bus.queues queue = (events.drop (BoundedQueue.next positions)).rtake queueMaxsize ∧
          ∀ i < events.length, i ∈ positions ∨
            events.length ≤ i + (w.bus.queues queue).length ∨
              ∃ earlier later w', after = earlier ++ later ∧
                BusRun.init.run (before ++ .subscribe productId :: earlier) = .ok w' ∧
                w'.bus.queues queue = (events.drop (i + 1)).take queueMaxsize ∧
                (w'.bus.queues queue).length = queueMaxsize) ∧
        ∀ after' w', BusRun.init.run (before ++ .subscribe productId :: after') = .ok w' →
          after'.filter (BusStep.concerns productId queue) =
            after.filter (BusStep.concerns productId queue) →
          w'.bus.queues queue = w.bus.queues queue ∧ w'.received queue = w.received queue := by
  obtain ⟨w, hrun, -⟩ := run_spec (w := .init) valid_init steps
  refine ⟨w, hrun, fun productId => keys_run_iff hrun, ?_⟩
  rintro before productId after rfl queue events
  refine ⟨?_, fun after' w' hrun' hsame => ?_⟩
  · obtain ⟨positions, hfollows⟩ := BoundedQueue.exists_follows (by decide : 0 < queueMaxsize)
      (ownOps productId queue true after)
    have hreader := reader_run hrun
    have hpending := congrArg BoundedQueue.State.pending hreader
    have hreceived := congrArg BoundedQueue.State.received hreader
    have hevents : BoundedQueue.puts (ownOps productId queue true after) = events :=
      puts_ownOps after
    refine ⟨positions, hfollows.increasing, ?_, ?_, fun i hi => ?_⟩
    · rw [← hevents]
      exact (congrArg (List.map some) hreceived).trans hfollows.received
    · rw [← hevents]
      exact hpending.trans hfollows.pending
    · rw [← hevents] at hi ⊢
      rcases hfollows.lost i hi with hmem | hwaits | ⟨ops, ops', hsplit, hmoment, hfull⟩
      · exact Or.inl hmem
      · refine Or.inr (Or.inl (hwaits.trans_eq ?_))
        exact congrArg (fun pending => i + pending.length) hpending.symm
      · obtain ⟨earlier, later, rfl, rfl⟩ := exists_of_ownOps_eq_append hsplit
        obtain ⟨w', hrun', hreader'⟩ := runs_like before productId earlier
        have hpending' := congrArg BoundedQueue.State.pending hreader'
        refine Or.inr (Or.inr ⟨earlier, later, w', rfl, hrun', hpending'.trans hmoment, ?_⟩)
        exact (congrArg List.length hpending').trans hfull
  · have hreader := reader_congr hrun hrun' hsame
    exact ⟨congrArg BoundedQueue.State.pending hreader,
      congrArg BoundedQueue.State.received hreader⟩

namespace Sample

/-- A notification for the product. -/
def notice (productId versionId : String) : DomainEvent :=
  ⟨.versionRolledBack, productId, .obj [("version_id", .str versionId)]⟩

/-- Two consumers of `p`; the second leaves before the last event. -/
def twoReaders : List BusStep :=
  [.subscribe "p", .publish (notice "p" "1"), .subscribe "p", .publish (notice "p" "2"), .get 0,
    .publish (notice "q" "3"), .get 1, .unsubscribe "p" 1, .publish (notice "p" "4")]

end Sample

theorem event_bus_delivers_two_readers :
    ∃ w, BusRun.init.run Sample.twoReaders = .ok w ∧ "p" ∈ w.bus.subscribers.keys ∧
      ∃ positions : List Nat, (w.received 0).map some = positions.map fun i =>
        [Sample.notice "p" "1", Sample.notice "p" "2", Sample.notice "p" "4"][i]? := by
  obtain ⟨w, hrun, hkeys, hqueues⟩ := event_bus_delivers Sample.twoReaders
  obtain ⟨⟨positions, -, hreceived, -⟩, -⟩ := hqueues [] "p" Sample.twoReaders.tail rfl
  exact ⟨w, hrun, (hkeys "p").mpr ⟨[], _, rfl, by simp [nextQueue]⟩, positions, hreceived⟩

end LavsCore

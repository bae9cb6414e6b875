import LavsCore.Concurrency.Effects
import LavsCore.Concurrency.Refusals
import LavsCore.Lib.Emission

/-!
# The events of calls that interleave

Any number of the routes that write run at the same time, each at a server of its own, and each
statement is one step. Every server hands its events to a bus of its own; the log of the world lists
them all.

`events_interleaved`: whatever is interleaved, a call publishes one event at most. One that fails
publishes none, and one that answers has published exactly the event that its answer shows.
-/

namespace LavsCore

open Query EffectsLemmas

/-- The route `POST /products/{product_id}/releases`, with what the query answers. -/
def cutReleaseRoute (data : CutReleaseRequest) (env : Env) : Query CutReleaseResult := do
  let result ← cutRelease data env
  if result.created then publish true (releaseCut data.productId result.release)
  return result

/-- The route behind a call. A cut publishes in the route, every other call in its query. -/
def Call.route (call : Call) (env : Env) : Query Response :=
  match call with
  | .cutRelease data => Response.release <$> cutReleaseRoute data env
  | call => call.program env

/-- Requests that have just arrived, each at a server of its own. -/
def Call.arrive (w : World) (requests : List Request) : Servers Response :=
  ⟨w, requests.map fun r => r.1.route r.2⟩

/-- What a call has published when it answers, in a store at or after its end. -/
def Call.Announces (db : Store) : Call → Response → List DomainEvent → Prop
  | .createVersion true data, .version version, events =>
    ∃ productId, db.OwnsComponent productId data.componentId ∧
      events = [versionCreated productId version]
  | .rollbackVersion true data, .version version, events =>
    ∃ productId target, target.id = data.versionId ∧
      db.OwnsComponent productId target.componentId ∧
        events = [versionRolledBack productId target version]
  | .addDependency true data, .dependency dependency, events =>
    events = [dependencyAdded data.productId dependency]
  | .removeDependency true data, .removed, events =>
    ∃ edgeId, events = [dependencyRemoved data edgeId]
  | .cutRelease data, .release result, events =>
    events = if result.created then [releaseCut data.productId result.release] else []
  | _, _, events => events = []

/-- What a call has published when it ends: a failure, nothing. -/
def Call.Publishes (call : Call) (answer : Except ApiError Response) (events : List DomainEvent)
    (w : World) : Prop :=
  match answer with
  | .ok response => call.Announces w.db response events
  | .error _ => events = []

instance : Std.Refl World.Keeps := ⟨World.Keeps.refl⟩

instance : IsTrans World World.Keeps := ⟨fun _ _ _ => World.Keeps.trans⟩

namespace EventDeliveryLemmas

variable {α β : Type} {call : Call} {g : β → Response} {w : World} {writes : List Sql}

/-- The program has not published yet, and ends as the call should. -/
abbrev Tells (call : Call) (g : α → Response) (p : Query α) (w : World) : Prop :=
  p.Emits World.Keeps World.published
    (fun answer events w' => call.Publishes (answer.map g) events w') [] w

/-- Only `publish` publishes. -/
theorem published_of_effect (hno : Sql.publish ∉ writes) (l : Sql) (w w' : World)
    (h : EffectOf writes l w w') : w.Keeps w' ∧ w'.published = w.published := by
  rcases h with ⟨-, rfl⟩ | ⟨hl, heffect⟩
  · exact ⟨.refl w', rfl⟩
  · refine ⟨keeps_of_effect heffect, ?_⟩
    cases heffect with
    | publish _ _ => exact absurd hl hno
    | _ => rfl

theorem ownsComponent_keeps {w w' : World} {productId componentId : String} (h : w.Keeps w')
    (howns : w.db.OwnsComponent productId componentId) :
    w'.db.OwnsComponent productId componentId := by
  obtain ⟨component, hmem, hof⟩ := howns
  exact ⟨component, h.components.subset hmem, hof⟩

theorem tells_raise {g : α → Response} (error : ApiError) : Tells call g (Prog.raise error) w :=
  fun _ _ => rfl

theorem tells_quiet_bind (writes : List Sql) (hno : Sql.publish ∉ writes) {p : Query α}
    {f : α → Query β} (hp : p.Steps (EffectOf writes))
    (hok : ∀ a w', w.Keeps w' → Tells call g (f a) w') : Tells call g (p >>= f) w :=
  Prog.emits_steps_bind hp (published_of_effect hno) hok fun _ _ _ => rfl

theorem tells_select_bind {l : Sql} {f : Store → α} {k : α → Query β}
    (h : ∀ w', w.Keeps w' → Tells call g (k (f w'.db)) w') :
    Tells call g (select l f >>= k) w :=
  Prog.emits_query_bind h

theorem tells_lift_bind {r : Except ApiError α} {f : α → Query β}
    (h : ∀ a, r = .ok a → Tells call g (f a) w) : Tells call g (Prog.lift r >>= f) w :=
  Prog.emits_lift_bind h fun _ _ _ => rfl

/-- The event, if there is a bus, and then the answer. -/
theorem tells_publish_bind {eventBus : Bool} {event : DomainEvent} {response : β}
    (h : ∀ w', w.Keeps w' →
      call.Announces w'.db (g response) (if eventBus then [event] else [])) :
    Tells call g (publish eventBus event >>= fun _ => pure response) w := by
  cases eventBus with
  | false => exact fun w' hw' => h w' hw'
  | true =>
    refine Prog.emits_append_bind (fun w' => ⟨List.prefix_refl _, List.prefix_refl _,
      List.prefix_refl _⟩) (fun _ => rfl) fun w' hw' => ?_
    exact fun w'' hw'' => h w'' (hw'.trans ⟨hw''.components, hw''.versions, hw''.releases⟩)

/-! ## The calls -/

/-- A call without a `publish` publishes nothing. -/
theorem tells_of_quiet (hno : Sql.publish ∉ writes) {p : Query α} {g : α → Response}
    (hp : p.Steps (EffectOf writes)) (h : ∀ db a, call.Announces db (g a) []) :
    Tells call g p w := by
  refine (Prog.emits_steps hp (published_of_effect hno)).mono ?_
  rintro (error | a) _ w' ⟨rfl, -⟩
  · rfl
  · exact h w'.db a

theorem createVersion_tells (eventBus : Bool) (data : CreateVersionModel) (env : Env) :
    Tells (.createVersion eventBus data) Response.version (createVersion eventBus data env) w := by
  unfold createVersion
  refine tells_select_bind fun w₁ _ => ?_
  split
  · exact tells_raise _
  · next component rest hfound =>
    obtain ⟨hmem, hid⟩ := RefusalsLemmas.lookup_cons hfound
    refine tells_quiet_bind [.supersedeActive] (by simp) (steps_execute (by simp)
      fun w => .supersedeActive w _) fun _ w₂ hw₂ => ?_
    refine tells_lift_bind fun major _ => ?_
    refine tells_lift_bind fun minor _ => ?_
    refine tells_lift_bind fun patch _ => ?_
    refine tells_quiet_bind [.insertVersion] (by simp) (steps_insert (by simp)
      fun _ _ hinsert => .insertVersion (Store.insertVersionOn_ok hinsert).2) fun _ w₃ hw₃ => ?_
    refine tells_select_bind fun w₄ hw₄ => ?_
    refine tells_quiet_bind [] (by simp) (steps_firstRow _) fun created w₅ hw₅ => ?_
    refine tells_lift_bind fun version _ => ?_
    refine tells_publish_bind fun w₆ hw₆ => ?_
    cases eventBus with
    | false => rfl
    | true =>
      have hkeeps : w₁.Keeps w₆ := ((hw₂.trans hw₃).trans (hw₄.trans hw₅)).trans hw₆
      exact ⟨component.productId, ownsComponent_keeps hkeeps ⟨component, hmem, hid, rfl⟩, rfl⟩

theorem rollbackVersion_tells (eventBus : Bool) (data : RollbackVersionRequest) (env : Env) :
    Tells (.rollbackVersion eventBus data) Response.version
      (rollbackVersion eventBus data env) w := by
  unfold rollbackVersion
  refine tells_select_bind fun w₁ _ => ?_
  split
  · exact tells_raise _
  next targetRow rest hfound =>
  obtain ⟨-, hid⟩ := RefusalsLemmas.lookup_cons hfound
  refine tells_lift_bind fun target htarget => ?_
  have htargetId : target.id = data.versionId := by
    obtain ⟨_, -, -, rfl⟩ := toVersionResponse_ok_iff.mp htarget
    exact hid
  refine tells_select_bind fun w₂ _ => ?_
  split
  · exact tells_raise _
  refine tells_lift_bind fun previous _ => ?_
  refine tells_quiet_bind [.markStatus .rolledBack] (by simp) (steps_execute (by simp)
      fun w => .markStatus w _ _) fun _ w₃ _ => ?_
  refine tells_quiet_bind [.supersedeActive] (by simp) (steps_execute (by simp)
      fun w => .supersedeActive w _) fun _ w₄ _ => ?_
  refine tells_quiet_bind [.markStatus .active] (by simp) (steps_execute (by simp)
      fun w => .markStatus w _ _) fun _ w₅ _ => ?_
  refine tells_select_bind fun w₆ _ => ?_
  refine tells_quiet_bind [] (by simp) (steps_firstRow _) fun reactivatedRow w₇ _ => ?_
  refine tells_lift_bind fun reactivated _ => ?_
  cases eventBus with
  | false =>
    refine tells_quiet_bind [] (by simp) (eventProduct_steps _ _) fun productId w₈ _ => ?_
    exact tells_publish_bind fun _ _ => rfl
  | true =>
    -- The component is looked up only for the event.
    have hproduct : (eventProduct true target.componentId).Emits World.Keeps World.published
        (fun answer events w' => events = [] ∧ ∀ productId, answer = .ok productId →
          w'.db.OwnsComponent productId target.componentId) [] w₇ := by
      refine Prog.emits_query_bind fun w₈ _ => ?_
      split
      · next component rest hfound =>
        obtain ⟨hmem, hof⟩ := RefusalsLemmas.lookup_cons hfound
        refine fun w₉ hw₉ => ⟨rfl, ?_⟩
        rintro _ ⟨⟩
        exact ownsComponent_keeps hw₉ ⟨component, hmem, hof, rfl⟩
      · refine fun w₉ _ => ⟨rfl, ?_⟩
        rintro _ ⟨⟩
    refine Prog.emits_bind hproduct ?_ ?_
    · rintro productId _ w₈ ⟨rfl, howns⟩
      refine tells_publish_bind fun w₉ hw₉ => ?_
      exact ⟨productId, target, htargetId, ownsComponent_keeps hw₉ (howns productId rfl), rfl⟩
    · rintro error _ w₈ ⟨rfl, -⟩
      rfl

theorem addDependency_tells (eventBus : Bool) (data : CreateDependencyRequest) (env : Env) :
    Tells (.addDependency eventBus data) Response.dependency
      (addDependency eventBus data env) w := by
  unfold addDependency
  refine tells_select_bind fun w₁ _ => ?_
  refine tells_quiet_bind [] (by simp) (steps_refuseIf _ _) fun _ w₂ _ => ?_
  refine tells_quiet_bind [] (by simp) (assertComponent_steps _ _) fun _ w₃ _ => ?_
  refine tells_quiet_bind [] (by simp) (assertComponent_steps _ _) fun _ w₄ _ => ?_
  refine tells_quiet_bind [] (by simp) (steps_refuseIf _ _) fun _ w₅ _ => ?_
  refine tells_select_bind fun w₆ _ => ?_
  refine tells_quiet_bind [] (by simp) (steps_refuseIf _ _) fun _ w₇ _ => ?_
  refine tells_select_bind fun w₈ _ => ?_
  refine tells_quiet_bind [] (by simp) (steps_refuseIf _ _) fun _ w₉ _ => ?_
  refine tells_quiet_bind [.insertEdge] (by simp) (steps_insert (by simp)
      fun _ _ => .insertEdge) fun _ w₁₀ _ => ?_
  refine tells_select_bind fun w₁₁ _ => ?_
  split
  · exact tells_raise _
  · refine tells_publish_bind fun w₁₂ _ => ?_
    cases eventBus <;> rfl

theorem removeDependency_tells (eventBus : Bool) (data : RemoveDependencyRequest) :
    Tells (.removeDependency eventBus data) (fun _ => Response.removed)
      (removeDependency eventBus data) w := by
  unfold removeDependency
  refine tells_select_bind fun w₁ _ => ?_
  split
  · exact tells_raise _
  next edge rest _ =>
  refine tells_quiet_bind [.deleteEdge] (by simp) (steps_execute (by simp)
      fun w => .deleteEdge w _) fun _ w₂ _ => ?_
  cases eventBus with
  | false => exact fun _ _ => rfl
  | true =>
    have hpublish : Tells (.removeDependency true data) (fun _ => Response.removed)
        (publish true (dependencyRemoved data edge.id) >>= fun _ => pure PUnit.unit) w₂ :=
      tells_publish_bind fun _ _ => ⟨edge.id, rfl⟩
    exact hpublish

theorem cutRelease_tells (data : CutReleaseRequest) (env : Env) :
    Tells (.cutRelease data) Response.release (cutReleaseRoute data env) w := by
  unfold cutReleaseRoute
  refine tells_quiet_bind _ (by simp) (cutRelease_steps data env) fun result w₁ _ => ?_
  split
  · next hcreated =>
    refine tells_publish_bind fun w₂ _ => ?_
    simp [Call.Announces, hcreated]
  · next hreplayed =>
    refine fun w₂ _ => ?_
    simp [Call.Publishes, Except.map, Call.Announces, hreplayed]

theorem route_tells (r : Request) : Tells r.1 id (r.1.route r.2) w := by
  obtain ⟨call, env⟩ := r
  have hwrap : ∀ {α : Type} (g : α → Response) {p : Query α},
      Tells call g p w → Tells call id (g <$> p) w := by
    intro α g p hp
    refine Prog.emits_map (hp.mono fun answer events w' h => ?_)
    cases answer <;> exact h
  cases call with
  | createProduct data =>
    exact hwrap _ (tells_of_quiet (by simp) (createProduct_steps data env) fun _ _ => rfl)
  | createComponent data =>
    exact hwrap _ (tells_of_quiet (by simp) (createComponent_steps data env) fun _ _ => rfl)
  | createVersion eventBus data => exact hwrap _ (createVersion_tells eventBus data env)
  | rollbackVersion eventBus data => exact hwrap _ (rollbackVersion_tells eventBus data env)
  | addDependency eventBus data => exact hwrap _ (addDependency_tells eventBus data env)
  | removeDependency eventBus data => exact hwrap _ (removeDependency_tells eventBus data)
  | cutRelease data => exact hwrap _ (cutRelease_tells data env)

theorem length_of_publishes {call : Call} {answer : Except ApiError Response}
    {events : List DomainEvent} (h : call.Publishes answer events w) : events.length ≤ 1 := by
  cases answer with
  | error error => exact (congrArg List.length h).le.trans (Nat.zero_le 1)
  | ok response =>
    simp only [Call.Publishes] at h
    unfold Call.Announces at h
    split at h
    · obtain ⟨_, _, rfl⟩ := h
      exact Nat.le_refl _
    · obtain ⟨_, _, _, _, rfl⟩ := h
      exact Nat.le_refl _
    · exact (congrArg List.length h).le
    · obtain ⟨_, rfl⟩ := h
      exact Nat.le_refl _
    · rw [h]
      split
      · exact Nat.le_refl _
      · exact Nat.zero_le _
    · exact (congrArg List.length h).le.trans (Nat.zero_le 1)

end EventDeliveryLemmas

/-- What the route of a cut leaves and answers is what `postRelease` does. -/
theorem run_postRelease (data : CutReleaseRequest) (env : Env) (w : World) :
    (postRelease data env).run w =
      ((cutReleaseRoute data env).run w).map (Except.map CutReleaseResult.release) id := by
  unfold postRelease cutReleaseRoute
  rw [Prog.run_bind, Prog.run_bind]
  generalize (cutRelease data env).run w = result
  obtain ⟨answer, w'⟩ := result
  cases answer with
  | error error => rfl
  | ok result =>
    dsimp only
    split <;> rfl

open EventDeliveryLemmas

/-- Whatever is interleaved, the events published are those of the calls: of each call one at
most, at every moment; of a call that has failed none; and of a call that has answered exactly the
one that its answer shows, or none where it has no bus, replays a cut or creates a product or a
component. -/
theorem events_interleaved (w : World) (requests : List Request) (schedule : List Nat) :
    ∃ entries : List (Nat × DomainEvent),
      ((Call.arrive w requests).exec schedule).state.published =
          w.published ++ entries.map Prod.snd ∧
        (∀ entry ∈ entries, entry.1 < requests.length) ∧
          ∀ i r, requests[i]? = some r →
            (emittedBy i entries).length ≤ 1 ∧
              (∀ error, ((Call.arrive w requests).exec schedule).outcome i = some (.error error) →
                emittedBy i entries = []) ∧
                ∀ response,
                  ((Call.arrive w requests).exec schedule).outcome i = some (.ok response) →
                    r.1.Announces ((Call.arrive w requests).exec schedule).state.db response
                      (emittedBy i entries) := by
  let post (i : Nat) (answer : Except ApiError Response) (events : List DomainEvent) (w' : World) :
      Prop := ∀ r, requests[i]? = some r → r.1.Publishes answer events w'
  have hstart : ∀ (i : Nat) (p : Query Response), (Call.arrive w requests).procs[i]? = some p →
      p.Emits World.Keeps World.published (post i) [] w := by
    intro i p hp
    rw [Call.arrive, List.getElem?_map, Option.map_eq_some_iff] at hp
    obtain ⟨r, hr, rfl⟩ := hp
    refine (route_tells r).mono fun answer events w' h r' hr' => ?_
    obtain rfl : r = r' := Option.some.inj (hr.symm.trans hr')
    cases answer <;> exact h
  obtain ⟨entries, hentries⟩ := Config.exec_emits schedule hstart
  have hlength : ((Call.arrive w requests).exec schedule).procs.length = requests.length := by
    rw [Config.length_exec, Call.arrive, List.length_map]
  refine ⟨entries, hentries.shuffle, ?_, fun i r hr => ⟨?_, ?_, ?_⟩⟩
  · exact fun entry hentry => hlength ▸ hentries.owned entry hentry
  · have hlt : i < ((Call.arrive w requests).exec schedule).procs.length :=
      hlength ▸ (List.getElem?_eq_some_iff.mp hr).1
    obtain ⟨answer, events, w', hprefix, hpost⟩ :=
      (hentries.procs i _ (List.getElem?_eq_getElem hlt)).exists_end
    exact hprefix.length_le.trans (length_of_publishes (hpost r hr))
  · exact fun error houtcome => hentries.outcome houtcome r hr
  · exact fun response houtcome => hentries.outcome houtcome r hr

/-- The edge is removed before its insertion has been read back: the addition fails and publishes
nothing, although a removal is published. -/
theorem events_interleaved_edgeRace :
    ∃ entries : List (Nat × DomainEvent),
      ((Call.arrive (run World.init Sample.setup) Sample.edgeRace).exec
          Sample.edgeRaceSchedule).state.published =
        (run World.init Sample.setup).published ++ entries.map Prod.snd ∧
      emittedBy 0 entries = [] ∧ ∃ edgeId, emittedBy 1 entries =
        [dependencyRemoved ⟨Sample.id 10, Sample.id 11, Sample.id 12⟩ edgeId] := by
  obtain ⟨entries, hlog, -, hcalls⟩ :=
    events_interleaved (run World.init Sample.setup) Sample.edgeRace Sample.edgeRaceSchedule
  have hfailed : errorOf (((Call.arrive (run World.init Sample.setup) Sample.edgeRace).exec
      Sample.edgeRaceSchedule).outcome 0) = some edgeNotFound := by
    decide +kernel
  refine ⟨entries, hlog, (hcalls 0 _ rfl).2.1 _ (eq_of_errorOf hfailed), ?_⟩
  exact (hcalls 1 _ rfl).2.2 .removed rfl

end LavsCore

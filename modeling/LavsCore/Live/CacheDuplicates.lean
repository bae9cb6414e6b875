import LavsCore.Live.ProductEvents

/-!
# Duplicates in the caches

A cut reaches the client twice: `onSuccess` of `useCutRelease` puts the release of the answer
in front of the cached ledger, and the handler of the `release.cut` frame does the same.
Frames may be delivered more than once, and may come after a refetch that has their effect
already. `live_caches_distinct_iff`: the caches stay free of duplicates exactly in the runs
where nothing arrives that is cached already. Edges need no such care (`edges_distinct`).
-/

namespace LavsCore

/-! ## What reaches the client -/

/-- What `onSuccess` makes of the ledger, whether one is cached or not. -/
def prependRelease (release : ReleaseResponseModel)
    (ledger : Entry ApiError (List ReleaseResponseModel)) :
    Entry ApiError (List ReleaseResponseModel) :=
  { ledger with
    data :=
      match ledger.data with
      | some previous => some (release :: previous)
      | none => some [release] }

/-- `onSuccess` of `useCutRelease`. -/
def cutReleaseSuccess (keepsFirst : Bool) (release : ReleaseResponseModel) (cache : QueryCache) :
    QueryCache :=
  let prepended := Function.update cache QueryKey.releases
    ((prependRelease release (cache .releases)).invalidate keepsFirst)
  Function.update prepended QueryKey.timeline ((prepended .timeline).invalidate keepsFirst)

inductive Arrival where
  /-- The answer of the `POST` of a cut. -/
  | cut (release : ReleaseResponseModel)
  | frame (event : ProductEvent)
  /-- Some part of the client asks for an answer again. -/
  | invalidate (key : QueryKey)
  /-- The server answers, with what it holds at that moment. -/
  | serve (key : QueryKey) (w : World)
  /-- That answer arrives. -/
  | receive (key : QueryKey)

def arrive (keepsFirst : Bool) (productId : String) (cache : QueryCache) : Arrival → QueryCache
  | .cut release => cutReleaseSuccess keepsFirst release cache
  | .frame event => handleEvent keepsFirst event cache
  | .invalidate key => Function.update cache key ((cache key).invalidate keepsFirst)
  | .serve key w => Function.update cache key ((cache key).serve (answer productId key w))
  | .receive key => Function.update cache key (cache key).receive

/-- The caches after a list of arrivals; the client starts with nothing and asks for all
answers. -/
abbrev cachesAfter (keepsFirst : Bool) (productId : String) (arrivals : List Arrival) :
    QueryCache :=
  History.run (arrive keepsFirst productId) (fun _ => Entry.mount) arrivals

/-! ## Duplicates -/

/-- No id occurs twice: among the releases, the edges, or the versions of a component. -/
def Distinct : (key : QueryKey) → key.Data → Prop
  | .timeline, timeline => ∀ component ∈ timeline.components,
      (component.versions.map VersionResponseModel.id).Nodup
  | .graph, graph => (graph.edges.map DependencyResponseModel.id).Nodup
  | .releases, releases => (releases.map ReleaseResponseModel.id).Nodup

/-- Each release id occurs at most once in the cached ledger, and each version id at most
once in its component. -/
def NoDuplicates (cache : QueryCache) : Prop :=
  (∀ releases ∈ (cache .releases).data, Distinct .releases releases) ∧
    ∀ timeline ∈ (cache .timeline).data, Distinct .timeline timeline

/-- The event brings nothing that is cached already. -/
def ProductEvent.NewIn (event : ProductEvent) : (key : QueryKey) → key.Data → Prop
  | .timeline, timeline =>
    match event with
    | .versionCreated event => ∀ component ∈ timeline.components,
        component.id = event.componentId →
          event.version.id ∉ component.versions.map VersionResponseModel.id
    | _ => True
  | .graph, _ => True
  | .releases, releases =>
    match event with
    | .releaseCut event => event.release.id ∉ releases.map ReleaseResponseModel.id
    | _ => True

/-- What arrives is not cached already. Answers of the server are always welcome. -/
def IsNew (cache : QueryCache) : Arrival → Prop
  | .cut release => ∀ releases ∈ (cache .releases).data,
      release.id ∉ releases.map ReleaseResponseModel.id
  | .frame event => ∀ data ∈ (cache event.key).data, event.NewIn event.key data
  | _ => True

namespace CacheDuplicatesLemmas

/-! ## Reducers -/

variable {key : QueryKey} {event : ProductEvent} {data : key.Data}

theorem nodup_append_singleton {α : Type} {xs : List α} {x : α} (h : xs.Nodup) :
    (xs ++ [x]).Nodup ↔ x ∉ xs := by
  rw [List.nodup_append_comm, List.singleton_append, List.nodup_cons, and_iff_left h]

theorem ids_addVersionToComponent (component : ComponentWithVersionsResponseModel)
    (incoming : VersionResponseModel) :
    (addVersionToComponent component incoming).versions.map VersionResponseModel.id =
      component.versions.map VersionResponseModel.id ++ [incoming.id] := by
  rw [addVersionToComponent, List.map_append, List.map_map]
  congr 1
  refine List.map_congr_left fun version _ => ?_
  show (if _ then _ else _ : VersionResponseModel).id = version.id
  split <;> rfl

theorem id_rollBackVersion (event : VersionRolledBackEvent) (version : VersionResponseModel) :
    (rollBackVersion event version).id = version.id := by
  unfold rollBackVersion
  split
  · rfl
  · split <;> rfl

theorem distinct_applyVersionCreated {timeline : TimelineResponseModel}
    (h : Distinct .timeline timeline) (event : VersionCreatedEvent) :
    Distinct .timeline (applyVersionCreated timeline event) ↔
      (ProductEvent.versionCreated event).NewIn .timeline timeline := by
  simp only [Distinct, applyVersionCreated, List.forall_mem_map, ProductEvent.NewIn]
  refine forall₂_congr fun component hcomponent => ?_
  by_cases hid : component.id = event.componentId
  · rw [if_neg (not_not.mpr hid), ids_addVersionToComponent,
      nodup_append_singleton (h component hcomponent)]
    exact ⟨fun hnew _ => hnew, fun hnew => hnew hid⟩
  · rw [if_pos hid]
    exact iff_of_true (h component hcomponent) fun heq => absurd heq hid

theorem distinct_applyVersionRolledBack {timeline : TimelineResponseModel}
    (h : Distinct .timeline timeline) (event : VersionRolledBackEvent) :
    Distinct .timeline (applyVersionRolledBack timeline event) := by
  simp only [Distinct, applyVersionRolledBack, List.forall_mem_map]
  intro component hcomponent
  have hids : component.versions.map (VersionResponseModel.id ∘ rollBackVersion event) =
      component.versions.map VersionResponseModel.id :=
    List.map_congr_left fun version _ => id_rollBackVersion event version
  rw [List.map_map, hids]
  exact h component hcomponent

theorem distinct_applyDependencyAdded {graph : GraphResponseModel} (h : Distinct .graph graph)
    (event : DependencyAddedEvent) : Distinct .graph (applyDependencyAdded graph event) := by
  unfold applyDependencyAdded
  split
  · exact h
  · next hnew =>
    show (List.map _ (graph.edges ++ [_])).Nodup
    rw [List.map_append, List.map_singleton, nodup_append_singleton h]
    intro hmem
    obtain ⟨edge, hedge, hid⟩ := List.mem_map.mp hmem
    exact hnew (List.any_eq_true.mpr ⟨edge, hedge, decide_eq_true hid⟩)

theorem distinct_applyDependencyRemoved {graph : GraphResponseModel} (h : Distinct .graph graph)
    (event : DependencyRemovedEvent) : Distinct .graph (applyDependencyRemoved graph event) :=
  h.sublist (List.filter_sublist.map _)

/-- What a handler sets has no duplicates if and only if the event is new. -/
theorem distinct_reduce_iff (h : Distinct key data) :
    Distinct key (event.reduce key data) ↔ event.NewIn key data := by
  cases key with
  | timeline =>
    cases event with
    | versionCreated event => exact distinct_applyVersionCreated h event
    | versionRolledBack event => exact iff_of_true (distinct_applyVersionRolledBack h event) trivial
    | _ => exact iff_of_true h trivial
  | graph =>
    cases event with
    | dependencyAdded event => exact iff_of_true (distinct_applyDependencyAdded h event) trivial
    | dependencyRemoved event => exact iff_of_true (distinct_applyDependencyRemoved h event) trivial
    | _ => exact iff_of_true h trivial
  | releases =>
    cases event with
    | releaseCut event => exact List.nodup_cons.trans (and_iff_left h)
    | _ => exact iff_of_true h trivial

/-! ## The server -/

theorem nodup_keys_filter {α κ : Type} {keyOf : α → κ} (t : Table α keyOf) (p : α → Bool) :
    ((t.rows.filter p).map keyOf).Nodup :=
  t.nodup_keys.sublist (List.filter_sublist.map keyOf)

theorem nodup_ids_orderBy {α κ ι : Type} [LinearOrder ι] {f : α → ι} {keyOf : α → κ}
    {rows : List α} (h : (rows.map keyOf).Nodup) : ((orderBy f rows).map keyOf).Nodup :=
  ((orderBy_perm f rows).map keyOf).nodup_iff.mpr h

/-- No answer of the server has duplicates. -/
theorem distinct_answer {productId : String} {w : World} (h : answer productId key w = .ok data) :
    Distinct key data := by
  cases key with
  | timeline =>
    obtain ⟨product, -, -, -, rfl⟩ := getTimeline_ok_iff.mp h
    intro component hcomponent
    obtain ⟨c, -, rfl⟩ := List.mem_map.mp hcomponent
    show (((w.db.versionsOfComponent c.id).map versionView).map _).Nodup
    rw [List.map_map]
    exact nodup_ids_orderBy (nodup_keys_filter w.db.versions _)
  | graph =>
    obtain ⟨-, rfl⟩ := getProductGraph_ok_iff.mp h
    show (((w.db.dependenciesOf productId).map toDependencyResponse).map _).Nodup
    rw [List.map_map]
    exact nodup_ids_orderBy (nodup_keys_filter w.db.dependencies _)
  | releases =>
    by_cases hknown : productId ∈ w.db.products.keys
    · have hview : (w.db.releasesOf productId).map w.db.readView = data := by
        have hrun := congrArg Prod.fst (run_listReleasesByProduct hknown)
        exact Except.ok.inj (hrun.symm.trans h)
      rw [← hview]
      show (((w.db.releasesOf productId).map w.db.readView).map _).Nodup
      rw [List.map_map]
      exact nodup_ids_orderBy (nodup_keys_filter w.db.releases _)
    · have hnone : w.db.products.lookup productId = [] := Table.lookup_eq_nil.mpr hknown
      simp [answer, endpoint, listReleasesByProduct, hnone] at h

/-! ## Arrivals -/

/-- Neither what is cached nor an answer on its way has duplicates. -/
structure CleanEntry (key : QueryKey) (entry : Entry ApiError key.Data) : Prop where
  cached : ∀ data ∈ entry.data, Distinct key data
  answered : ∀ data, entry.fetch = .served (.ok data) → Distinct key data

variable {entry : Entry ApiError key.Data} {keepsFirst : Bool} {productId : String}

theorem CleanEntry.mount : CleanEntry key Entry.mount where
  cached _ hdata := by cases hdata
  answered _ hfetch := by cases hfetch

theorem CleanEntry.invalidate (h : CleanEntry key entry) :
    CleanEntry key (entry.invalidate keepsFirst) := by
  unfold Entry.invalidate
  split
  · exact h
  · exact ⟨h.cached, fun data hfetch => by cases hfetch⟩

theorem CleanEntry.serve (h : CleanEntry key entry) (w : World) :
    CleanEntry key (entry.serve (answer productId key w)) := by
  unfold Entry.serve
  split
  · refine ⟨h.cached, fun data hfetch => ?_⟩
    exact distinct_answer (Fetch.served.inj hfetch)
  · exact h

theorem CleanEntry.receive (h : CleanEntry key entry) : CleanEntry key entry.receive := by
  unfold Entry.receive
  split
  · next data hfetch =>
    refine ⟨fun data' hdata => ?_, fun data' hfetch' => by cases hfetch'⟩
    cases hdata
    exact h.answered data hfetch
  · exact ⟨h.cached, fun data hfetch => by cases hfetch⟩
  · exact h

def Clean (cache : QueryCache) : Prop := ∀ key, CleanEntry key (cache key)

variable {cache : QueryCache}

theorem Clean.noDuplicates (h : Clean cache) : NoDuplicates cache :=
  ⟨(h .releases).cached, (h .timeline).cached⟩

theorem cleanEntry_update {key' : QueryKey} (h : CleanEntry key' (cache key'))
    (hentry : key = key' → CleanEntry key (cache key) → CleanEntry key entry) :
    CleanEntry key' (Function.update cache key entry key') := by
  rcases eq_or_ne key' key with rfl | hne
  · rw [Function.update_self]
    exact hentry rfl h
  · rwa [Function.update_of_ne hne]

theorem cleanEntry_prependRelease {ledger : Entry ApiError (List ReleaseResponseModel)}
    (h : CleanEntry .releases ledger) {release : ReleaseResponseModel}
    (hnew : ∀ releases ∈ ledger.data, release.id ∉ releases.map ReleaseResponseModel.id) :
    CleanEntry .releases (prependRelease release ledger) := by
  refine ⟨fun data hdata => ?_, h.answered⟩
  rw [prependRelease] at hdata
  cases hcached : ledger.data with
  | none =>
    rw [hcached] at hdata
    cases hdata
    exact List.nodup_singleton _
  | some previous =>
    rw [hcached] at hdata
    cases hdata
    exact List.nodup_cons.mpr ⟨hnew previous hcached, h.cached previous hcached⟩

/-- What arrives brings nothing that is cached already under the key. -/
def NewAt (key : QueryKey) (cache : QueryCache) (a : Arrival) : Prop :=
  match a with
  | .cut _ => key = .releases → IsNew cache a
  | .frame event => event.key = key → IsNew cache a
  | _ => True

theorem cleanEntry_arrive {key : QueryKey} (h : CleanEntry key (cache key)) {a : Arrival}
    (hnew : NewAt key cache a) :
    CleanEntry key (arrive keepsFirst productId cache a key) := by
  cases a with
  | cut release =>
    refine cleanEntry_update ?_ fun _ htimeline => htimeline.invalidate
    exact cleanEntry_update h fun hkey hledger =>
      (cleanEntry_prependRelease hledger (hnew hkey.symm)).invalidate
  | frame event =>
    refine cleanEntry_update h fun hkey hentry => CleanEntry.invalidate ⟨?_, hentry.answered⟩
    intro data hdata
    obtain ⟨before, hbefore, rfl⟩ := Option.map_eq_some_iff.mp hdata
    exact (distinct_reduce_iff (hentry.cached before hbefore)).mpr (hnew hkey before hbefore)
  | invalidate key => exact cleanEntry_update h fun _ hentry => hentry.invalidate
  | serve key w => exact cleanEntry_update h fun _ hentry => hentry.serve w
  | receive key => exact cleanEntry_update h fun _ hentry => hentry.receive

/-- What arrives and is new leaves no duplicates. -/
theorem clean_arrive (h : Clean cache) {a : Arrival} (hnew : IsNew cache a) :
    Clean (arrive keepsFirst productId cache a) := by
  refine fun key => cleanEntry_arrive (h key) ?_
  cases a with
  | cut release => exact fun _ => hnew
  | frame event => exact fun _ => hnew
  | _ => trivial

theorem data_cut {release : ReleaseResponseModel} {previous : List ReleaseResponseModel}
    (hcached : (cache .releases).data = some previous) :
    (arrive keepsFirst productId cache (.cut release) .releases).data =
      some (release :: previous) := by
  have hne : QueryKey.releases ≠ QueryKey.timeline := by decide
  rw [arrive, cutReleaseSuccess, Function.update_of_ne hne, Function.update_self,
    Entry.data_invalidate, prependRelease, hcached]

theorem data_frame {data : event.key.Data} (hcached : (cache event.key).data = some data) :
    (arrive keepsFirst productId cache (.frame event) event.key).data =
      some (event.reduce event.key data) := by
  rw [arrive, handleEvent, Function.update_self, Entry.data_invalidate, Entry.setData, hcached]
  rfl

/-- What arrives and is cached already is there twice. -/
theorem isNew_of_noDuplicates (h : Clean cache) {a : Arrival}
    (hafter : NoDuplicates (arrive keepsFirst productId cache a)) : IsNew cache a := by
  obtain ⟨hreleases, htimeline⟩ := hafter
  cases a with
  | cut release => exact fun previous hcached =>
      (List.nodup_cons.mp (hreleases _ (data_cut hcached))).1
  | frame event =>
    intro data hcached
    have hdistinct := (h event.key).cached data hcached
    cases event with
    | versionCreated event =>
      exact (distinct_reduce_iff hdistinct).mp (htimeline _ (data_frame hcached))
    | releaseCut event =>
      exact (distinct_reduce_iff hdistinct).mp (hreleases _ (data_frame hcached))
    | _ => trivial
  | _ => trivial

end CacheDuplicatesLemmas

open CacheDuplicatesLemmas

/-- The caches are free of duplicates after every arrival of a run if and only if each of them
brings what is not cached at that moment. -/
theorem live_caches_distinct_iff (keepsFirst : Bool) (productId : String)
    (arrivals : List Arrival) :
    (∀ before, before <+: arrivals →
        NoDuplicates (cachesAfter keepsFirst productId before)) ↔
      History.Along (arrive keepsFirst productId) IsNew (fun _ => Entry.mount) arrivals := by
  have hmount : Clean fun _ => Entry.mount := fun _ => CleanEntry.mount
  exact History.along_iff_prefixes hmount (fun _ h => h.noDuplicates)
    (fun _ _ hnew h => clean_arrive h hnew) fun _ _ h hafter => isNew_of_noDuplicates h hafter

namespace Sample

/-- The empty ledger is fetched. -/
def ledgerCached : List Arrival := [.serve .releases versioned, .receive .releases]

end Sample

/-- The ledger is cached, a cut is answered, and then the frame that announces it arrives. -/
theorem live_caches_duplicate :
    ∃ release event,
      ((postRelease (Sample.release none) (Sample.env 30)).run Sample.versioned).1 =
        .ok release ∧
      (announced (Sample.id 10) Sample.versioned
        (.cutRelease (Sample.release none), Sample.env 30)).map parseEvent = [some event] ∧
      ¬ NoDuplicates (cachesAfter false (Sample.id 10)
        (Sample.ledgerCached ++ [.cut release, .frame event])) := by
  have hframe : (announced (Sample.id 10) Sample.versioned
      (.cutRelease (Sample.release none), Sample.env 30)).map parseEvent =
        [((postRelease (Sample.release none) (Sample.env 30)).run Sample.versioned).1.toOption.map
          fun release => .releaseCut ⟨release⟩] := by decide +kernel
  have hanswer : ((postRelease (Sample.release none) (Sample.env 30)).run
      Sample.versioned).1.toOption.isSome = true := by decide +kernel
  have hcached : (cachesAfter false (Sample.id 10) Sample.ledgerCached .releases).data =
      some [] := by decide +kernel
  cases hcut : ((postRelease (Sample.release none) (Sample.env 30)).run Sample.versioned).1 with
  | error error =>
    rw [hcut] at hanswer
    cases hanswer
  | ok release =>
    rw [hcut] at hframe
    refine ⟨release, .releaseCut ⟨release⟩, rfl, hframe, fun h => ?_⟩
    let before := cachesAfter false (Sample.id 10) Sample.ledgerCached
    have hcut : (arrive false (Sample.id 10) before (.cut release)
        (ProductEvent.releaseCut ⟨release⟩).key).data = some [release] := data_cut hcached
    have hrun : cachesAfter false (Sample.id 10)
        (Sample.ledgerCached ++ [.cut release, .frame (.releaseCut ⟨release⟩)]) =
          arrive false (Sample.id 10) (arrive false (Sample.id 10) before (.cut release))
            (.frame (.releaseCut ⟨release⟩)) := History.run_append _ _ _ _
    rw [hrun] at h
    have htwice : Distinct .releases [release, release] := h.1 _ (data_frame hcut)
    exact (List.nodup_cons.mp htwice).1 List.mem_cons_self

/-- The edges of the cached graph are told apart in every run. -/
theorem edges_distinct (keepsFirst : Bool) (productId : String) (arrivals : List Arrival) :
    ∀ graph ∈ (cachesAfter keepsFirst productId arrivals .graph).data, Distinct .graph graph := by
  have hclean : CleanEntry .graph (cachesAfter keepsFirst productId arrivals .graph) := by
    refine History.run_invariant (arrive keepsFirst productId)
      (J := fun cache => CleanEntry .graph (cache .graph)) CleanEntry.mount fun cache a _ h => ?_
    refine cleanEntry_arrive h ?_
    cases a with
    | cut release => exact fun hkey => by cases hkey
    | frame event =>
      intro hkey data _
      show event.NewIn event.key data
      revert data
      rw [hkey]
      exact fun _ _ => trivial
    | _ => trivial
  exact hclean.cached

end LavsCore

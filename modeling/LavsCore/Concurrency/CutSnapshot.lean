import LavsCore.Concurrency.Effects
import LavsCore.Concurrency.Refusals
import LavsCore.Queries.ReleasesRead

/-!
# A cut shows one instant

A cut reads the active components in one statement and works on for many more, while other calls
create, supersede and roll back versions and cut releases of their own. `cut_is_snapshot`: the
answer of a fresh cut shows the components that were active at one instant of the run, and from
then on the release is read with the same pins, whatever else is interleaved.

The phase of a cut carries the instant at which it has read. No two cuts write rows of one
manifest, because each owns the row of its release.
-/

namespace LavsCore

open Store GrowthLemmas Query

/-- The product that a call cuts a release of. -/
def Call.cuts : Call → Option String
  | .cutRelease data => some data.productId
  | _ => none

/-- The product that call `i` cuts a release of. -/
def cutOf (requests : List Request) (i : Nat) : Option String :=
  requests[i]?.bind fun r => r.1.cuts

/-- The rows of one manifest. -/
def Store.manifestRows (db : Store) (releaseId : String) : List ReleaseComponentRow :=
  db.releaseComponents.rows.filter fun rc => rc.releaseId = releaseId

/-! ## The protocol of a cut -/

/-- A release that is being written: the instant at which the cut has read the active components,
the row of the release and the change levels. -/
structure Pin where
  seen : World
  row : ReleaseRow
  changes : Dict String String

namespace Pin

variable (pin : Pin)

/-- The components that the release pins. -/
def active : List ActiveComponent := pin.seen.db.activeComponents pin.row.productId

def rowOf (record : ActiveComponent) : ReleaseComponentRow :=
  newManifestRow pin.row.id pin.changes record

@[simp] theorem rowOf_releaseId (record : ActiveComponent) :
    (pin.rowOf record).releaseId = pin.row.id := rfl

/-- The row of a component, joined. -/
def entry (record : ActiveComponent) : ManifestEntry where
  releaseId := pin.row.id
  componentId := record.componentId
  name := record.name
  versionId := record.versionId
  major := record.major
  minor := record.minor
  patch := record.patch
  prerelease := record.prerelease
  changeLevel := Dict.get? pin.changes record.componentId

/-- The release as the cut answers with it. -/
def answer : ReleaseResponseModel :=
  toReleaseResponse pin.row ((pin.active.map pin.entry).map toReleaseComponent)

/-- The release as it is read. -/
def view : ReleaseResponseModel :=
  toReleaseResponse pin.row ((orderBy (fun e : ManifestEntry => toLex (e.name, e.componentId))
    (pin.active.map pin.entry)).map toManifestComponent)

end Pin

/-- Where a call stands: it has not read the active components, has read them at an instant, has
some rows of its manifest written and others left, has loaded the manifest, has its answer, or
will write no release any more. -/
inductive PinPhase where
  | looking (productId : String)
  | selected (productId : String) (seen : World)
  | writing (pin : Pin) (written left : List ActiveComponent)
  | loaded (pin : Pin) (manifest : List ManifestEntry)
  | answered (pin : Pin) (release : ReleaseResponseModel)
  | other

namespace PinPhase

def product : PinPhase → Option String
  | .looking productId | .selected productId _ => some productId
  | .writing pin _ _ | .loaded pin _ | .answered pin _ => some pin.row.productId
  | .other => none

/-- The instant at which a call has read the active components. -/
def seen : PinPhase → Option World
  | .selected _ seen => some seen
  | .writing pin _ _ | .loaded pin _ | .answered pin _ => some pin.seen
  | _ => none

/-- The release that a call works on. -/
def owned : PinPhase → Option Pin
  | .writing pin _ _ | .loaded pin _ | .answered pin _ => some pin
  | _ => none

def isAnswered : PinPhase → Bool
  | .answered _ _ => true
  | _ => false

end PinPhase

def Call.pinPhase : Call → PinPhase
  | .cutRelease data => .looking data.productId
  | _ => .other

/-- The steps of a call, with what they do to the releases. -/
inductive PinStep : PinPhase → Sql → World → PinPhase → World → Prop
  | quiet {l : Sql} {w w' : World} (heffect : WriteEffect l w w')
      (hl : l ≠ .insertReleaseComponent) : PinStep .other l w .other w'
  | stay {q : PinPhase} (hq : q.isAnswered = false) (l : Sql) (w : World) : PinStep q l w q w
  | replay (productId : String) (l : Sql) (w : World) : PinStep (.looking productId) l w .other w
  | select (productId : String) (w : World) :
      PinStep (.looking productId) .selectActiveComponents w (.selected productId w) w
  | insertRelease {w : World} {row : ReleaseRow} {db : Store} (seen : World)
      (changes : Dict String String) (hinsert : w.db.insertRelease row = .ok db) :
      PinStep (.selected row.productId seen) .insertRelease w
        (.writing ⟨seen, row, changes⟩ [] (Pin.active ⟨seen, row, changes⟩)) { w with db := db }
  | insertRow {w : World} {pin : Pin} {record : ActiveComponent} {db : Store}
      (written left : List ActiveComponent)
      (hinsert : w.db.insertReleaseComponent (pin.rowOf record) = .ok db) :
      PinStep (.writing pin written (record :: left)) .insertReleaseComponent w
        (.writing pin (written ++ [record]) left) { w with db := db }
  | readManifest (w : World) (pin : Pin) (written : List ActiveComponent) :
      PinStep (.writing pin written []) .selectReleaseManifest w
        (.loaded pin (w.db.releaseManifest pin.row.id)) w
  | readRelease {w : World} {row : ReleaseRow} (pin : Pin) (manifest : List ManifestEntry)
      (hrow : row ∈ w.db.releases.rows) (hid : row.id = pin.row.id) :
      PinStep (.loaded pin manifest) .selectRelease w
        (.answered pin (toReleaseResponse row (manifest.map toReleaseComponent))) w

/-- A cut that answers with a new release has written it. -/
def PinEnd (q : PinPhase) (response : Response) : Prop :=
  ∀ release, response = .release ⟨release, true⟩ → ∃ pin, q = .answered pin release

namespace CutSnapshotLemmas

variable {α : Type}

/-- A program that only reads keeps the phase. -/
theorem stays_reads {p : Query α} (hp : p.Steps (EffectOf [])) {q : PinPhase}
    (hq : q.isAnswered = false) : p.Stays PinStep (fun _ => True) q := by
  refine hp.follows ?_ fun _ => rfl
  rintro l w w' (⟨-, rfl⟩ | ⟨hmem, -⟩)
  · exact .stay hq l w'
  · exact absurd hmem List.not_mem_nil

theorem load_follows (pin : Pin) (written : List ActiveComponent) :
    (loadRelease pin.row.id).Follows PinStep (fun _ => True)
      (fun q release => q = .answered pin release) (.writing pin written []) := by
  unfold loadRelease
  refine Prog.follows_bind (M := fun q manifest => q = .loaded pin manifest)
    (follows_select fun w _ => ⟨_, .readManifest w pin written, rfl⟩) ?_
  rintro q manifest rfl
  refine Prog.follows_bind (M := fun q rows => (rows = [] ∧ q = .loaded pin manifest) ∨
    ∃ row rest, rows = row :: rest ∧
      q = .answered pin (toReleaseResponse row (manifest.map toReleaseComponent)))
    (follows_select ?_) ?_
  · intro w _
    cases hlookup : w.db.releases.lookup pin.row.id with
    | nil => exact ⟨_, .stay rfl _ w, Or.inl ⟨rfl, rfl⟩⟩
    | cons row rest =>
      obtain ⟨hrow, hid⟩ := RefusalsLemmas.lookup_cons hlookup
      exact ⟨_, .readRelease pin manifest hrow hid, Or.inr ⟨row, rest, rfl, rfl⟩⟩
  · rintro q rows (⟨rfl, rfl⟩ | ⟨row, rest, rfl, rfl⟩)
    · exact Prog.follows_raise _ _
    · rfl

/-- The loop over the manifest moves the components from the rows that are left to those that are
written. -/
theorem rows_follows (pin : Pin) (written left : List ActiveComponent) :
    (forM left fun record => insert .insertReleaseComponent fun db =>
      db.insertReleaseComponent (newManifestRow pin.row.id pin.changes record)).Follows PinStep
      (fun _ => True) (fun q _ => q = .writing pin (written ++ left) [])
      (.writing pin written left) := by
  induction left generalizing written with
  | nil =>
    show PinPhase.writing pin written [] = .writing pin (written ++ []) []
    rw [List.append_nil]
  | cons record left ih =>
    refine Prog.follows_bind (M := fun q _ => q = .writing pin (written ++ [record]) left)
      (follows_insert ?_ ?_) ?_
    · intro w db _ hinsert
      exact ⟨_, .insertRow written left hinsert, rfl⟩
    · exact fun w _ => ⟨_, .stay rfl _ w⟩
    · rintro q _ rfl
      rw [List.append_cons]
      exact ih (written ++ [record])

/-- The lookup of the key goes on to the cut or ends in a replay. -/
theorem replay_follows (data : CutReleaseRequest) (env : Env) :
    (findReplay data env).Follows PinStep (fun _ => True)
      (fun q existing => (existing = none ∧ q = .looking data.productId) ∨
        ∃ row, existing = some row ∧ q = .other) (.looking data.productId) := by
  unfold findReplay
  split
  · exact Or.inl ⟨rfl, rfl⟩
  · next key _ =>
    refine follows_select fun w _ => ?_
    cases w.db.releaseByIdempotency data.productId key env.choice with
    | none => exact ⟨_, .stay rfl _ w, Or.inl ⟨rfl, rfl⟩⟩
    | some row => exact ⟨_, .replay data.productId _ w, Or.inr ⟨row, rfl, rfl⟩⟩

theorem cut_follows (data : CutReleaseRequest) (env : Env) :
    (cutRelease data env).Follows PinStep (fun _ => True)
      (fun q result => PinEnd q (.release result)) (.looking data.productId) := by
  unfold cutRelease
  refine (stays_reads (EffectsLemmas.steps_select rfl _) rfl).bind fun found => ?_
  split
  · exact Prog.follows_raise _ _
  refine Prog.follows_bind (replay_follows data env) ?_
  rintro q existing (⟨rfl, rfl⟩ | ⟨row, rfl, rfl⟩)
  · refine Prog.follows_bind (M := fun q active => ∃ seen : World,
        active = seen.db.activeComponents data.productId ∧ q = .selected data.productId seen)
      (follows_select fun w _ => ⟨_, .select data.productId w, w, rfl, rfl⟩) ?_
    rintro q _ ⟨seen, rfl, rfl⟩
    refine (stays_reads (EffectsLemmas.steps_refuseIf _ _) rfl).bind fun _ => ?_
    refine (stays_reads (EffectsLemmas.steps_select rfl _) rfl).bind fun latest => ?_
    refine (stays_reads (EffectsLemmas.derive_steps _ _ _ _) rfl).bind fun derived => ?_
    refine Prog.follows_lift fun version _ => ?_
    generalize hrow : newReleaseRow data env version derived = row
    have hid : env.ulid = row.id := hrow ▸ rfl
    have hproduct : data.productId = row.productId := hrow ▸ rfl
    rw [hid, hproduct]
    let pin : Pin := ⟨seen, row, derived.changeByComponent⟩
    refine Prog.follows_bind (M := fun q _ => q = .writing pin [] pin.active)
      (follows_insert ?_ ?_) ?_
    · intro w db _ hinsert
      exact ⟨_, .insertRelease seen derived.changeByComponent hinsert, rfl⟩
    · exact fun w _ => ⟨_, .stay rfl _ w⟩
    · rintro q _ rfl
      refine Prog.follows_bind (rows_follows pin [] pin.active) ?_
      rintro q _ rfl
      refine Prog.follows_bind (load_follows pin _) ?_
      rintro q release rfl release' ⟨⟩
      exact ⟨pin, rfl⟩
  · refine (stays_reads (EffectsLemmas.loadRelease_steps _) rfl).bind fun release => ?_
    rintro _ ⟨⟩

theorem program_pins (r : Request) :
    (r.1.program r.2).Follows PinStep (fun _ => True) PinEnd r.1.pinPhase := by
  obtain ⟨call, env⟩ := r
  -- A call that cuts no release.
  have hquiet : ∀ {α : Type} {writes : List Sql} (f : α → Response) {p : Query α},
      p.Steps (EffectOf writes) → Sql.insertReleaseComponent ∉ writes →
      (∀ a result, f a ≠ .release result) →
        (f <$> p).Follows PinStep (fun _ => True) PinEnd .other := by
    intro α writes f p hp hwrites hf
    have hother : p.Follows PinStep (fun _ => True) (fun q _ => q = .other) .other := by
      refine hp.follows ?_ fun _ => rfl
      rintro l w w' (⟨-, rfl⟩ | ⟨hmem, heffect⟩)
      · exact .stay rfl l w'
      · exact .quiet heffect fun heq => hwrites (heq ▸ hmem)
    refine Prog.follows_bind hother ?_
    rintro q a rfl release hrelease
    exact absurd hrelease (hf a _)
  cases call with
  | createProduct data =>
    exact hquiet _ (EffectsLemmas.createProduct_steps data env) (by simp) (by rintro _ _ ⟨⟩)
  | createComponent data =>
    exact hquiet _ (EffectsLemmas.createComponent_steps data env) (by simp) (by rintro _ _ ⟨⟩)
  | createVersion eventBus data =>
    exact hquiet _ (EffectsLemmas.createVersion_steps eventBus data env) (by simp)
      (by rintro _ _ ⟨⟩)
  | rollbackVersion eventBus data =>
    exact hquiet _ (EffectsLemmas.rollbackVersion_steps eventBus data env) (by simp)
      (by rintro _ _ ⟨⟩)
  | addDependency eventBus data =>
    exact hquiet _ (EffectsLemmas.addDependency_steps eventBus data env) (by simp)
      (by rintro _ _ ⟨⟩)
  | removeDependency eventBus data =>
    exact hquiet (fun _ => Response.removed) (EffectsLemmas.removeDependency_steps eventBus data)
      (by simp) (by rintro _ _ ⟨⟩)
  | cutRelease data => exact Prog.follows_bind (cut_follows data env) fun _ _ h => h

end CutSnapshotLemmas

/-! ## What holds in each phase -/

/-- The release is there, and its manifest has the rows of the components that are written. -/
structure Pin.Wrote (pin : Pin) (written : List ActiveComponent) (w : World) : Prop where
  keeps : pin.seen.Keeps w
  row : pin.row ∈ w.db.releases.rows
  rows : w.db.manifestRows pin.row.id = written.map pin.rowOf

/-- What a call relies on. -/
def PinPhase.Holds : PinPhase → World → Prop
  | .looking _, _ | .other, _ => True
  | .selected _ seen, w => seen.Keeps w
  | .writing pin written left, w => pin.Wrote written w ∧ written ++ left = pin.active
  | .loaded pin manifest, w => pin.Wrote pin.active w ∧ manifest = pin.active.map pin.entry
  | .answered pin release, w => pin.Wrote pin.active w ∧ release = pin.answer

namespace CutSnapshotLemmas

variable {w w' : World} {pin : Pin} {written : List ActiveComponent}

/-! ### A manifest, joined -/

/-- A pinned component is joined as it was when the cut read it. -/
theorem joinManifest_rowOf (hkeeps : pin.seen.Keeps w) {record : ActiveComponent}
    (hrecord : record ∈ pin.active) :
    w.db.joinManifest (pin.rowOf record) = [pin.entry record] := by
  obtain ⟨c, hc, -, v, hv, rfl⟩ := mem_activeComponents.mp hrecord
  obtain ⟨hv, -, -⟩ := mem_activeVersions.mp hv
  obtain ⟨v', hv', hfixed⟩ := List.mem_map.mp (hkeeps.versions.subset (List.mem_map_of_mem hv))
  have hid : v'.id = v.id := fixed_id hfixed
  have htuple : v'.tuple = v.tuple := fixed_tuple hfixed
  simp only [VersionRow.tuple, Prod.mk.injEq] at htuple
  have hcomponent : w.db.components.lookup c.id = [c] :=
    Table.lookup_eq_singleton (hkeeps.components.subset hc)
  have hversion : w.db.versions.lookup v.id = [v'] := hid ▸ Table.lookup_eq_singleton hv'
  simp only [joinManifest, Pin.rowOf, newManifestRow, activeComponent, hcomponent, hversion,
    List.flatMap_cons, List.flatMap_nil, List.map_cons, List.map_nil, List.append_nil,
    manifestEntry, htuple, Pin.entry]

theorem manifestEntries_of_wrote (h : pin.Wrote pin.active w) :
    w.db.manifestEntries [pin.row.id] = pin.active.map pin.entry := by
  have hrows : w.db.manifestEntries [pin.row.id] =
      (w.db.manifestRows pin.row.id).flatMap w.db.joinManifest := by
    simp only [manifestEntries, manifestRows, List.mem_singleton]
  rw [hrows, h.rows, List.flatMap_map, List.map_eq_flatMap]
  exact List.flatMap_congr fun record hrecord => joinManifest_rowOf h.keeps hrecord

/-- The primary key of the manifest tells the components apart. -/
theorem components_nodup (h : pin.Wrote written w) :
    (written.map ActiveComponent.componentId).Nodup := by
  have hkeys : ((w.db.manifestRows pin.row.id).map ReleaseComponentRow.key).Nodup :=
    w.db.releaseComponents.nodup_keys.sublist (List.filter_sublist.map _)
  rw [h.rows, List.map_map] at hkeys
  have hpairs : written.map (ReleaseComponentRow.key ∘ pin.rowOf) =
      (written.map ActiveComponent.componentId).map fun componentId =>
        (pin.row.id, componentId) := by
    rw [List.map_map]
    rfl
  rw [hpairs] at hkeys
  exact hkeys.of_map _

/-- The cut reads its manifest in the order in which it has read the components. -/
theorem releaseManifest_of_wrote (h : pin.Wrote pin.active w) :
    w.db.releaseManifest pin.row.id = pin.active.map pin.entry := by
  rw [releaseManifest, manifestEntries_of_wrote h]
  have hids : (pin.active.map pin.entry).map ManifestEntry.componentId =
      pin.active.map ActiveComponent.componentId := by
    rw [List.map_map]
    rfl
  refine eq_of_perm_of_sorted (orderBy_perm _ _) ?_ (orderBy_sorted _ _) ?_
  · intro a ha b hb hab
    refine List.inj_on_of_nodup_map ?_ (mem_orderBy.mp ha) (mem_orderBy.mp hb) hab
    exact hids ▸ components_nodup h
  · rw [← List.pairwise_map (R := fun a b : String => a ≤ b), hids]
    exact List.pairwise_map.mpr (orderBy_sorted ActiveComponent.componentId _)

/-- Whoever reads the release reads the view of its pin. -/
theorem readView_of_wrote (h : pin.Wrote pin.active w) : w.db.readView pin.row = pin.view := by
  rw [Store.readView, manifestOf, manifestEntries_of_wrote h]
  rfl

/-! ### Steps -/

variable {q q' r : PinPhase} {l : Sql}

theorem step_keeps (h : PinStep q l w q' w') : w.Keeps w' := by
  cases h with
  | quiet heffect _ => exact keeps_of_effect heffect
  | insertRelease _ _ hinsert => exact keeps_of_effect (.insertRelease hinsert)
  | insertRow _ _ hinsert => exact keeps_of_effect (.insertReleaseComponent hinsert)
  | stay _ _ _ => exact .refl w
  | replay _ _ _ => exact .refl w
  | select _ _ => exact .refl w
  | readManifest _ _ _ => exact .refl w
  | readRelease _ _ _ _ => exact .refl w

/-- A step writes a row of the manifest that the call owns, or it writes none. -/
theorem step_rows (h : PinStep q l w q' w') :
    (∃ pin record, q.owned = some pin ∧ w'.db.releaseComponents.rows =
      w.db.releaseComponents.rows ++ [pin.rowOf record]) ∨
      w'.db.releaseComponents = w.db.releaseComponents := by
  cases h with
  | quiet heffect hl => exact Or.inr (releaseComponents_of_effect heffect hl)
  | insertRelease _ _ hinsert => exact Or.inr (insertRelease_ok hinsert).releaseComponents
  | insertRow _ _ hinsert =>
    exact Or.inl ⟨_, _, rfl, (insertReleaseComponent_ok hinsert).rows⟩
  | stay _ _ _ => exact Or.inr rfl
  | replay _ _ _ => exact Or.inr rfl
  | select _ _ => exact Or.inr rfl
  | readManifest _ _ _ => exact Or.inr rfl
  | readRelease _ _ _ _ => exact Or.inr rfl

theorem manifestRows_of_eq {db db' : Store} (h : db'.releaseComponents = db.releaseComponents)
    (releaseId : String) : db'.manifestRows releaseId = db.manifestRows releaseId := by
  rw [manifestRows, h]
  rfl

theorem manifestRows_append {db db' : Store} {rc : ReleaseComponentRow}
    (h : db'.releaseComponents.rows = db.releaseComponents.rows ++ [rc]) (releaseId : String) :
    db'.manifestRows releaseId =
      db.manifestRows releaseId ++ if rc.releaseId = releaseId then [rc] else [] := by
  rw [manifestRows, h, List.filter_append, List.filter_singleton]
  by_cases hid : rc.releaseId = releaseId
  · simp [hid, manifestRows]
  · simp [hid, manifestRows]

/-- What another call has written stays as it is. -/
theorem wrote_step (h : PinStep q l w q' w') (hwrote : pin.Wrote written w)
    (hother : ∀ pin', q.owned = some pin' → pin'.row.id ≠ pin.row.id) : pin.Wrote written w' := by
  have hkeeps := step_keeps h
  refine ⟨hwrote.keeps.trans hkeeps, hkeeps.releases.subset hwrote.row, ?_⟩
  rw [← hwrote.rows]
  rcases step_rows h with ⟨pin', record, howned, hrows⟩ | hsame
  · rw [manifestRows_append hrows, Pin.rowOf_releaseId, if_neg (hother pin' howned),
      List.append_nil]
  · exact manifestRows_of_eq hsame _

theorem holds_other (h : PinStep q l w q' w') (hr : r.Holds w)
    (hother : ∀ pin pin', q.owned = some pin' → r.owned = some pin → pin'.row.id ≠ pin.row.id) :
    r.Holds w' := by
  have hwrote : ∀ {pin : Pin} {written : List ActiveComponent}, r.owned = some pin →
      pin.Wrote written w → pin.Wrote written w' :=
    fun howned hpin => wrote_step h hpin fun pin' hq => hother _ pin' hq howned
  cases r with
  | looking productId => trivial
  | other => trivial
  | selected productId seen => exact World.Keeps.trans hr (step_keeps h)
  | writing pin written left => exact ⟨hwrote rfl hr.1, hr.2⟩
  | loaded pin manifest => exact ⟨hwrote rfl hr.1, hr.2⟩
  | answered pin release => exact ⟨hwrote rfl hr.1, hr.2⟩

/-- A step enters its next phase with what holds there. -/
theorem step_enters (h : PinStep q l w q' w') (hq : q.Holds w) : q'.Holds w' := by
  have hkeeps := step_keeps h
  cases h with
  | quiet _ _ => trivial
  | replay _ _ _ => trivial
  | stay _ _ _ => exact hq
  | select _ _ => exact .refl w
  | @insertRelease _ row db seen changes hinsert =>
    have hi := insertRelease_ok hinsert
    refine ⟨⟨World.Keeps.trans hq hkeeps, ?_, ?_⟩, List.nil_append _⟩
    · show row ∈ db.releases.rows
      rw [hi.rows]
      exact List.mem_append_right _ List.mem_cons_self
    · show db.releaseComponents.rows.filter _ = _
      rw [hi.releaseComponents]
      refine List.filter_eq_nil_iff.mpr fun rc hrc hid => hi.fresh ?_
      exact of_decide_eq_true hid ▸ w.db.manifest_release rc hrc
  | @insertRow _ pin record db written left hinsert =>
    have hi := insertReleaseComponent_ok hinsert
    refine ⟨⟨hq.1.keeps.trans hkeeps, hkeeps.releases.subset hq.1.row, ?_⟩, ?_⟩
    · show db.manifestRows pin.row.id = _
      rw [manifestRows_append hi.rows, Pin.rowOf_releaseId, if_pos rfl, hq.1.rows,
        List.map_append]
      rfl
    · rw [← hq.2, List.append_assoc]
      rfl
  | readManifest _ pin written =>
    have hall : written = pin.active := by rw [← hq.2, List.append_nil]
    have hwrote : pin.Wrote pin.active w := hall ▸ hq.1
    exact ⟨hwrote, releaseManifest_of_wrote hwrote⟩
  | @readRelease _ row pin manifest hrow hid =>
    cases Table.eq_of_key_eq hrow hq.1.row hid
    refine ⟨hq.1, ?_⟩
    rw [hq.2]
    rfl

/-- A call keeps its product, until it writes no release any more. -/
theorem step_product (h : PinStep q l w q' w') : q'.product = q.product ∨ q'.product = none := by
  cases h with
  | replay _ _ _ => exact Or.inr rfl
  | quiet _ _ => exact Or.inl rfl
  | stay _ _ _ => exact Or.inl rfl
  | select _ _ => exact Or.inl rfl
  | insertRelease _ _ _ => exact Or.inl rfl
  | insertRow _ _ _ => exact Or.inl rfl
  | readManifest _ _ _ => exact Or.inl rfl
  | readRelease _ _ _ _ => exact Or.inl rfl

/-- A call keeps the release that it owns, or it owns none and takes one that is new. -/
theorem step_owned (h : PinStep q l w q' w') :
    q'.owned = q.owned ∨ ∃ pin, q'.owned = some pin ∧ pin.row.id ∉ w.db.releases.keys := by
  cases h with
  | insertRelease seen changes hinsert =>
    exact Or.inr ⟨_, rfl, (insertRelease_ok hinsert).fresh⟩
  | replay _ _ _ => exact Or.inl rfl
  | quiet _ _ => exact Or.inl rfl
  | stay _ _ _ => exact Or.inl rfl
  | select _ _ => exact Or.inl rfl
  | insertRow _ _ _ => exact Or.inl rfl
  | readManifest _ _ _ => exact Or.inl rfl
  | readRelease _ _ _ _ => exact Or.inl rfl

theorem owned_mem (hr : r.Holds w) (howned : r.owned = some pin) :
    pin.row.id ∈ w.db.releases.keys := by
  cases r with
  | looking productId => cases howned
  | other => cases howned
  | selected productId seen => cases howned
  | writing pin' written left =>
    cases howned
    exact Table.key_mem_keys hr.1.row
  | loaded pin' manifest =>
    cases howned
    exact Table.key_mem_keys hr.1.row
  | answered pin' release =>
    cases howned
    exact Table.key_mem_keys hr.1.row

theorem step_seen (h : PinStep q l w q' w') : q'.seen = q.seen ∨ q'.seen = some w := by
  cases h with
  | select _ _ => exact Or.inr rfl
  | replay _ _ _ => exact Or.inl rfl
  | quiet _ _ => exact Or.inl rfl
  | stay _ _ _ => exact Or.inl rfl
  | insertRelease _ _ _ => exact Or.inl rfl
  | insertRow _ _ _ => exact Or.inl rfl
  | readManifest _ _ _ => exact Or.inl rfl
  | readRelease _ _ _ _ => exact Or.inl rfl

end CutSnapshotLemmas

/-- Every call has what it relies on, works for the product of its request and has read at an
instant of the run, and no release has two owners. -/
structure PinInv (requests : List Request) (Visited : World → Prop) (w : World)
    (phases : List (Option PinPhase)) : Prop where
  holds : ∀ (j : Nat) (r : PinPhase), phases[j]? = some (some r) → r.Holds w
  product : ∀ (j : Nat) (r : PinPhase), phases[j]? = some (some r) →
    ∀ productId, r.product = some productId → cutOf requests j = some productId
  visited : ∀ (j : Nat) (r : PinPhase), phases[j]? = some (some r) →
    ∀ seen, r.seen = some seen → Visited seen
  owner : ∀ (j k : Nat) (r r' : PinPhase), phases[j]? = some (some r) →
    phases[k]? = some (some r') → ∀ pin pin', r.owned = some pin → r'.owned = some pin' →
      pin.row.id = pin'.row.id → j = k

namespace CutSnapshotLemmas

variable {w w' : World} {requests : List Request} {Visited : World → Prop}

theorem start_pinInv (w : World) (requests : List Request) (Visited : World → Prop) :
    ∃ phases, (Call.start w requests).InPhases PinStep (fun _ => True) PinEnd phases ∧
      PinInv requests Visited w phases := by
  obtain ⟨phases, hphases, hall⟩ :=
    Config.exists_inPhases_map w fun r (_ : r ∈ requests) => program_pins r
  have hstart : ∀ (j : Nat) r, phases[j]? = some (some r) → r.Holds w ∧ r.owned = none ∧
      r.seen = none ∧ ∀ productId, r.product = some productId →
        cutOf requests j = some productId := by
    intro j r hj
    obtain ⟨⟨call, env⟩, hrequest, rfl⟩ := hall j r hj
    cases call with
    | cutRelease data =>
      refine ⟨trivial, rfl, rfl, ?_⟩
      rintro _ ⟨⟩
      simp [cutOf, hrequest, Call.cuts]
    | _ => exact ⟨trivial, rfl, rfl, by rintro _ ⟨⟩⟩
  refine ⟨phases, hphases, fun j r hj => (hstart j r hj).1, fun j r hj => (hstart j r hj).2.2.2,
    fun j r hj seen hseen => ?_, fun j k r r' hj _ pin _ hpin => ?_⟩
  · rw [(hstart j r hj).2.2.1] at hseen
    cases hseen
  · rw [(hstart j r hj).2.1] at hpin
    cases hpin

theorem takes_pinInv {c : Servers Response} {phases : List (Option PinPhase)} {i : Nat} {l : Sql}
    {q q' : PinPhase}
    (htakes : Config.Takes PinStep (fun _ => True) PinEnd (fun c _ => Visited c.state) c phases i
      l q q' w')
    (hinv : PinInv requests Visited c.state phases) {phase : Option PinPhase}
    (hphase : phase = some q' ∨ phase = none) :
    PinInv requests Visited w' (phases.set i phase) := by
  have hq := hinv.holds i q htakes.phase
  refine ⟨?_, ?_, ?_, ?_⟩
  · intro j r hj
    rcases htakes.phase_of_set hphase hj with ⟨rfl, rfl⟩ | ⟨hne, hj⟩
    · exact step_enters htakes.step hq
    · refine holds_other htakes.step (hinv.holds j r hj) fun pin pin' hpin' hpin heq => hne ?_
      exact hinv.owner j i r q hj htakes.phase pin pin' hpin hpin' heq.symm
  · intro j r hj productId hr
    rcases htakes.phase_of_set hphase hj with ⟨rfl, rfl⟩ | ⟨hne, hj⟩
    · rcases step_product htakes.step with hsame | hnone
      · exact hinv.product j q htakes.phase productId (hsame ▸ hr)
      · rw [hnone] at hr
        cases hr
    · exact hinv.product j r hj productId hr
  · intro j r hj seen hr
    rcases htakes.phase_of_set hphase hj with ⟨rfl, rfl⟩ | ⟨hne, hj⟩
    · rcases step_seen htakes.step with hsame | hnow
      · exact hinv.visited j q htakes.phase seen (hsame ▸ hr)
      · rw [hnow] at hr
        cases hr
        exact htakes.allowed
    · exact hinv.visited j r hj seen hr
  · -- A release that call `i` takes over is new, so no other call owns it.
    have hother : ∀ (j : Nat) r, phases[j]? = some (some r) → j ≠ i → ∀ pin pin',
        q'.owned = some pin → r.owned = some pin' → pin.row.id ≠ pin'.row.id := by
      intro j r hj hne pin pin' hpin hpin' heq
      rcases step_owned htakes.step with hsame | ⟨pin₀, hnew, hfresh⟩
      · exact hne (hinv.owner i j q r htakes.phase hj pin pin' (hsame ▸ hpin) hpin' heq).symm
      · rw [hnew] at hpin
        cases hpin
        exact hfresh (heq ▸ owned_mem (hinv.holds j r hj) hpin')
    intro j k r r' hj hk pin pin' hpin hpin' heq
    rcases htakes.phase_of_set hphase hj with ⟨rfl, rfl⟩ | ⟨hnej, hj'⟩
    · rcases htakes.phase_of_set hphase hk with ⟨rfl, rfl⟩ | ⟨hnek, hk'⟩
      · rfl
      · exact absurd heq (hother k r' hk' hnek pin pin' hpin hpin')
    · rcases htakes.phase_of_set hphase hk with ⟨rfl, rfl⟩ | ⟨hnek, hk'⟩
      · exact absurd heq.symm (hother j r hj' hnej pin' pin hpin' hpin)
      · exact hinv.owner j k r r' hj' hk' pin pin' hpin hpin' heq

/-- A call that has its answer takes no step. -/
theorem isAnswered_of_step {q q' : PinPhase} {l : Sql} (h : PinStep q l w q' w') :
    q.isAnswered = false := by
  cases h with
  | stay hq _ _ => exact hq
  | replay _ _ _ => rfl
  | quiet _ _ => rfl
  | select _ _ => rfl
  | insertRelease _ _ _ => rfl
  | insertRow _ _ _ => rfl
  | readManifest _ _ _ => rfl
  | readRelease _ _ _ _ => rfl

/-- Whatever follows, an answered call keeps its release. -/
theorem exec_answered {c : Servers Response} {phases : List (Option PinPhase)} {i : Nat}
    {pin : Pin} {release : ReleaseResponseModel}
    (hc : c.InPhases PinStep (fun _ => True) PinEnd phases)
    (hinv : PinInv requests Visited c.state phases)
    (hi : phases[i]? = some (some (.answered pin release))) (after : List Nat) :
    pin.Wrote pin.active (c.exec after).state := by
  have hall : PinInv requests (fun _ => True) c.state phases :=
    ⟨hinv.holds, hinv.product, fun _ _ _ _ _ => trivial, hinv.owner⟩
  have hexec : ∃ phases', (c.exec after).InPhases PinStep (fun _ => True) PinEnd phases' ∧
      PinInv requests (fun _ => True) (c.exec after).state phases' ∧
        phases'[i]? = some (some (.answered pin release)) := by
    refine Config.exec_invariant (J := fun w phases => PinInv requests (fun _ => True) w phases ∧
      phases[i]? = some (some (.answered pin release))) (fun _ _ _ => trivial) ?_ after hc
      ⟨hall, hi⟩ (Config.along_of_forall (fun _ _ => trivial) after c)
    rintro c phases k l q q' w' htakes ⟨hinv, hi⟩ phase hphase
    refine ⟨takes_pinInv htakes hinv hphase, ?_⟩
    rcases eq_or_ne k i with rfl | hne
    · cases hi.symm.trans htakes.phase
      cases isAnswered_of_step htakes.step
    · rw [List.getElem?_set_ne hne]
      exact hi
  obtain ⟨phases', -, hinv', hi'⟩ := hexec
  exact (hinv'.holds i _ hi').1

end CutSnapshotLemmas

open CutSnapshotLemmas

/-- What a manifest pins. -/
def ReleaseComponentResponseModel.pin (m : ReleaseComponentResponseModel) :
    String × String × String × Option String :=
  (m.componentId, m.name, m.versionId, m.changeLevel)

/-- Whatever is interleaved with a fresh cut, its answer shows the components that were active at
one instant of the run, each once. From then on every read of the release answers alike, with the
columns and the pins that the cut answered with. -/
theorem cut_is_snapshot (w : World) (requests : List Request) (schedule : List Nat) (i : Nat)
    (data : CutReleaseRequest) (env : Env) (release : ReleaseResponseModel)
    (hcall : requests[i]? = some (.cutRelease data, env))
    (houtcome : ((Call.start w requests).exec schedule).outcome i =
      some (.ok (.release ⟨release, true⟩))) :
    (∃ past, past <+: schedule ∧
      let active := ((Call.start w requests).exec past).state.db.activeComponents data.productId
      (active.map ActiveComponent.componentId).Nodup ∧
        release.components.map (fun m => (m.componentId, m.name, m.versionId, m.version)) =
          active.map fun r => (r.componentId, r.name, r.versionId,
            formatVersion r.major r.minor r.patch r.prerelease)) ∧
    ∃ model : ReleaseResponseModel, { model with components := release.components } = release ∧
      (model.components.map ReleaseComponentResponseModel.pin).Perm
        (release.components.map ReleaseComponentResponseModel.pin) ∧
      ∀ after, (getReleaseById release.id).run
          ((Call.start w requests).exec (schedule ++ after)).state =
        (.ok model, ((Call.start w requests).exec (schedule ++ after)).state) := by
  have hvisits := Config.along_visits (Call.start w requests) schedule
  obtain ⟨phases₀, hphases₀, hinv₀⟩ := start_pinInv w requests
    ((Call.start w requests).Visits schedule)
  obtain ⟨phases, hphases, hinv⟩ := Config.exec_invariant (fun _ _ _ => trivial)
    (fun _ _ _ _ _ _ _ htakes hinv _ => takes_pinInv htakes hinv) schedule hphases₀ hinv₀ hvisits
  obtain ⟨q, hq, hend⟩ := hphases.outcome houtcome
  obtain ⟨pin, rfl⟩ := hend release rfl
  obtain ⟨hwrote, hrelease⟩ := hinv.holds i _ hq
  have hproduct : pin.row.productId = data.productId := by
    have hcut := hinv.product i _ hq pin.row.productId rfl
    simpa [cutOf, hcall, Call.cuts] using hcut.symm
  obtain ⟨past, hpast, hseen⟩ := hinv.visited i _ hq pin.seen rfl
  refine ⟨⟨past, hpast, ?_⟩, pin.view, ?_, ?_, fun after => ?_⟩
  · rw [hseen, ← hproduct]
    refine ⟨components_nodup hwrote, ?_⟩
    rw [hrelease]
    simp only [Pin.answer, toReleaseResponse, List.map_map]
    rfl
  · rw [hrelease]
    rfl
  · rw [hrelease]
    have hpins : ∀ e, (toManifestComponent e).pin = (toReleaseComponent e).pin := fun _ => rfl
    simp only [Pin.answer, Pin.view, toReleaseResponse, List.map_map, Function.comp_def, hpins]
    have hperm := (orderBy_perm (fun e : ManifestEntry => toLex (e.name, e.componentId))
      (pin.active.map pin.entry)).map fun e => (toReleaseComponent e).pin
    rwa [List.map_map] at hperm
  · have hlater := exec_answered hphases hinv hq after
    rw [← Config.exec_append] at hlater
    have hid : release.id = pin.row.id := by rw [hrelease]; rfl
    rw [hid, run_getReleaseById hlater.row, readView_of_wrote hlater]

/-- The release that a fresh cut has answered with. -/
def freshOf : Option (Except ApiError Response) → Option ReleaseResponseModel
  | some (.ok (.release ⟨release, true⟩)) => some release
  | _ => none

theorem eq_of_freshOf {o : Option (Except ApiError Response)} {release : ReleaseResponseModel}
    (h : freshOf o = some release) : o = some (.ok (.release ⟨release, true⟩)) := by
  unfold freshOf at h
  split at h
  · cases h
    rfl
  · cases h

namespace Sample

/-- A cut, and a new version of the component that it pins. -/
def cutRace : List Request :=
  [(.cutRelease (release none), env 30), (.createVersion true api12, env 31)]

/-- The version is created when the cut has read the active components and nothing else. -/
def cutRaceSchedule : List Nat := [0, 0, 1, 1, 1, 1, 1, 0, 0, 0, 0, 0, 0]

end Sample

/-- The cut pins 1.1.0, though 1.2.0 is active when it writes its manifest. -/
theorem cut_is_snapshot_race :
    ∃ release model : ReleaseResponseModel,
      release.components.map (fun m => m.version) = ["1.1.0"] ∧
      ∀ after, ((getReleaseById release.id).run ((Call.start Sample.versioned Sample.cutRace).exec
        (Sample.cutRaceSchedule ++ after)).state).1 = .ok model := by
  have hversions : ((freshOf (((Call.start Sample.versioned Sample.cutRace).exec
      Sample.cutRaceSchedule).outcome 0)).map fun release =>
        release.components.map fun m => m.version) = some ["1.1.0"] := by decide +kernel
  obtain ⟨release, hrelease, hcomponents⟩ := Option.map_eq_some_iff.mp hversions
  obtain ⟨-, model, -, -, hafter⟩ := cut_is_snapshot Sample.versioned Sample.cutRace
    Sample.cutRaceSchedule 0 (Sample.release none) (Sample.env 30) release rfl
    (eq_of_freshOf hrelease)
  exact ⟨release, model, hcomponents, fun after => by rw [hafter after]⟩

end LavsCore

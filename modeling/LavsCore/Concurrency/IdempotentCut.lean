import LavsCore.Concurrency.Servers
import LavsCore.Runs

/-!
# One request for a cut, sent several times

Several servers work on one database, and each has received a cut with the same
`Idempotency-Key`. A cut first looks the key up and inserts its release some statements
later, and no constraint of the schema is about the key: two cuts that both find nothing
create two releases (`two_releases_for_one_key`).

`idempotent_cut_interleaved`: if every release is inserted while no other cut is between
its empty lookup and its insertion, there is one release, and all cuts that succeed
answer with it. They answer with the same manifest if none is read while another cut is
still inserting manifest rows.
-/

namespace LavsCore

open Query

/-- The releases of a product with a key. -/
def Store.keyed (db : Store) (productId key : String) : List ReleaseRow :=
  db.releases.rows.filter fun r => r.productId = productId && r.idempotencyKey = some key

/-- A cut that carries the key: what else it says and what surrounds it. -/
structure KeyedCut where
  label : Option String
  notes : Option String
  env : Env

def KeyedCut.request (productId key : String) (cut : KeyedCut) : CutReleaseRequest where
  productId := productId
  label := cut.label
  notes := cut.notes
  idempotencyKey := some key

/-- The cuts have just arrived, each at a server of its own. -/
def KeyedCut.start (w : World) (productId key : String) (cuts : List KeyedCut) :
    Servers CutReleaseResult :=
  ⟨w, cuts.map fun cut => cutRelease (cut.request productId key) cut.env⟩

/-- The statements of a cut between the lookup of its key and the manifest. -/
def Sql.derives : Sql → Bool
  | .selectActiveComponents | .selectLatestRelease | .selectPriorManifest | .selectEdges
  | .insertRelease => true
  | _ => false

/-- Cut `i` has found no release with its key and has not inserted its own. -/
def Undecided (c : Servers CutReleaseResult) (i : Nat) : Prop :=
  ∃ l ∈ c.label i, l.derives = true

instance (c : Servers CutReleaseResult) (i : Nat) : Decidable (Undecided c i) :=
  inferInstanceAs (Decidable (∃ l ∈ c.label i, l.derives = true))

/-- Cut `i` inserts its release only if no other cut is undecided. -/
def InsertsAlone (c : Servers CutReleaseResult) (i : Nat) : Prop :=
  c.label i = some .insertRelease → ∀ j < c.procs.length, j ≠ i → ¬ Undecided c j

instance (c : Servers CutReleaseResult) (i : Nat) : Decidable (InsertsAlone c i) :=
  inferInstanceAs (Decidable (_ → _))

/-- Cut `i` reads a manifest only if no other cut is about to insert a row of one. -/
def ReadsComplete (c : Servers CutReleaseResult) (i : Nat) : Prop :=
  c.label i = some .selectReleaseManifest →
    ∀ j < c.procs.length, j ≠ i → c.label j ≠ some .insertReleaseComponent

instance (c : Servers CutReleaseResult) (i : Nat) : Decidable (ReadsComplete c i) :=
  inferInstanceAs (Decidable (_ → _))

/-! ## The protocol of a cut -/

/-- Where a cut stands: it has not looked the key up, has found nothing, has a release
with so many manifest rows to insert, has read the manifest of it, or has its answer. -/
inductive CutPhase where
  | looking
  | undecided
  | writing (releaseId : String) (left : Nat)
  | loaded (releaseId : String) (manifest : List ManifestEntry)
  | answered (release : ReleaseResponseModel)

section Protocol

variable (productId key : String)

/-- The steps of a cut with the key, with what they do to the store. -/
inductive CutStep : CutPhase → Sql → World → CutPhase → World → Prop
  | selectProduct {w : World} : CutStep .looking .selectProduct w .looking w
  | foundNothing {w : World} (h : w.db.keyed productId key = []) :
      CutStep .looking .selectReleaseByIdempotency w .undecided w
  | found {w : World} {row : ReleaseRow} (h : row ∈ w.db.keyed productId key) :
      CutStep .looking .selectReleaseByIdempotency w (.writing row.id 0) w
  | derive {l : Sql} {w : World} (hl : l.derives = true) (hinsert : l ≠ .insertRelease) :
      CutStep .undecided l w .undecided w
  | insertRelease {w : World} {row : ReleaseRow} {db : Store} (n : Nat)
      (hproduct : row.productId = productId) (hkey : row.idempotencyKey = some key)
      (hinsert : w.db.insertRelease row = .ok db) :
      CutStep .undecided .insertRelease w (.writing row.id n) { w with db := db }
  | refusedRelease {w : World} : CutStep .undecided .insertRelease w .undecided w
  | insertRow {w : World} {row : ReleaseComponentRow} {db : Store} (id : String) (n : Nat)
      (hinsert : w.db.insertReleaseComponent row = .ok db) :
      CutStep (.writing id (n + 1)) .insertReleaseComponent w (.writing id n) { w with db := db }
  | refusedRow {w : World} (id : String) (n : Nat) :
      CutStep (.writing id (n + 1)) .insertReleaseComponent w (.writing id (n + 1)) w
  | readManifest {w : World} (id : String) :
      CutStep (.writing id 0) .selectReleaseManifest w (.loaded id (w.db.releaseManifest id)) w
  | readRelease {w : World} {row : ReleaseRow} (manifest : List ManifestEntry)
      (h : row ∈ w.db.releases.rows) :
      CutStep (.loaded row.id manifest) .selectRelease w
        (.answered (toReleaseResponse row (manifest.map toReleaseComponent))) w
  | missingRelease {w : World} (id : String) (manifest : List ManifestEntry) :
      CutStep (.loaded id manifest) .selectRelease w (.loaded id manifest) w

/-- A cut that succeeds has its answer from the load. -/
def CutEnd (q : CutPhase) (result : CutReleaseResult) : Prop := q = .answered result.release

end Protocol

namespace IdempotentCutLemmas

variable {productId key : String}

theorem releaseByIdempotency_eq_none {db : Store} {choice : Nat}
    (h : db.releaseByIdempotency productId key choice = none) : db.keyed productId key = [] := by
  have hle : (db.keyed productId key).length ≤ choice % (db.keyed productId key).length :=
    List.getElem?_eq_none_iff.mp h
  rcases Nat.eq_zero_or_pos (db.keyed productId key).length with hzero | hpos
  · exact List.eq_nil_of_length_eq_zero hzero
  · exact absurd (Nat.mod_lt choice hpos) (Nat.not_lt_of_le hle)

/-- The load of a release whose manifest is written. -/
theorem loadRelease_follows (id : String) (created : Bool) :
    (do
      let release ← loadRelease id
      return ⟨release, created⟩ : Query CutReleaseResult).Follows (CutStep productId key)
      (fun _ => True) CutEnd (.writing id 0) := by
  unfold loadRelease
  refine Prog.follows_bind (M := fun q release => q = .answered release) ?_ ?_
  · refine Prog.follows_bind (M := fun q manifest => q = .loaded id manifest)
      (follows_select fun w _ => ⟨_, .readManifest id, rfl⟩) ?_
    rintro q manifest rfl
    refine Prog.follows_bind (M := fun q rows => (rows = [] ∧ q = .loaded id manifest) ∨
      ∃ row rest, rows = row :: rest ∧
        q = .answered (toReleaseResponse row (manifest.map toReleaseComponent)))
      (follows_select ?_) ?_
    · intro w _
      cases hlookup : w.db.releases.lookup id with
      | nil => exact ⟨_, .missingRelease id manifest, Or.inl ⟨rfl, rfl⟩⟩
      | cons row rest =>
        obtain ⟨hrow, rfl⟩ :=
          Table.mem_lookup.mp (hlookup ▸ List.mem_cons_self : row ∈ w.db.releases.lookup id)
        exact ⟨_, .readRelease manifest hrow, Or.inr ⟨row, rest, rfl, rfl⟩⟩
    · rintro q rows (⟨rfl, rfl⟩ | ⟨row, rest, rfl, rfl⟩)
      · exact Prog.follows_raise _ _
      · rfl
  · rintro q release rfl
    rfl

/-- The loop over the manifest counts down the rows that are left. -/
theorem manifest_follows (releaseId : String) (changes : Dict String String)
    (active : List ActiveComponent) :
    (forM active fun record => insert .insertReleaseComponent fun db =>
      db.insertReleaseComponent (newManifestRow releaseId changes record)).Follows
      (CutStep productId key) (fun _ => True) (fun q _ => q = .writing releaseId 0)
      (.writing releaseId active.length) := by
  induction active with
  | nil => rfl
  | cons record rest ih =>
    refine Prog.follows_bind (M := fun q _ => q = .writing releaseId rest.length)
      (follows_insert ?_ ?_) ?_
    · intro w db _ hinsert
      exact ⟨_, .insertRow releaseId rest.length hinsert, rfl⟩
    · exact fun w _ => ⟨_, .refusedRow releaseId rest.length⟩
    · rintro q _ rfl
      exact ih

/-- The reads of the derivation leave the cut undecided. -/
theorem stays_undecided {α : Type} {l : Sql} (hl : l.derives = true) (hinsert : l ≠ .insertRelease)
    (f : Store → α) :
    (select l f).Stays (CutStep productId key) (fun _ => True) .undecided :=
  stays_select fun _ _ => .derive hl hinsert

theorem stays_derive (bumpPolicy : String) (active : List ActiveComponent)
    (latestReleaseId : Option String) :
    (derive productId bumpPolicy active latestReleaseId).Stays (CutStep productId key)
      (fun _ => True) .undecided := by
  unfold derive
  split
  · exact Prog.stays_pure _
  · have hprior : (priorManifest latestReleaseId).Stays (CutStep productId key) (fun _ => True)
        .undecided := by
      cases latestReleaseId with
      | none => exact Prog.stays_pure _
      | some releaseId => exact stays_undecided rfl (by decide) fun db => db.priorManifest releaseId
    refine hprior.bind fun prior => ?_
    exact (stays_undecided rfl (by decide) _).bind fun edges => rfl

/-- The lookup of the key. -/
theorem findReplay_follows (cut : KeyedCut) :
    (findReplay (cut.request productId key) cut.env).Follows (CutStep productId key)
      (fun _ => True) (fun q existing => (existing = none ∧ q = .undecided) ∨
        ∃ row : ReleaseRow, existing = some row ∧ q = .writing row.id 0) .looking := by
  have hselect : findReplay (cut.request productId key) cut.env =
      select .selectReleaseByIdempotency fun db =>
        db.releaseByIdempotency productId key cut.env.choice := rfl
  rw [hselect]
  refine follows_select ?_
  intro w _
  cases hfound : w.db.releaseByIdempotency productId key cut.env.choice with
  | none => exact ⟨_, .foundNothing (releaseByIdempotency_eq_none hfound), Or.inl ⟨rfl, rfl⟩⟩
  | some row => exact ⟨_, .found (List.mem_of_getElem? hfound), Or.inr ⟨row, rfl, rfl⟩⟩

theorem cutRelease_follows (cut : KeyedCut) :
    (cutRelease (cut.request productId key) cut.env).Follows (CutStep productId key)
      (fun _ => True) CutEnd .looking := by
  unfold cutRelease
  refine Prog.Stays.bind (stays_select fun w _ => .selectProduct) ?_
  rintro (_ | ⟨product, rest⟩)
  · exact Prog.follows_raise _ _
  dsimp only
  refine Prog.follows_bind (findReplay_follows cut) ?_
  rintro q existing (⟨rfl, rfl⟩ | ⟨row, rfl, rfl⟩)
  · refine (stays_undecided rfl (by decide) _).bind fun active => ?_
    refine (stays_refuseIf _ _).bind fun _ => ?_
    refine (stays_undecided rfl (by decide) _).bind fun latest => ?_
    refine (stays_derive _ _ _).bind fun derived => ?_
    refine Prog.follows_lift fun version _ => ?_
    refine Prog.follows_bind (M := fun q _ => q = .writing cut.env.ulid active.length)
      (follows_insert ?_ ?_) ?_
    · intro w db _ hinsert
      exact ⟨_, @CutStep.insertRelease productId key w _ db active.length rfl rfl hinsert, rfl⟩
    · exact fun w _ => ⟨_, .refusedRelease⟩
    · rintro q _ rfl
      refine Prog.follows_bind (manifest_follows _ _ active) ?_
      rintro q _ rfl
      exact loadRelease_follows cut.env.ulid true
  · exact loadRelease_follows row.id false

/-- The cuts start by looking their key up. -/
theorem start_inPhases (w : World) (productId key : String) (cuts : List KeyedCut) :
    ∃ phases, (KeyedCut.start w productId key cuts).InPhases (CutStep productId key)
        (fun _ => True) CutEnd phases ∧ ∀ q, some q ∈ phases → q = .looking := by
  refine Config.exists_inPhases ?_
  intro p hp
  obtain ⟨cut, _, rfl⟩ := List.mem_map.mp hp
  exact cutRelease_follows cut

end IdempotentCutLemmas

/-! ## What holds in each phase -/

/-- What a cut relies on: as long as it is undecided there is no release with the key,
and later the one it works on has the key. -/
def CutPhase.Holds (productId key : String) : CutPhase → World → Prop
  | .looking, _ => True
  | .undecided, w => w.db.keyed productId key = []
  | .writing id _, w => ∃ row ∈ w.db.keyed productId key, row.id = id
  | .loaded id _, w => ∃ row ∈ w.db.keyed productId key, row.id = id
  | .answered release, w => ∃ row ∈ w.db.keyed productId key, row.id = release.id

/-- There is at most one release with the key. -/
def CutsOnce (productId key : String) (w : World) : Prop :=
  (w.db.keyed productId key).length ≤ 1

namespace IdempotentCutLemmas

variable {productId key : String} {w w' : World} {q q' r : CutPhase} {l : Sql}

/-- A step adds a release with the key or leaves the releases alone. -/
theorem step_releases (h : CutStep productId key q l w q' w') :
    (q = .undecided ∧ l = .insertRelease ∧ ∃ row,
      w'.db.keyed productId key = w.db.keyed productId key ++ [row]) ∨
        w'.db.releases = w.db.releases := by
  cases h with
  | @insertRelease _ row db n hproduct hkey hinsert =>
    refine Or.inl ⟨rfl, rfl, row, ?_⟩
    show db.keyed productId key = _
    rw [Store.keyed, (Store.insertRelease_ok hinsert).rows, List.filter_append]
    simp [Store.keyed, hproduct, hkey]
  | insertRow _ _ hinsert => exact Or.inr (Store.insertReleaseComponent_ok hinsert).releases
  | selectProduct => exact Or.inr rfl
  | foundNothing _ => exact Or.inr rfl
  | found _ => exact Or.inr rfl
  | derive _ _ => exact Or.inr rfl
  | refusedRelease => exact Or.inr rfl
  | refusedRow _ _ => exact Or.inr rfl
  | readManifest _ => exact Or.inr rfl
  | readRelease _ _ => exact Or.inr rfl
  | missingRelease _ _ => exact Or.inr rfl

theorem keyed_of_eq (h : w'.db.releases = w.db.releases) :
    w'.db.keyed productId key = w.db.keyed productId key := by
  rw [Store.keyed, h]
  rfl

/-- A release with the key keeps it. -/
theorem keyed_subset (h : CutStep productId key q l w q' w') :
    w.db.keyed productId key ⊆ w'.db.keyed productId key := by
  rcases step_releases h with ⟨_, _, row, hrows⟩ | hsame
  · rw [hrows]
    exact List.subset_append_left _ _
  · rw [keyed_of_eq hsame]
    exact List.Subset.refl _

/-- A release is inserted only where there is none. -/
theorem step_once (h : CutStep productId key q l w q' w') (hinv : CutsOnce productId key w)
    (hq : q.Holds productId key w) : CutsOnce productId key w' := by
  unfold CutsOnce
  rcases step_releases h with ⟨rfl, _, row, hrows⟩ | hsame
  · have hnone : w.db.keyed productId key = [] := hq
    rw [hrows, hnone]
    exact Nat.le_refl 1
  · rw [keyed_of_eq hsame]
    exact hinv

/-- What holds in every phase but `undecided` is not lost. -/
theorem holds_mono (hsub : w.db.keyed productId key ⊆ w'.db.keyed productId key)
    (hr : r.Holds productId key w) (hne : r ≠ .undecided) : r.Holds productId key w' := by
  have hkept : ∀ {id : String}, (∃ row ∈ w.db.keyed productId key, row.id = id) →
      ∃ row ∈ w'.db.keyed productId key, row.id = id := by
    rintro id ⟨row, hrow, hid⟩
    exact ⟨row, hsub hrow, hid⟩
  cases r with
  | looking => trivial
  | undecided => exact absurd rfl hne
  | writing id left => exact hkept hr
  | loaded id manifest => exact hkept hr
  | answered release => exact hkept hr

/-- A step enters its next phase with what holds there. -/
theorem step_holds (h : CutStep productId key q l w q' w') (hq : q.Holds productId key w) :
    q'.Holds productId key w' := by
  have hsub := keyed_subset h
  cases h with
  | selectProduct => trivial
  | foundNothing hnone => exact hnone
  | found hrow => exact ⟨_, hrow, rfl⟩
  | derive _ _ => exact hq
  | @insertRelease _ row db n hproduct hkey hinsert =>
    refine ⟨row, ?_, rfl⟩
    show row ∈ Store.keyed db productId key
    simp [Store.keyed, (Store.insertRelease_ok hinsert).rows, hproduct, hkey]
  | refusedRelease => exact hq
  | insertRow id n _ => exact holds_mono (r := .writing id n) hsub hq (fun h => nomatch h)
  | refusedRow _ _ => exact hq
  | readManifest _ => exact hq
  | readRelease _ _ => exact hq
  | missingRelease _ _ => exact hq

section Running

variable {c : Servers CutReleaseResult} {phases : List (Option CutPhase)} {j : Nat}

theorem undecided_of_phase
    (hc : c.InPhases (CutStep productId key) (fun _ => True) CutEnd phases)
    (hj : phases[j]? = some (some .undecided)) : j < c.procs.length ∧ Undecided c j := by
  obtain ⟨hlt, l, q', w', hlabel, hstep⟩ := hc.label_of_phase trivial hj (fun _ h => nomatch h)
  refine ⟨hlt, l, hlabel, ?_⟩
  cases hstep with
  | derive hl _ => exact hl
  | insertRelease _ _ _ _ => rfl
  | refusedRelease => rfl

theorem label_of_writing {id : String} {n : Nat}
    (hc : c.InPhases (CutStep productId key) (fun _ => True) CutEnd phases)
    (hj : phases[j]? = some (some (.writing id (n + 1)))) :
    j < c.procs.length ∧ c.label j = some .insertReleaseComponent := by
  obtain ⟨hlt, l, q', w', hlabel, hstep⟩ := hc.label_of_phase trivial hj (fun _ h => nomatch h)
  refine ⟨hlt, hlabel.trans ?_⟩
  cases hstep with
  | insertRow _ _ _ => rfl
  | refusedRow _ _ => rfl

/-- A step of a cut that inserts alone. -/
abbrev CutTakes (productId key : String) :=
  Config.Takes (CutStep productId key) (fun _ => True) CutEnd InsertsAlone

variable {i : Nat}

/-- What another cut relies on survives the step. -/
theorem holds_stable (h : CutTakes productId key c phases i l q q' w') (hne : j ≠ i)
    (hj : phases[j]? = some (some r)) (hr : r.Holds productId key c.state) :
    r.Holds productId key w' := by
  by_cases hundecided : r = .undecided
  · subst hundecided
    rcases step_releases h.step with ⟨_, rfl, _⟩ | hsame
    · -- Two undecided cuts, and one of them inserts.
      obtain ⟨hlt, hj'⟩ := undecided_of_phase h.inPhases hj
      exact absurd hj' (h.allowed h.label j hlt hne)
    · exact (keyed_of_eq hsame).trans hr
  · exact holds_mono (keyed_subset h.step) hr hundecided

/-- A step keeps what all cuts rely on. -/
theorem asserts_step (h : CutTakes productId key c phases i l q q' w')
    (hall : Config.Asserts (CutsOnce productId key) (CutPhase.Holds productId key) c.state phases)
    {phase : Option CutPhase} (hphase : phase = some q' ∨ phase = none) :
    Config.Asserts (CutsOnce productId key) (CutPhase.Holds productId key) w'
      (phases.set i phase) := by
  have hq : q.Holds productId key c.state := hall.2 q (List.mem_of_getElem? h.phase)
  exact h.asserts hall (step_once h.step hall.1 hq) (step_holds h.step hq)
    (fun j hne r hj hr => holds_stable h hne hj hr) hphase

end Running

end IdempotentCutLemmas

/-! ## What has been read -/

/-- The cut has read the manifest of its release. -/
def CutPhase.hasRead : CutPhase → Bool
  | .loaded _ _ | .answered _ => true
  | _ => false

/-- The cut has manifest rows to insert. -/
def CutPhase.isWriting : CutPhase → Bool
  | .writing _ (_ + 1) => true
  | _ => false

/-- What a cut has read is what the store shows. -/
def CutPhase.Shows (productId key : String) : CutPhase → World → Prop
  | .loaded id manifest, w => manifest = w.db.releaseManifest id
  | .answered release, w => ∃ row ∈ w.db.keyed productId key, release = w.db.cutView row
  | _, _ => True

/-- No other cut has manifest rows to insert. -/
def NoneWriting (phases : List (Option CutPhase)) (i : Nat) : Prop :=
  ∀ j ≠ i, ∀ r, phases[j]? = some (some r) → r.isWriting = false

/-- As soon as one cut has read its manifest, it shows the store, and no other cut is
still writing. -/
def Settled (productId key : String) (w : World) (phases : List (Option CutPhase)) : Prop :=
  ∀ i q, phases[i]? = some (some q) → q.hasRead = true →
    q.Shows productId key w ∧ NoneWriting phases i

namespace IdempotentCutLemmas

variable {productId key : String} {w w' : World} {q q' r : CutPhase} {l : Sql}
  {c : Servers CutReleaseResult} {phases : List (Option CutPhase)} {i : Nat}

/-- What has been read has the key. -/
theorem keyed_ne_nil (hr : r.Holds productId key w) (hread : r.hasRead = true) :
    w.db.keyed productId key ≠ [] := by
  have hne : ∀ {id : String}, (∃ row ∈ w.db.keyed productId key, row.id = id) →
      w.db.keyed productId key ≠ [] := by
    rintro id ⟨row, hrow, _⟩
    exact List.ne_nil_of_mem hrow
  cases r with
  | looking => cases hread
  | undecided => cases hread
  | writing _ _ => cases hread
  | loaded _ _ => exact hne hr
  | answered _ => exact hne hr

/-- A step after which the cut has read its manifest. -/
theorem step_shows (h : CutStep productId key q l w q' w') (hq : q.Holds productId key w)
    (hshows : q.hasRead = true → q.Shows productId key w) (hread : q'.hasRead = true) :
    q'.Shows productId key w' ∧ (q.hasRead = true ∨ l = .selectReleaseManifest) := by
  cases h with
  | selectProduct => cases hread
  | foundNothing _ => cases hread
  | found _ => cases hread
  | derive _ _ => cases hread
  | insertRelease _ _ _ _ => cases hread
  | refusedRelease => cases hread
  | insertRow _ _ _ => cases hread
  | refusedRow _ _ => cases hread
  | readManifest id => exact ⟨rfl, Or.inr rfl⟩
  | @readRelease _ row manifest hrow =>
    obtain ⟨row', hrow', hid⟩ := hq
    have hsame : row' = row := Table.eq_of_key_eq (List.mem_of_mem_filter hrow') hrow hid
    have hmanifest : manifest = w.db.releaseManifest row.id := hshows rfl
    exact ⟨⟨row, hsame ▸ hrow', by rw [hmanifest]; rfl⟩, Or.inl rfl⟩
  | missingRelease id manifest => exact ⟨hshows rfl, Or.inl rfl⟩

/-- Next to a cut that has read its manifest, a step of a cut that is not writing changes
nothing and starts no writing. -/
theorem step_beside_reader (h : CutStep productId key q l w q' w') (hq : q.Holds productId key w)
    (hwriting : q.isWriting = false) (hkeyed : w.db.keyed productId key ≠ []) :
    w' = w ∧ q'.isWriting = false := by
  cases h with
  | selectProduct => exact ⟨rfl, rfl⟩
  | foundNothing _ => exact ⟨rfl, rfl⟩
  | found _ => exact ⟨rfl, rfl⟩
  | derive _ _ => exact ⟨rfl, rfl⟩
  | insertRelease _ _ _ _ => exact absurd hq hkeyed
  | refusedRelease => exact ⟨rfl, rfl⟩
  | insertRow _ _ _ => cases hwriting
  | refusedRow _ _ => cases hwriting
  | readManifest _ => exact ⟨rfl, rfl⟩
  | readRelease _ _ => exact ⟨rfl, rfl⟩
  | missingRelease _ _ => exact ⟨rfl, rfl⟩

/-- A manifest is read while no other cut is writing. -/
theorem noneWriting_of_read (h : CutTakes productId key c phases i l q q' w')
    (hread : ReadsComplete c i) (hl : l = .selectReleaseManifest) : NoneWriting phases i := by
  subst hl
  intro j hne r hj
  match r, hj with
  | .looking, _ => rfl
  | .undecided, _ => rfl
  | .writing _ 0, _ => rfl
  | .writing id (n + 1), hj =>
    obtain ⟨hlt, hlabel⟩ := label_of_writing h.inPhases hj
    exact absurd hlabel (hread h.label j hlt hne)
  | .loaded _ _, _ => rfl
  | .answered _, _ => rfl

/-- The phases of the other cuts are as before. -/
theorem noneWriting_set_self (h : NoneWriting phases i) (phase : Option CutPhase) :
    NoneWriting (phases.set i phase) i := by
  intro j hne r hj
  rw [List.getElem?_set_ne (Ne.symm hne)] at hj
  exact h j hne r hj

theorem settled_step (h : CutTakes productId key c phases i l q q' w') (hread : ReadsComplete c i)
    (hall : Config.Asserts (CutsOnce productId key) (CutPhase.Holds productId key) c.state phases)
    (hsettled : Settled productId key c.state phases) {phase : Option CutPhase}
    (hphase : phase = some q' ∨ phase = none) :
    Settled productId key w' (phases.set i phase) := by
  have hq : q.Holds productId key c.state := hall.2 q (List.mem_of_getElem? h.phase)
  intro k r hk hreads
  rcases eq_or_ne k i with rfl | hne
  · -- The cut that takes the step.
    rw [List.getElem?_set_self (List.getElem?_eq_some_iff.mp h.phase).1] at hk
    rcases hphase with rfl | rfl
    · cases hk
      obtain ⟨hshows, hfrom⟩ := step_shows h.step hq (fun hr => (hsettled k q h.phase hr).1) hreads
      refine ⟨hshows, noneWriting_set_self ?_ _⟩
      rcases hfrom with hr | hl
      · exact (hsettled k q h.phase hr).2
      · exact noneWriting_of_read h hread hl
    · cases hk
  · -- A cut that has read its manifest before.
    rw [List.getElem?_set_ne (Ne.symm hne)] at hk
    obtain ⟨hshows, hnone⟩ := hsettled k r hk hreads
    have hkeyed := keyed_ne_nil (hall.2 r (List.mem_of_getElem? hk)) hreads
    obtain ⟨rfl, hwriting⟩ :=
      step_beside_reader h.step hq (hnone i (Ne.symm hne) q h.phase) hkeyed
    refine ⟨hshows, ?_⟩
    intro j hj r' hr'
    rcases eq_or_ne j i with rfl | hji
    · rw [List.getElem?_set_self (List.getElem?_eq_some_iff.mp h.phase).1] at hr'
      rcases hphase with rfl | rfl
      · cases hr'
        exact hwriting
      · cases hr'
    · rw [List.getElem?_set_ne (Ne.symm hji)] at hr'
      exact hnone j hj r' hr'

theorem eq_of_length_le_one {α : Type} {xs : List α} (h : xs.length ≤ 1) {a b : α} (ha : a ∈ xs)
    (hb : b ∈ xs) : a = b := by
  match xs, h with
  | [x], _ => exact (List.mem_singleton.mp ha).trans (List.mem_singleton.mp hb).symm

end IdempotentCutLemmas

open IdempotentCutLemmas

/-! ## Every interleaving -/

/-- From a store with at most one release for the key: however the statements of any number
of cuts with the key interleave, there is at most one, and all cuts that succeed answer with
its id, if each release is inserted while no other cut is undecided. If, besides, each
manifest is read while no other cut is inserting rows, they all give the same answer. -/
theorem idempotent_cut_interleaved (w : World) (productId key : String) (cuts : List KeyedCut)
    (schedule : List Nat) (h : (w.db.keyed productId key).length ≤ 1)
    (halone : (KeyedCut.start w productId key cuts).Along InsertsAlone schedule) :
    let c := (KeyedCut.start w productId key cuts).exec schedule
    (c.state.db.keyed productId key).length ≤ 1 ∧
      (∀ i result, c.outcome i = some (.ok result) →
        ∃ row ∈ c.state.db.keyed productId key, row.id = result.release.id) ∧
      ((KeyedCut.start w productId key cuts).Along ReadsComplete schedule →
        ∀ i j a b, c.outcome i = some (.ok a) → c.outcome j = some (.ok b) →
          a.release = b.release) := by
  intro c
  obtain ⟨phases, hphases, hlooking⟩ := start_inPhases w productId key cuts
  have hstart : Config.Asserts (CutsOnce productId key) (CutPhase.Holds productId key) w phases := by
    refine ⟨h, ?_⟩
    intro q hq
    cases hlooking q hq
    trivial
  obtain ⟨phases₁, hphases₁, hall⟩ := Config.exec_invariant (fun _ _ _ => trivial)
    (fun _ _ _ _ _ _ _ htakes hall _ => asserts_step htakes hall) schedule hphases hstart halone
  refine ⟨hall.1, ?_, ?_⟩
  · intro i result hresult
    obtain ⟨q, hq, rfl⟩ := hphases₁.outcome hresult
    exact hall.2 _ (List.mem_of_getElem? hq)
  · intro hcomplete i j a b ha hb
    have hsettled : Settled productId key w phases := by
      intro i q hq hread
      cases hlooking q (List.mem_of_getElem? hq)
      cases hread
    obtain ⟨phases₂, hphases₂, _, hend⟩ := Config.exec_invariant
      (J := fun w phases =>
        Config.Asserts (CutsOnce productId key) (CutPhase.Holds productId key) w phases ∧
          Settled productId key w phases) (fun _ _ _ => trivial)
      (fun c phases i l q q' w' htakes hinv phase hphase => by
        have halone : CutTakes productId key c phases i l q q' w' :=
          ⟨htakes.inPhases, htakes.label, htakes.phase, htakes.allowed.1, htakes.step⟩
        exact ⟨asserts_step halone hinv.1 hphase,
          settled_step halone htakes.allowed.2 hinv.1 hinv.2 hphase⟩)
      schedule hphases ⟨hstart, hsettled⟩ (halone.and hcomplete)
    have hshown : ∀ {k : Nat} {result : CutReleaseResult}, c.outcome k = some (.ok result) →
        ∃ row ∈ c.state.db.keyed productId key, result.release = c.state.db.cutView row := by
      intro k result hresult
      obtain ⟨q, hq, rfl⟩ := hphases₂.outcome hresult
      exact (hend k _ hq rfl).1
    obtain ⟨row, hrow, hshow⟩ := hshown ha
    obtain ⟨row', hrow', hshow'⟩ := hshown hb
    rw [hshow, hshow', eq_of_length_le_one hall.1 hrow hrow']

namespace Sample

/-- Two requests with the key `cut-1`. -/
def retries : List KeyedCut :=
  [{ label := some "Aurora", notes := none, env := env 30 },
   { label := some "Aurora", notes := none, env := env 31 }]

end Sample

/-- The second request arrives while the first is being processed, and waits with its
lookup until the first has inserted its manifest. -/
theorem idempotent_cut_interleaved_sample :
    (((KeyedCut.start Sample.versioned (Sample.id 10) "cut-1" Sample.retries).exec
      [1, 0, 0, 0, 0, 0, 0, 0, 1, 1, 0, 1, 0]).state.db.keyed (Sample.id 10) "cut-1").length ≤ 1 :=
  (idempotent_cut_interleaved _ _ _ _ _ (by decide +kernel) (by decide +kernel)).1

/-- The two requests take turns, statement by statement. -/
def Sample.alternating : Servers CutReleaseResult :=
  (KeyedCut.start Sample.versioned (Sample.id 10) "cut-1" Sample.retries).exec
    [0, 1, 0, 1, 0, 1, 0, 1, 0, 1, 0, 1, 0, 1, 0, 1, 0, 1]

/-- Neither of the two finds a release with the key, both succeed, and each has created a
release of its own. -/
theorem two_releases_for_one_key :
    Sample.versioned.db.keyed (Sample.id 10) "cut-1" = [] ∧ Sample.alternating.Finished ∧
      (Sample.alternating.outcome 0).map (Except.map fun result => result.release.id) =
        some (.ok (Sample.id 30)) ∧
      (Sample.alternating.outcome 1).map (Except.map fun result => result.release.id) =
        some (.ok (Sample.id 31)) ∧
      (Sample.alternating.state.db.keyed (Sample.id 10) "cut-1").map ReleaseRow.id =
        [Sample.id 30, Sample.id 31] :=
  ⟨by decide +kernel, by decide +kernel, by decide +kernel, by decide +kernel, by decide +kernel⟩

end LavsCore

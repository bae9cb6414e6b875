import LavsCore.Concurrency.Servers
import LavsCore.Invariants.Growth
import LavsCore.Lib.RelyGuarantee

/-!
# What calls do to each other

`Later` is what a call can rely on while others run: rows of products, components and releases
stay, a version keeps all columns but its status, and what could be read back still can. Every
statement of every call stays within it, so it also is what a call guarantees.

A call that settles (`Query.Settles`) ends in a domain error only before it has written
anything.
-/

namespace LavsCore

open Store GrowthLemmas Query

/-- Every version row makes a response, and every product version can be parsed. -/
structure Store.Legible (db : Store) : Prop where
  products : ∀ p ∈ db.products.rows, (parseCore p.baseVersion).isOk = true
  versions : ∀ v ∈ db.versions.rows, (toVersionResponse v).isOk = true
  releases : ∀ r ∈ db.releases.rows, (parseCore r.productVersion).isOk = true

instance (db : Store) : Decidable db.Legible :=
  decidable_of_iff
    ((∀ p ∈ db.products.rows, (parseCore p.baseVersion).isOk = true) ∧
      (∀ v ∈ db.versions.rows, (toVersionResponse v).isOk = true) ∧
      ∀ r ∈ db.releases.rows, (parseCore r.productVersion).isOk = true)
    ⟨fun h => ⟨h.1, h.2.1, h.2.2⟩, fun h => ⟨h.products, h.versions, h.releases⟩⟩

/-- `w'` is a state after `w`, in which edges are missing only if calls are `removing` some. -/
structure Later (removing : Prop) (w w' : World) : Prop where
  products : w.db.products.rows <+: w'.db.products.rows
  components : w.db.components.rows <+: w'.db.components.rows
  versions : w.db.KeepsVersions w'.db
  releases : w.db.releases.rows <+: w'.db.releases.rows
  dependencies : ¬ removing → w.db.dependencies.rows <+: w'.db.dependencies.rows
  legible : w.db.Legible → w'.db.Legible

namespace Later

variable {removing : Prop} {w w' w'' : World}

theorem refl (w : World) : Later removing w w where
  products := List.prefix_refl _
  components := List.prefix_refl _
  versions := List.prefix_refl _
  releases := List.prefix_refl _
  dependencies _ := List.prefix_refl _
  legible := id

theorem trans (h : Later removing w w') (h' : Later removing w' w'') : Later removing w w'' where
  products := h.products.trans h'.products
  components := h.components.trans h'.components
  versions := List.IsPrefix.trans h.versions h'.versions
  releases := h.releases.trans h'.releases
  dependencies hnone := (h.dependencies hnone).trans (h'.dependencies hnone)
  legible hw := h'.legible (h.legible hw)

instance : Std.Refl (Later removing) := ⟨refl⟩

instance : IsTrans World (Later removing) := ⟨fun _ _ _ => trans⟩

theorem product_keys (h : Later removing w w') {id : String} (hid : id ∈ w.db.products.keys) :
    id ∈ w'.db.products.keys := by
  obtain ⟨p, hp, rfl⟩ := Table.mem_keys.mp hid
  exact Table.key_mem_keys (h.products.subset hp)

theorem component_keys (h : Later removing w w') {id : String} (hid : id ∈ w.db.components.keys) :
    id ∈ w'.db.components.keys := by
  obtain ⟨c, hc, rfl⟩ := Table.mem_keys.mp hid
  exact Table.key_mem_keys (h.components.subset hc)

theorem version_keys (h : Later removing w w') {id : String} (hid : id ∈ w.db.versions.keys) :
    id ∈ w'.db.versions.keys := by
  obtain ⟨v, hv, rfl⟩ := Table.mem_keys.mp hid
  obtain ⟨v', hv', hfixed⟩ := List.mem_map.mp (h.versions.subset (List.mem_map_of_mem hv))
  rw [← fixed_id hfixed]
  exact Table.key_mem_keys hv'

theorem release_keys (h : Later removing w w') {id : String} (hid : id ∈ w.db.releases.keys) :
    id ∈ w'.db.releases.keys := by
  obtain ⟨r, hr, rfl⟩ := Table.mem_keys.mp hid
  exact Table.key_mem_keys (h.releases.subset hr)

theorem dependency_keys (h : Later removing w w') (hnone : ¬ removing) {id : String}
    (hid : id ∈ w.db.dependencies.keys) : id ∈ w'.db.dependencies.keys := by
  obtain ⟨d, hd, rfl⟩ := Table.mem_keys.mp hid
  exact Table.key_mem_keys ((h.dependencies hnone).subset hd)

end Later

/-! ## The statements -/

namespace InterferenceLemmas

variable {removing : Prop} {w : World} {db : Store}

/-- Rows that are added and legible leave a legible table. -/
theorem forall_append {α : Type} {p : α → Prop} {rows rows' : List α} {row : α}
    (h : ∀ r ∈ rows, p r) (hrows : rows' = rows ++ [row]) (hrow : p row) : ∀ r ∈ rows', p r := by
  rw [hrows]
  intro r hr
  rcases List.mem_append.mp hr with hr | hr
  · exact h r hr
  · exact List.mem_singleton.mp hr ▸ hrow

theorem later_insertProduct {row : ProductRow} (hbase : (parseCore row.baseVersion).isOk = true)
    (h : w.db.insertProduct row = .ok db) : Later removing w { w with db := db } := by
  have hi := insertProduct_ok h
  exact {
    products := prefix_of_append hi.rows
    components := prefix_of_eq (congrArg _ hi.components)
    versions := keepsVersions_of_eq hi.versions
    releases := prefix_of_eq (congrArg _ hi.releases)
    dependencies := fun _ => prefix_of_eq (congrArg _ hi.dependencies)
    legible := fun hw => ⟨forall_append hw.products hi.rows hbase, hi.versions ▸ hw.versions,
      hi.releases ▸ hw.releases⟩ }

theorem later_insertComponent {row : ComponentRow} (h : w.db.insertComponent row = .ok db) :
    Later removing w { w with db := db } := by
  have hi := insertComponent_ok h
  exact {
    products := prefix_of_eq (congrArg _ hi.products)
    components := prefix_of_append hi.rows
    versions := keepsVersions_of_eq hi.versions
    releases := prefix_of_eq (congrArg _ hi.releases)
    dependencies := fun _ => prefix_of_eq (congrArg _ hi.dependencies)
    legible := fun hw => ⟨hi.products ▸ hw.products, hi.versions ▸ hw.versions,
      hi.releases ▸ hw.releases⟩ }

/-- A version with a status stays legible when the status changes. -/
theorem isOk_withStatus {v : VersionRow} (h : (toVersionResponse v).isOk = true)
    (status : VersionStatus) (where? : VersionRow → Bool) :
    (toVersionResponse (withStatus status where? v)).isOk = true := by
  unfold withStatus
  split
  · cases hv : toVersionResponse v with
    | error e => rw [hv] at h; cases h
    | ok m =>
      obtain ⟨_, _, hneg, _⟩ := toVersionResponse_ok_iff.mp hv
      have hok := toVersionResponse_ok_iff.mpr ⟨status, rfl, (show negativeFields
        { v with status := some status } = [] from hneg), rfl⟩
      rw [hok]
      rfl
  · exact h

theorem later_setStatus (status : VersionStatus) (where? : VersionRow → Bool) :
    Later removing w { w with db := w.db.setStatus status where? } where
  products := List.prefix_refl _
  components := List.prefix_refl _
  versions := prefix_of_eq (setStatus_fixed w.db status where?)
  releases := List.prefix_refl _
  dependencies _ := List.prefix_refl _
  legible hw := by
    refine ⟨hw.products, ?_, hw.releases⟩
    intro v hv
    obtain ⟨v₀, hv₀, rfl⟩ := List.mem_map.mp hv
    exact isOk_withStatus (hw.versions v₀ hv₀) status where?

theorem later_insertVersion {row : VersionRow} (hrow : (toVersionResponse row).isOk = true)
    (h : w.db.insertVersion row = .ok db) : Later removing w { w with db := db } := by
  have hi := insertVersion_ok h
  exact {
    products := prefix_of_eq (congrArg _ hi.products)
    components := prefix_of_eq (congrArg _ hi.components)
    versions := by
      show KeepsVersions _ db
      rw [KeepsVersions, hi.rows, List.map_append]
      exact List.prefix_append _ _
    releases := prefix_of_eq (congrArg _ hi.releases)
    dependencies := fun _ => prefix_of_eq (congrArg _ hi.dependencies)
    legible := fun hw => ⟨hi.products ▸ hw.products, forall_append hw.versions hi.rows hrow,
      hi.releases ▸ hw.releases⟩ }

theorem later_insertRelease {row : ReleaseRow}
    (hversion : w.db.Legible → (parseCore row.productVersion).isOk = true)
    (h : w.db.insertRelease row = .ok db) : Later removing w { w with db := db } := by
  have hi := insertRelease_ok h
  exact {
    products := prefix_of_eq (congrArg _ hi.products)
    components := prefix_of_eq (congrArg _ hi.components)
    versions := keepsVersions_of_eq hi.versions
    releases := prefix_of_append hi.rows
    dependencies := fun _ => prefix_of_eq (congrArg _ hi.dependencies)
    legible := fun hw => ⟨hi.products ▸ hw.products, hi.versions ▸ hw.versions,
      forall_append hw.releases hi.rows (hversion hw)⟩ }

theorem later_insertReleaseComponent {row : ReleaseComponentRow}
    (h : w.db.insertReleaseComponent row = .ok db) : Later removing w { w with db := db } := by
  have hi := insertReleaseComponent_ok h
  exact {
    products := prefix_of_eq (congrArg _ hi.products)
    components := prefix_of_eq (congrArg _ hi.components)
    versions := keepsVersions_of_eq hi.versions
    releases := prefix_of_eq (congrArg _ hi.releases)
    dependencies := fun _ => prefix_of_eq (congrArg _ hi.dependencies)
    legible := fun hw => ⟨hi.products ▸ hw.products, hi.versions ▸ hw.versions,
      hi.releases ▸ hw.releases⟩ }

theorem later_insertDependency {row : DependencyRow} (h : w.db.insertDependency row = .ok db) :
    Later removing w { w with db := db } := by
  have hi := insertDependency_ok h
  exact {
    products := prefix_of_eq (congrArg _ hi.products)
    components := prefix_of_eq (congrArg _ hi.components)
    versions := keepsVersions_of_eq hi.versions
    releases := prefix_of_eq (congrArg _ hi.releases)
    dependencies := fun _ => prefix_of_append hi.rows
    legible := fun hw => ⟨hi.products ▸ hw.products, hi.versions ▸ hw.versions,
      hi.releases ▸ hw.releases⟩ }

theorem later_deleteDependency (hremoving : removing) (id : String) :
    Later removing w { w with db := w.db.deleteDependency id } where
  products := List.prefix_refl _
  components := List.prefix_refl _
  versions := List.prefix_refl _
  releases := List.prefix_refl _
  dependencies hnone := absurd hremoving hnone
  legible hw := ⟨hw.products, hw.versions, hw.releases⟩

theorem later_publish (events : List DomainEvent) :
    Later removing w { w with published := events } where
  products := List.prefix_refl _
  components := List.prefix_refl _
  versions := List.prefix_refl _
  releases := List.prefix_refl _
  dependencies _ := List.prefix_refl _
  legible := id

end InterferenceLemmas

/-! ## How a call ends -/

/-- The read back of an inserted edge fails if the edge has been removed in between. -/
def edgeNotFound : ApiError := .assertion "The dependency edge just inserted was not found."

/-- How a call ends that has changed nothing. -/
def EndsEarly {α : Type} (legible : Prop) (r : Except ApiError α) : Prop :=
  ∀ e, r = .error e → legible →
    e.isDomain = true ∨ (∃ refusal, e = .refused refusal) ∨ e = .valueError digitLimitMessage

/-- How a call ends that has changed something. -/
def EndsLate {α : Type} (legible removing : Prop) (r : Except ApiError α) : Prop :=
  ∀ e, r = .error e → e.isDomain = false ∧
    (legible → (∃ refusal, e = .refused refusal) ∨ (removing ∧ e = edgeNotFound))

namespace Query

/-- The call fails with a domain error only before it changes anything. If the store is
`legible`, it fails otherwise only where the database or the limit of digits refuses. -/
abbrev Settles {α : Type} (legible removing : Prop) (p : Query α) (w : World) : Prop :=
  p.Commits (Later removing) (fun r _ => EndsEarly legible r)
    (fun r _ => EndsLate legible removing r) w

/-- What is left of a call that has changed something fails with no domain error. -/
abbrev Finishes {α : Type} (legible removing : Prop) (p : Query α) (w : World) : Prop :=
  p.Meets (Later removing) (fun r _ => EndsLate legible removing r) w

/-- A part of a call that only reads. -/
abbrev OnlyReads {α : Type} (legible removing : Prop) (p : Query α) (w : World) : Prop :=
  p.Commits (Later removing) (fun r _ => EndsEarly legible r) (fun _ _ => False) w

end Query

namespace InterferenceLemmas

variable {α β : Type} {legible removing : Prop} {w : World} {p : Query α} {f : α → Query β}

theorem endsEarly_ok {a : α} : EndsEarly legible (.ok a) := by
  rintro e ⟨⟩

theorem endsLate_ok {a : α} : EndsLate legible removing (.ok a) := by
  rintro e ⟨⟩

theorem endsEarly_error {e : ApiError} (h : EndsEarly legible (.error e : Except ApiError α)) :
    EndsEarly legible (.error e : Except ApiError β) := by
  rintro _ ⟨⟩
  exact h e rfl

theorem endsLate_error {e : ApiError}
    (h : EndsLate legible removing (.error e : Except ApiError α)) :
    EndsLate legible removing (.error e : Except ApiError β) := by
  rintro _ ⟨⟩
  exact h e rfl

theorem endsEarly_domain {e : ApiError} (h : e.isDomain = true) :
    EndsEarly legible (.error e : Except ApiError α) := by
  rintro _ ⟨⟩ -
  exact Or.inl h

theorem endsEarly_refused (refusal : Refusal) :
    EndsEarly legible (.error (.refused refusal) : Except ApiError α) := by
  rintro _ ⟨⟩ -
  exact Or.inr (Or.inl ⟨refusal, rfl⟩)

theorem endsLate_refused (refusal : Refusal) :
    EndsLate legible removing (.error (.refused refusal) : Except ApiError α) := by
  rintro _ ⟨⟩
  exact ⟨rfl, fun _ => Or.inl ⟨refusal, rfl⟩⟩

theorem settles_pure (a : α) : (pure a : Query α).Settles legible removing w :=
  fun _ _ => endsEarly_ok

theorem finishes_pure (a : α) : (pure a : Query α).Finishes legible removing w :=
  fun _ _ => endsLate_ok

theorem settles_raise {e : ApiError} (h : e.isDomain = true) :
    Query.Settles legible removing (Prog.raise e : Query α) w :=
  fun _ _ => endsEarly_domain h

/-! ### Parts that only read -/

theorem onlyReads_select (l : Sql) (g : Store → α) :
    (select l g).OnlyReads legible removing w := by
  intro w' _
  exact Or.inl ⟨rfl, fun _ _ => endsEarly_ok⟩

theorem onlyReads_select_bind {l : Sql} {g : Store → α}
    (h : ∀ w', Later removing w w' → (f (g w'.db)).OnlyReads legible removing w') :
    (select l g >>= f).OnlyReads legible removing w :=
  Prog.commits_query_bind h

theorem onlyReads_pure (a : α) : (pure a : Query α).OnlyReads legible removing w :=
  fun _ _ => endsEarly_ok

theorem onlyReads_raise {e : ApiError} (h : e.isDomain = true) :
    Query.OnlyReads legible removing (Prog.raise e : Query α) w :=
  fun _ _ => endsEarly_domain h

theorem onlyReads_refuseIf {refused : Bool} {e : ApiError} (h : e.isDomain = true) :
    (refuseIf refused e).OnlyReads legible removing w := by
  cases refused with
  | true => exact onlyReads_raise h
  | false => exact onlyReads_pure _

theorem onlyReads_bind (hp : p.OnlyReads legible removing w)
    (h : ∀ a w', Later removing w w' → (f a).OnlyReads legible removing w') :
    (p >>= f).OnlyReads legible removing w := by
  refine Prog.commits_bind hp.within ?_ ?_ ?_ ?_
  · exact fun a w' hmid => h a w' hmid.2
  · exact fun e w' hmid => endsEarly_error hmid.1
  · exact fun _ _ hmid => hmid.1.elim
  · exact fun _ _ hmid => hmid.1.elim

theorem settles_bind (hp : p.OnlyReads legible removing w)
    (h : ∀ a w', Later removing w w' → (f a).Settles legible removing w') :
    (p >>= f).Settles legible removing w := by
  refine Prog.commits_bind hp.within ?_ ?_ ?_ ?_
  · exact fun a w' hmid => h a w' hmid.2
  · exact fun e w' hmid => endsEarly_error hmid.1
  · exact fun _ _ hmid => hmid.1.elim
  · exact fun _ _ hmid => hmid.1.elim

theorem finishes_bind (hp : p.Finishes legible removing w)
    (h : ∀ a w', Later removing w w' → (f a).Finishes legible removing w') :
    (p >>= f).Finishes legible removing w := by
  refine Prog.meets_bind hp.within ?_ ?_
  · exact fun a w' hmid => h a w' hmid.2
  · exact fun e w' hmid => endsLate_error hmid.1

theorem settles_refuseIf {refused : Bool} {e : ApiError} {g : PUnit → Query β}
    (he : e.isDomain = true) (h : refused = false → (g ⟨⟩).Settles legible removing w) :
    (refuseIf refused e >>= g).Settles legible removing w := by
  cases refused with
  | true => exact settles_raise he
  | false => exact h rfl

/-! ### Statements -/

theorem settles_select_bind {l : Sql} {g : Store → α}
    (h : ∀ w', Later removing w w' → (f (g w'.db)).Settles legible removing w') :
    (select l g >>= f).Settles legible removing w :=
  Prog.commits_query_bind h

theorem finishes_select_bind {l : Sql} {g : Store → α}
    (h : ∀ w', Later removing w w' → (f (g w'.db)).Finishes legible removing w') :
    (select l g >>= f).Finishes legible removing w :=
  Prog.meets_query_bind h

theorem settles_insert_bind {l : Sql} {g : Store → Except Refusal Store} {f : PUnit → Query β}
    (h : ∀ w' db, Later removing w w' → g w'.db = .ok db →
      Later removing w' { w' with db := db } ∧
        (f ⟨⟩).Finishes legible removing { w' with db := db }) :
    (insert l g >>= f).Settles legible removing w := by
  refine Prog.commits_atomically_bind ?_ ?_
  · intro w' r hw hr
    split at hr
    · next db hdb =>
      cases hr
      exact h w' db hw hdb
    · cases hr
  · intro w' e hw he w'' _
    split at he
    · cases he
    · cases he
      exact endsEarly_refused _

theorem finishes_insert_bind {l : Sql} {g : Store → Except Refusal Store} {f : PUnit → Query β}
    (h : ∀ w' db, Later removing w w' → g w'.db = .ok db →
      Later removing w' { w' with db := db } ∧
        (f ⟨⟩).Finishes legible removing { w' with db := db }) :
    (insert l g >>= f).Finishes legible removing w := by
  refine Prog.meets_atomically_bind ?_ ?_
  · intro w' r hw hr
    split at hr
    · next db hdb =>
      cases hr
      exact h w' db hw hdb
    · cases hr
  · intro w' e hw he w'' _
    split at he
    · cases he
    · cases he
      exact endsLate_refused _

theorem settles_execute_bind {l : Sql} {g : Store → Store} {f : PUnit → Query β}
    (h : ∀ w', Later removing w w' → Later removing w' { w' with db := g w'.db } ∧
      (f ⟨⟩).Finishes legible removing { w' with db := g w'.db }) :
    (execute l g >>= f).Settles legible removing w := by
  refine Prog.commits_atomically_bind ?_ ?_
  · rintro w' _ hw ⟨⟩
    exact h w' hw
  · rintro w' e hw ⟨⟩

theorem finishes_execute_bind {l : Sql} {g : Store → Store} {f : PUnit → Query β}
    (h : ∀ w', Later removing w w' → Later removing w' { w' with db := g w'.db } ∧
      (f ⟨⟩).Finishes legible removing { w' with db := g w'.db }) :
    (execute l g >>= f).Finishes legible removing w := by
  refine Prog.meets_atomically_bind ?_ ?_
  · rintro w' _ hw ⟨⟩
    exact h w' hw
  · rintro w' e hw ⟨⟩

theorem finishes_lift_bind {r : Except ApiError α} {a : α} (hr : r = .ok a)
    (h : (f a).Finishes legible removing w) :
    Query.Finishes legible removing (Prog.lift r >>= f) w := by
  subst hr
  exact h

theorem publish_finishes {eventBus : Bool} {event : DomainEvent} :
    (publish eventBus event).Finishes legible removing w := by
  cases eventBus with
  | false => exact finishes_pure _
  | true =>
    intro w' _
    exact ⟨later_publish _, fun _ _ => endsLate_ok⟩

/-- The publication at the end of a call. -/
theorem finishes_publish {eventBus : Bool} {event : DomainEvent} {a : β} :
    (do
      publish eventBus event
      return a).Finishes legible removing w :=
  finishes_bind publish_finishes fun _ _ _ => finishes_pure a

end InterferenceLemmas

end LavsCore

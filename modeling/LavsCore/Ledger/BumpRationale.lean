import LavsCore.Invariants.EdgeInvariance
import LavsCore.Invariants.ReleaseLedger
import LavsCore.Python.JsonTexts
import Mathlib.Data.List.DropRight

/-!
# The bump rationale as the client shows it

The service stores why a release has its version as a JSON text. `bump-rationale.ts` makes one line
of it, for the ledger and for the version readout. `rationale_of_cut`: the line of a release that
was cut counts the components of its manifest and those of them that changed, and says whether a
component was removed.
-/

namespace LavsCore

open JsonText (Value)
open Py (Json textUnits sortKeys)
open Store GrowthLemmas ReleaseLedgerLemmas

/-! ## The line -/

/-- A white space or a line terminator of JavaScript. -/
def isBlank (unit : Nat) : Bool :=
  (9 ≤ unit && unit ≤ 13) || unit = 0x20 || unit = 0xa0 || unit = 0x1680 ||
    (0x2000 ≤ unit && unit ≤ 0x200a) || unit = 0x2028 || unit = 0x2029 || unit = 0x202f ||
    unit = 0x205f || unit = 0x3000 || unit = 0xfeff

/-- `trim`, of the characters or of the code units of a text. -/
def trimBy {α : Type} (blank : α → Bool) (text : List α) : List α :=
  (text.dropWhile blank).rdropWhile blank

/-- `changedCount`. -/
def changedCount (entries : List Value) : Nat :=
  entries.countP fun entry =>
    entry.isObject &&
      (entry.property (textUnits "own")).bind Value.string? ≠ some (textUnits "none")

/-- `rationale.reason`, if it is a text with something in it. -/
def rationaleReason (rationale : Value) : Option (List Nat) :=
  match (rationale.property (textUnits "reason")).bind Value.string? with
  | some reason => if trimBy isBlank reason = [] then none else some (trimBy isBlank reason)
  | none => none

/-- `rationale.components`, if it is an object. -/
def rationaleComponents (rationale : Value) : Option Value :=
  (rationale.property (textUnits "components")).filter Value.isObject

/-- How many components changed, and whether one was removed. -/
def changeLine (changed total : Nat) (removed : Bool) : String :=
  let noun := if total = 1 then "component" else "components"
  let head := s!"{changed} of {total} {noun} changed"
  if removed then head ++ "; a removed component forces a major." else head ++ "."

/-- What `formatBumpRationale` makes of a text that is not blank. -/
def rationaleLine (trimmed : List Char) : List Nat :=
  match (JsonText.parse trimmed).filter Value.isObject with
  | none => trimmed.flatMap JsonText.units
  | some rationale =>
    match rationaleReason rationale with
    | some reason => reason
    | none =>
      match (rationaleComponents rationale).map Value.values with
      | none | some [] => trimmed.flatMap JsonText.units
      | some entries => textUnits (changeLine (changedCount entries) entries.length
          ((rationale.property (textUnits "removed_any")).bind Value.bool? = some true))

/-- `formatBumpRationale`, on a text without a lone surrogate. -/
def formatBumpRationale (raw : Option String) : Option (List Nat) :=
  match raw.map fun raw => trimBy (fun c => isBlank c.toNat) raw.toList with
  | none | some [] => none
  | some trimmed => some (rationaleLine trimmed)

/-! ## The rationale of a cut -/

namespace BumpRationaleLemmas

theorem trimBy_eq {α : Type} {blank : α → Bool} {a b : α} (ha : blank a = false)
    (hb : blank b = false) (text : List α) :
    trimBy blank (a :: text ++ [b]) = a :: text ++ [b] := by
  rw [trimBy, List.cons_append, List.dropWhile_cons_of_neg (by simp [ha]), ← List.cons_append,
    List.rdropWhile_concat_neg _ _ _ (by simp [hb])]

theorem value_eq_none_iff {level : BumpLevel} : level.value = "none" ↔ level = .none := by
  cases level <;> simp [BumpLevel.value]

/-- A component of the rationale. -/
def levels (own effective : BumpLevel) : Json :=
  .obj [("own", .str own.value), ("effective", .str effective.value)]

theorem changed_levels (own effective : BumpLevel) :
    ((sortKeys (levels own effective)).parsed.isObject &&
      (((sortKeys (levels own effective)).parsed.property (textUnits "own")).bind Value.string? ≠
        some (textUnits "none"))) = decide (own ≠ .none) := by
  have hown : (sortKeys (levels own effective)).parsed.property (textUnits "own") =
      some (.string (textUnits own.value)) :=
    Py.property_sortKeys (by simp) List.mem_cons_self
  have hobject : (sortKeys (levels own effective)).parsed.isObject = true := rfl
  rw [hobject, hown]
  simp [Value.string?, Py.textUnits_injective.eq_iff, value_eq_none_iff]

theorem changedCount_perm {entries entries' : List Value} (h : entries.Perm entries') :
    changedCount entries = changedCount entries' := h.countP_eq _

/-- The text of an object is what is left of it when it is trimmed. -/
theorem formatBumpRationale_dumpsSorted (fields : List (String × Json)) :
    formatBumpRationale (some (Py.dumpsSorted (.obj fields))) =
      some (rationaleLine (Py.dumpsSorted (.obj fields)).toList) := by
  have htext : ∃ text, (Py.dumpsSorted (.obj fields)).toList = '{' :: text ++ ['}'] :=
    ⟨_, String.toList_ofList⟩
  obtain ⟨text, htext⟩ := htext
  have htrim : trimBy (fun c : Char => isBlank c.toNat) ('{' :: text ++ ['}']) =
      '{' :: text ++ ['}'] := trimBy_eq rfl rfl text
  rw [formatBumpRationale, Option.map_some, htext, htrim]
  rfl

variable (own effective : Dict String BumpLevel)

/-- The components of a rationale. -/
def written (own effective : Dict String BumpLevel) : List (String × Json) :=
  own.rows.map fun e => (e.1, levels e.2 (effectiveOf effective e.1))

theorem written_nodup : ((written own effective).map Prod.fst).Nodup := by
  rw [written, List.map_map]
  exact own.nodup_keys

theorem changedCount_written :
    changedCount (sortKeys (.obj (written own effective))).parsed.values =
        own.rows.countP (fun e => e.2 ≠ .none) ∧
      (sortKeys (.obj (written own effective))).parsed.values.length = own.rows.length := by
  have hvalues := Py.values_sortKeys (written_nodup own effective)
  refine ⟨?_, ?_⟩
  · rw [changedCount_perm hvalues, changedCount, List.countP_map, written, List.countP_map]
    refine List.countP_congr fun e _ => ?_
    exact (congrArg (· = true) (changed_levels e.2 (effectiveOf effective e.1))).to_iff
  · rw [hvalues.length_eq, List.length_map, written, List.length_map]

/-- The members of a rationale. -/
def rationaleFields (bumpLevel : BumpLevel) (removed : Bool)
    (own effective : Dict String BumpLevel) : List (String × Json) :=
  [("policy", .str BumpPolicy.default), ("product_bump", .str bumpLevel.value),
    ("removed_any", .bool removed), ("components", .obj (written own effective))]

/-- The rationale as the client parses it. -/
def rationaleOf (bumpLevel : BumpLevel) (removed : Bool) (own effective : Dict String BumpLevel) :
    Value :=
  (sortKeys (.obj (rationaleFields bumpLevel removed own effective))).parsed

/-- The line of the rationale that the service writes. -/
theorem formatBumpRationale_written (bumpLevel : BumpLevel) (removed : Bool)
    (hown : own.rows ≠ []) :
    formatBumpRationale (some (bumpRationale bumpLevel removed own effective)) =
      some (textUnits (changeLine (own.rows.countP fun e => e.2 ≠ .none) own.rows.length
        removed)) := by
  obtain ⟨hchanged, hlength⟩ := changedCount_written own effective
  have hfield : ∀ {name : String} {value : Json},
      (name, value) ∈ rationaleFields bumpLevel removed own effective →
        (rationaleOf bumpLevel removed own effective).property (textUnits name) =
          some (sortKeys value).parsed :=
    Py.property_sortKeys (by simp [rationaleFields])
  have hreason : rationaleReason (rationaleOf bumpLevel removed own effective) = none := by
    rw [rationaleReason, rationaleOf, Py.property_sortKeys_eq_none (by simp [rationaleFields])]
    rfl
  have hcomponents : rationaleComponents (rationaleOf bumpLevel removed own effective) =
      some (sortKeys (.obj (written own effective))).parsed := by
    rw [rationaleComponents, hfield (.tail _ (.tail _ (.tail _ (.head _))))]
    rfl
  have hremoved : ((rationaleOf bumpLevel removed own effective).property
      (textUnits "removed_any")).bind Value.bool? = some removed := by
    rw [hfield (.tail _ (.tail _ (.head _)))]
    rfl
  have hparse : (JsonText.parse (bumpRationale bumpLevel removed own effective).toList).filter
      Value.isObject = some (rationaleOf bumpLevel removed own effective) := by
    rw [show bumpRationale bumpLevel removed own effective =
      Py.dumps (sortKeys (.obj (rationaleFields bumpLevel removed own effective))) from rfl,
      Py.parse_dumps]
    rfl
  have hline : formatBumpRationale (some (bumpRationale bumpLevel removed own effective)) =
      some (rationaleLine (bumpRationale bumpLevel removed own effective).toList) :=
    formatBumpRationale_dumpsSorted _
  rw [hline, rationaleLine, hparse]
  simp only [hreason, hcomponents, hremoved, Option.map_some]
  cases hentries : (sortKeys (.obj (written own effective))).parsed.values with
  | nil =>
    rw [hentries] at hlength
    exact absurd (List.length_eq_zero_iff.mp hlength.symm) hown
  | cons entry rest =>
    rw [hentries] at hchanged hlength
    simp [hchanged, hlength]

/-! ### The manifest of the cut -/

variable {db db' db₁ : Store} {product : ProductRow} {row : ReleaseRow}

/-- What the ledger line reads of a component. -/
abbrev Change := String × Option String

/-- The new manifest joins with the components and the versions it was made from. -/
theorem joinManifest_new (hcomponents : db'.components = db.components)
    (hversions : db'.versions = db.versions) {releaseId : String} {rc : ReleaseComponentRow}
    (hrc : rc ∈ db.newManifest product releaseId) :
    (db'.joinManifest rc).map (fun e => ((e.componentId, e.changeLevel) : Change)) =
      [(rc.componentId, rc.changeLevel)] := by
  obtain ⟨record, hrecord, rfl⟩ := List.mem_map.mp hrc
  obtain ⟨c, hc, _, v, hv, rfl⟩ := mem_activeComponents.mp hrecord
  have hcomponent : db'.components.lookup c.id = [c] :=
    Table.lookup_eq_singleton (hcomponents ▸ hc)
  have hversion : db'.versions.lookup v.id = [v] :=
    Table.lookup_eq_singleton (hversions ▸ (mem_activeVersions.mp hv).1)
  simp only [joinManifest, newManifestRow, activeComponent, hcomponent, hversion,
    List.flatMap_cons, List.flatMap_nil, List.map_cons, List.map_nil, List.append_nil,
    manifestEntry]

/-- The components that a cut answers with are those of its manifest. -/
theorem changes_of_cut (hinsert : db.insertRelease row = .ok db₁)
    (hmanifest : insertManifest (db.newManifest product row.id) db₁ = .ok db') :
    ((db'.cutView row).components.map fun c => ((c.componentId, c.changeLevel) : Change)).Perm
      ((db.newManifest product row.id).map fun rc => (rc.componentId, rc.changeLevel)) := by
  obtain ⟨_, hcomponents, hversions, _, _, _⟩ := cut_frame hinsert hmanifest
  have hrows := manifest_of_cut hinsert hmanifest fun _ => newManifest_releaseId
  have hentries : (db'.manifestEntries [row.id]).map
      (fun e => ((e.componentId, e.changeLevel) : Change)) =
        (db.newManifest product row.id).map fun rc => (rc.componentId, rc.changeLevel) := by
    simp only [manifestEntries, List.mem_singleton]
    rw [hrows, List.map_flatMap, List.flatMap_congr fun rc hrc =>
      joinManifest_new hcomponents hversions hrc]
    exact List.map_eq_flatMap.symm
  rw [← hentries]
  show ((db'.releaseManifest row.id).map toReleaseComponent |>.map _).Perm _
  rw [List.map_map]
  exact (orderBy_perm _ _).map _

/-- The own levels of a cut, one for each component. -/
theorem ownLevels_rows {prior : Dict String VersionTuple} {active : List ActiveComponent}
    (hnodup : (active.map ActiveComponent.componentId).Nodup) :
    (ownLevels prior active).rows = active.map fun r =>
      (r.componentId, classifyChange (Dict.get? prior r.componentId) r.tuple) := by
  refine Dict.ofList_rows ?_
  rw [List.map_map]
  exact hnodup

/-- The line counts the components of the manifest. -/
theorem line_of_cut {releaseId : String} {components : List ReleaseComponentResponseModel}
    (hnodup : ((db.activeComponents product.id).map ActiveComponent.componentId).Nodup)
    (hactive : db.activeComponents product.id ≠ [])
    (hpolicy : product.bumpPolicy = BumpPolicy.default)
    (hchanges : (components.map fun c => ((c.componentId, c.changeLevel) : Change)).Perm
      ((db.newManifest product releaseId).map fun rc => (rc.componentId, rc.changeLevel))) :
    formatBumpRationale (db.derivationFor product).rationale =
      some (textUnits (changeLine (components.countP fun c => c.changeLevel ≠ some "none")
        components.length ((db.previousManifest product.id).any fun e =>
          e.1 ∉ components.map ReleaseComponentResponseModel.componentId))) := by
  let prior := Dict.ofList (db.previousManifest product.id)
  let level := fun r : ActiveComponent =>
    classifyChange (Dict.get? prior r.componentId) r.tuple
  have hrows : (ownLevels prior (db.activeComponents product.id)).rows =
      (db.activeComponents product.id).map fun r => (r.componentId, level r) :=
    ownLevels_rows hnodup
  have hderived : db.derivationFor product = derivation BumpPolicy.default
      (db.activeComponents product.id) (db.previousManifest product.id) (db.edges product.id) := by
    rw [Store.derivationFor, hpolicy]
  -- The manifest stores the own level of each component.
  have hmanifest : (db.newManifest product releaseId).map
      (fun rc => ((rc.componentId, rc.changeLevel) : Change)) =
        (db.activeComponents product.id).map fun r => (r.componentId, some (level r).value) := by
    rw [Store.newManifest, List.map_map]
    refine List.map_congr_left fun r hr => ?_
    have hget : Dict.get? (ownLevels prior (db.activeComponents product.id)) r.componentId =
        some (level r) := Dict.get?_eq_some.mpr (hrows ▸ List.mem_map_of_mem hr)
    have hchange : Dict.get? (db.derivationFor product).changeByComponent r.componentId =
        some (level r).value := by
      rw [hderived, derivation, if_neg (by simp)]
      show Dict.get? (Dict.mapValues _ (ownLevels prior _)) _ = _
      rw [Dict.get?_mapValues, hget]
      rfl
    simp [newManifestRow, hchange]
  rw [hmanifest] at hchanges
  have hids : (components.map ReleaseComponentResponseModel.componentId).Perm
      ((db.activeComponents product.id).map ActiveComponent.componentId) := by
    have hfst := hchanges.map Prod.fst
    rwa [List.map_map, List.map_map] at hfst
  have hlength : components.length = (db.activeComponents product.id).length := by
    have hlen := hids.length_eq
    rwa [List.length_map, List.length_map] at hlen
  have hcount : (components.countP fun c => c.changeLevel ≠ some "none") =
      (db.activeComponents product.id).countP fun r => level r ≠ .none := by
    have hcountP := hchanges.countP_eq fun change => change.2 ≠ some "none"
    rw [List.countP_map, List.countP_map] at hcountP
    refine hcountP.trans (List.countP_congr fun r _ => ?_)
    simp [value_eq_none_iff]
  have hremoved : ((db.previousManifest product.id).any fun e =>
      e.1 ∉ components.map ReleaseComponentResponseModel.componentId) =
        removedAny prior (db.activeComponents product.id) := by
    rw [Bool.eq_iff_iff, EdgeInvarianceLemmas.removedAny_iff]
    simp only [List.any_eq_true, decide_eq_true_eq, hids.mem_iff, List.mem_map, not_exists, not_and]
  have hown : (ownLevels prior (db.activeComponents product.id)).rows ≠ [] := by
    rw [hrows]
    simpa using hactive
  have hline := formatBumpRationale_written
    (ownLevels prior (db.activeComponents product.id))
    (effectiveLevels (ownLevels prior (db.activeComponents product.id)) (db.edges product.id))
    (deriveProductBump (ownLevels prior (db.activeComponents product.id)) (db.edges product.id)
      (removedAny prior (db.activeComponents product.id)))
    (removedAny prior (db.activeComponents product.id)) hown
  rw [hcount, hlength, hremoved, hderived, derivation, if_neg (by simp)]
  rw [hrows, List.countP_map, List.length_map] at hline
  exact hline

end BumpRationaleLemmas

open BumpRationaleLemmas

/-- What the client shows of a fresh cut: of a product with the default policy, how many of the
components of the release changed, and a removal exactly if a component of the previous manifest is
not among them; of other products nothing. -/
theorem rationale_of_cut (data : CutReleaseRequest) (env : Env) (w : World)
    (result : CutReleaseResult) (hcut : ((cutRelease data env).run w).1 = .ok result)
    (hcreated : result.created = true) :
    ∃ product ∈ w.db.products.rows, product.id = data.productId ∧
      let components := result.release.components
      formatBumpRationale result.release.bumpRationale =
        if product.bumpPolicy = BumpPolicy.default then
          some (textUnits (changeLine
            (components.countP fun c => c.changeLevel ≠ some "none") components.length
            ((w.db.previousManifest data.productId).any fun e =>
              e.1 ∉ components.map ReleaseComponentResponseModel.componentId)))
        else none := by
  obtain ⟨w', _, hrun⟩ := Prog.exists_outcome (cutRelease_run data env w) hcut
  cases hrun with
  | replayed _ => cases hcreated
  | @cut product version db db' hproduct hid _ hactive _ hinsert hmanifest =>
    refine ⟨product, hproduct, hid, ?_⟩
    have hnodup : ((w.db.activeComponents product.id).map ActiveComponent.componentId).Nodup := by
      have hkeys := newManifest_nodup (insertManifest_ok hmanifest).distinct
      rwa [Store.newManifest, List.map_map] at hkeys
    split
    · next hpolicy =>
      rw [← hid]
      exact line_of_cut hnodup hactive hpolicy (changes_of_cut hinsert hmanifest)
    · next hpolicy =>
      have hnone : (w.db.derivationFor product).rationale = none := by
        rw [Store.derivationFor, derivation, if_pos hpolicy]
      show formatBumpRationale (w.db.derivationFor product).rationale = none
      rw [hnone]
      rfl

/-- Between two cuts the product gets another component. -/
theorem rationale_of_cut_sample :
    let w := run World.init (Sample.setup ++ Sample.versions ++
      [(.cutRelease (Sample.release none), Sample.env 30)] ++ Sample.third)
    ∃ result, ((cutRelease (Sample.release none) (Sample.env 31)).run w).1 = .ok result ∧
      formatBumpRationale result.release.bumpRationale =
        some (textUnits "1 of 2 components changed.") := by
  intro w
  have hfresh : (match ((cutRelease (Sample.release none) (Sample.env 31)).run w).1 with
      | .ok result => result.created && changeLine
          (result.release.components.countP fun c => c.changeLevel ≠ some "none")
          result.release.components.length
          ((w.db.previousManifest (Sample.id 10)).any fun e =>
            e.1 ∉ result.release.components.map ReleaseComponentResponseModel.componentId) =
        "1 of 2 components changed."
      | .error _ => false) = true := by decide +kernel
  have hdefault : ∀ p ∈ w.db.products.rows, p.bumpPolicy = BumpPolicy.default := by decide +kernel
  split at hfresh
  · next result hresult =>
    rw [Bool.and_eq_true, decide_eq_true_eq] at hfresh
    obtain ⟨product, hproduct, _, hline⟩ :=
      rationale_of_cut (Sample.release none) (Sample.env 31) w result hresult hfresh.1
    simp only [if_pos (hdefault product hproduct)] at hline
    exact ⟨result, hresult, hline.trans (congrArg (fun line => some (textUnits line)) hfresh.2)⟩
  · cases hfresh

end LavsCore

import LavsCore.Lib.Interleaving
import LavsCore.Queries.Query

/-!
# Servers on one database

Several server processes work on one database. Each runs one query, the connections are
in autocommit, and so every statement is one step of one server. The statements of
`Query` keep to a protocol as the lemmas here say.
-/

namespace LavsCore

/-- Queries that are running at the same time. -/
abbrev Servers (α : Type) := Config Sql World ApiError α

namespace Query

variable {α Q : Type} {P : Q → Sql → World → Q → World → Prop} {I : World → Prop} {q q' : Q}

theorem follows_select {F : Q → α → Prop} {l : Sql} {f : Store → α}
    (h : ∀ w, I w → ∃ q', P q l w q' w ∧ F q' (f w.db)) : (select l f).Follows P I F q :=
  Prog.follows_query h

theorem stays_select {l : Sql} {f : Store → α} (h : ∀ w, I w → P q l w q w) :
    (select l f).Stays P I q :=
  Prog.follows_query fun w hw => ⟨q, h w hw, rfl⟩

theorem follows_execute {l : Sql} {f : Store → Store}
    (h : ∀ w, I w → P q l w q' { w with db := f w.db }) :
    (execute l f).Follows P I (fun q'' _ => q'' = q') q := by
  refine Prog.follows_atomically ?_ ?_
  · intro w r hw hr
    cases hr
    exact ⟨q', h w hw, rfl⟩
  · intro w e _ he
    cases he

theorem follows_insert {F : Q → PUnit → Prop} {l : Sql} {f : Store → Except Refusal Store}
    (hok : ∀ w db, I w → f w.db = .ok db → ∃ q', P q l w q' { w with db := db } ∧ F q' ⟨⟩)
    (herr : ∀ w, I w → ∃ q', P q l w q' w) : (insert l f).Follows P I F q := by
  refine Prog.follows_atomically ?_ ?_
  · intro w r hw hr
    split at hr
    · next db hdb =>
      cases hr
      exact hok w db hw hdb
    · cases hr
  · intro w e hw _
    exact herr w hw

theorem stays_publish {eventBus : Bool} {event : DomainEvent}
    (h : ∀ w, I w → P q .publish w q { w with published := w.published ++ [event] }) :
    (publish eventBus event).Stays P I q := by
  unfold publish
  split
  · refine Prog.follows_atomically ?_ ?_
    · intro w r hw hr
      cases hr
      exact ⟨q, h w hw, rfl⟩
    · intro w e _ he
      cases he
  · exact Prog.stays_pure _

theorem stays_firstRow (rows : List α) : (firstRow rows).Stays P I q := by
  cases rows with
  | nil => exact Prog.follows_raise _ _
  | cons row rest => exact Prog.stays_pure row

theorem stays_refuseIf (refused : Bool) (error : ApiError) :
    (refuseIf refused error).Stays P I q := by
  cases refused with
  | false => exact Prog.stays_pure _
  | true => exact Prog.follows_raise _ _

end Query

end LavsCore

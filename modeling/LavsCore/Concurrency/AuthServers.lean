import LavsCore.Auth.Session
import LavsCore.Lib.Interleaving

/-!
# Servers on one auth database

As `Concurrency/Servers.lean`, for the statements of the auth lane: several server
processes, one request each, and every statement one step.
-/

namespace LavsCore

/-- Auth requests that are running at the same time. -/
abbrev AuthServers (α : Type) := Config AuthSql AuthWorld AuthError α

namespace AuthQuery

variable {α Q : Type} {P : Q → AuthSql → AuthWorld → Q → AuthWorld → Prop}
  {I : AuthWorld → Prop} {q q' : Q}

theorem follows_select {F : Q → α → Prop} {l : AuthSql} {f : AuthStore → α}
    (h : ∀ w, I w → ∃ q', P q l w q' w ∧ F q' (f w.db)) : (select l f).Follows P I F q :=
  Prog.follows_query h

theorem follows_execute {l : AuthSql} {f : AuthStore → AuthStore}
    (h : ∀ w, I w → P q l w q' { w with db := f w.db }) :
    (execute l f).Follows P I (fun q'' _ => q'' = q') q := by
  refine Prog.follows_atomically ?_ ?_
  · intro w r hw hr
    cases hr
    exact ⟨q', h w hw, rfl⟩
  · intro w e _ he
    cases he

theorem follows_insert {F : Q → PUnit → Prop} {backend : BackendKind} {l : AuthSql}
    {f : AuthStore → Except Refusal AuthStore}
    (hok : ∀ w db, I w → f w.db = .ok db → ∃ q', P q l w q' { w with db := db } ∧ F q' ⟨⟩)
    (herr : ∀ w refusal, I w → f w.db = .error refusal → ∃ q', P q l w q' w) :
    (insert backend l f).Follows P I F q := by
  refine Prog.follows_atomically ?_ ?_
  · intro w r hw hr
    split at hr
    · next db hdb =>
      cases hr
      exact hok w db hw hdb
    · cases hr
  · intro w e hw he
    split at he
    · cases he
    · next refusal hrefused => exact herr w refusal hw hrefused

theorem raisesOnly_execute {E : AuthError → Prop} (l : AuthSql) (f : AuthStore → AuthStore) :
    (execute l f).RaisesOnly E :=
  Prog.raisesOnly_atomically fun _ _ h => nomatch h

end AuthQuery

end LavsCore

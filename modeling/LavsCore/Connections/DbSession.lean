import LavsCore.Connections.StatementDialect

/-!
# Placeholders and percent signs

`DbSession` rewrites a statement twice, for the dialect and for the placeholder style of
the driver. A percent-based driver undoes the doubling of the percent signs when it puts
the parameters in, which it does only when there are parameters.

`placeholder_transparent_iff`: the engine runs the canonical statement, with the
parameters in their places, exactly if the style is not percent-based, the driver
interpolates, or there is neither a percent sign nor a placeholder in the statement; and
if the `LIMIT` clause does not begin inside the head of the statement.
-/

namespace LavsCore

/-! ## Placeholder styles -/

inductive ParamStyle where
  | qmark
  | pyformat
  deriving DecidableEq, Repr

/-- `text.replace(old, new)` for a single character. -/
def replaceChar (old : Char) (new : List Char) (text : List Char) : List Char :=
  text.flatMap fun c => if c = old then new else [c]

def ParamStyle.render (style : ParamStyle) (sql : List Char) : List Char :=
  match style with
  | .qmark => sql
  | .pyformat => replaceChar '?' ['%', 's'] (replaceChar '%' ['%', '%'] sql)

/-- The sign that begins whatever the driver does not take as it stands. -/
def ParamStyle.marker : ParamStyle → Char
  | .qmark => '?'
  | .pyformat => '%'

def ParamStyle.placeholder : ParamStyle → List Char
  | .qmark => ['?']
  | .pyformat => ['%', 's']

/-! ## Drivers -/

/-- What the engine is given: characters of the text and parameters. -/
inductive Fragment (P : Type) where
  | text (c : Char)
  | bound (param : P)
  deriving DecidableEq, Repr

/-- A database driver. Whether an empty list of parameters counts as parameters differs
from driver to driver. -/
structure Driver (P : Type) where
  style : ParamStyle
  interpolates : Option (List P) → Bool
  substitute : List Char → List P → Option (List (Fragment P))
  interpolates_none : interpolates none = false
  interpolates_cons (p : P) (ps : List P) : interpolates (some (p :: ps)) = true
  substitute_nil : substitute [] [] = some []
  substitute_placeholder (rest : List Char) (p : P) (ps : List P) :
    substitute (style.placeholder ++ rest) (p :: ps)
      = (substitute rest ps).map fun fragments => .bound p :: fragments
  substitute_percent (rest : List Char) (ps : List P) : style = .pyformat →
    substitute ('%' :: '%' :: rest) ps
      = (substitute rest ps).map fun fragments => .text '%' :: fragments
  substitute_text (c : Char) (rest : List Char) (ps : List P) : c ≠ style.marker →
    substitute (c :: rest) ps = (substitute rest ps).map fun fragments => .text c :: fragments

/-- The statement that the engine runs. -/
def Driver.run {P : Type} (driver : Driver P) (text : List Char) (params : Option (List P)) :
    Option (List (Fragment P)) :=
  if driver.interpolates params then driver.substitute text (params.getD [])
  else some (text.map .text)

/-! ## Sessions -/

section

variable {P Cursor : Type}

/-- `cursor.execute(sql)` or `cursor.execute(sql, params)`. -/
def executeOnCursor (cursor : List Char → Option (List P) → Cursor) (sql : List Char)
    (params : Option (List P)) : Cursor :=
  match params with
  | none => cursor sql none
  | some params => cursor sql (some params)

/-- `PyMySqlConnection.execute` -/
def PyMySqlConnection.execute (cursor : List Char → Option (List P) → Cursor) :
    List Char → Option (List P) → Cursor := executeOnCursor cursor

/-- `PyMssqlConnection.execute` -/
def PyMssqlConnection.execute (cursor : List Char → Option (List P) → Cursor) :
    List Char → Option (List P) → Cursor := executeOnCursor cursor

structure DbSession (P Cursor : Type) where
  connection : List Char → Option (List P) → Cursor
  paramStyle : ParamStyle
  statementDialect : StatementDialect := .ansi

def DbSession.execute (session : DbSession P Cursor) (sql : List Char)
    (params : Option (List P)) : Cursor :=
  let rendered := session.paramStyle.render (session.statementDialect.render sql)
  match params with
  | none => session.connection rendered none
  | some params => session.connection rendered (some params)

/-- What stands between a session and its driver. -/
inductive Wrapper where
  | native
  | pymysql
  | pymssql

def Wrapper.connection (wrapper : Wrapper) (driver : Driver P) :
    List Char → Option (List P) → Option (List (Fragment P)) :=
  match wrapper with
  | .native => driver.run
  | .pymysql => PyMySqlConnection.execute driver.run
  | .pymssql => PyMssqlConnection.execute driver.run

/-! ## What the statement should be -/

/-- The text of a fragment, where a parameter stands for its placeholder. -/
def Fragment.shown : Fragment P → Char
  | .text c => c
  | .bound _ => '?'

def Fragment.param? : Fragment P → Option P
  | .text _ => none
  | .bound param => some param

/-- The placeholders of the text stand for the parameters, in order, and the rest of the
text is unchanged. Without parameters the whole text is. -/
def StandsFor (text : List Char) (params : Option (List P)) (fragments : List (Fragment P)) :
    Prop :=
  match params with
  | none => fragments = text.map .text
  | some params =>
      fragments.map Fragment.shown = text ∧ fragments.filterMap Fragment.param? = params ∧
        Fragment.text '?' ∉ fragments

/-- The engine runs the canonical statement. -/
def Transparent (wrapper : Wrapper) (driver : Driver P) (dialect : StatementDialect)
    (sql : List Char) (params : Option (List P)) : Prop :=
  ∃ canonical fragments, Canonical dialect sql canonical ∧ StandsFor canonical params fragments ∧
    (DbSession.execute ⟨wrapper.connection driver, driver.style, dialect⟩ sql params
      = some fragments)

/-! ## Rendering, character by character -/

/-- The rendered form of a character of the statement. -/
def ParamStyle.renderChar (style : ParamStyle) (c : Char) : List Char :=
  match style with
  | .qmark => [c]
  | .pyformat => if c = '%' then ['%', '%'] else if c = '?' then ['%', 's'] else [c]

theorem ParamStyle.render_cons (style : ParamStyle) (c : Char) (rest : List Char) :
    style.render (c :: rest) = style.renderChar c ++ style.render rest := by
  cases style with
  | qmark => rfl
  | pyformat =>
    simp only [ParamStyle.render, replaceChar, List.flatMap_cons, List.flatMap_append]
    congr 1
    unfold ParamStyle.renderChar
    split
    · rfl
    · next hpercent => simp

theorem ParamStyle.renderChar_placeholder (style : ParamStyle) :
    style.renderChar '?' = style.placeholder := by
  cases style <;> rfl

theorem ParamStyle.render_nil (style : ParamStyle) : style.render [] = [] := by
  cases style <;> rfl

/-- A percent-based style changes every sign, and leaves a text without signs as it is. -/
theorem render_eq_self {style : ParamStyle} {text : List Char}
    (h : style = .pyformat → '%' ∉ text ∧ '?' ∉ text) : style.render text = text := by
  cases style with
  | qmark => rfl
  | pyformat =>
    obtain ⟨hpercent, hmark⟩ := h rfl
    induction text with
    | nil => rfl
    | cons c rest ih =>
      simp only [List.mem_cons, not_or] at hpercent hmark
      rw [ParamStyle.render_cons, ih (fun _ => ⟨hpercent.2, hmark.2⟩) hpercent.2 hmark.2]
      simp [ParamStyle.renderChar, Ne.symm hpercent.1, Ne.symm hmark.1]

theorem count_percent_render (text : List Char) :
    (ParamStyle.pyformat.render text).count '%' = 2 * text.count '%' + text.count '?' := by
  induction text with
  | nil => rfl
  | cons c rest ih =>
    rw [ParamStyle.render_cons, List.count_append, ih]
    simp only [ParamStyle.renderChar, List.count_cons]
    split
    · next hc =>
      subst hc
      simp
      omega
    · next hpercent =>
      split
      · next hc =>
        subst hc
        simp
        omega
      · next hmark => simp [hpercent, hmark]

theorem Driver.substitute_renderChar (driver : Driver P) {c : Char} (hc : c ≠ '?')
    (rest : List Char) (ps : List P) :
    driver.substitute (driver.style.renderChar c ++ rest) ps
      = (driver.substitute rest ps).map fun fragments => .text c :: fragments := by
  cases hstyle : driver.style with
  | qmark =>
    exact driver.substitute_text c rest ps (by rw [hstyle]; exact hc)
  | pyformat =>
    simp only [ParamStyle.renderChar]
    split
    · next hc =>
      subst hc
      exact driver.substitute_percent rest ps hstyle
    · next hpercent =>
      exact driver.substitute_text c rest ps (by rw [hstyle]; exact hpercent)

/-- Rendering and interpolation cancel. -/
theorem Driver.substitute_render (driver : Driver P) {text : List Char} {ps : List P}
    (matching : ps.length = text.count '?') :
    ∃ fragments, driver.substitute (driver.style.render text) ps = some fragments ∧
      StandsFor text (some ps) fragments := by
  induction text generalizing ps with
  | nil =>
    have hps : ps = [] := List.length_eq_zero_iff.mp matching
    subst hps
    rw [ParamStyle.render_nil]
    exact ⟨[], driver.substitute_nil, rfl, rfl, List.not_mem_nil⟩
  | cons c rest ih =>
    rw [ParamStyle.render_cons]
    rcases Classical.em (c = '?') with rfl | hc
    · cases ps with
      | nil => simp at matching
      | cons p ps =>
        have hrest : ps.length = rest.count '?' := by simpa using matching
        obtain ⟨fragments, hrun, htext, hbound, hmark⟩ := ih hrest
        rw [ParamStyle.renderChar_placeholder, driver.substitute_placeholder, hrun]
        exact ⟨_, rfl, by simp [Fragment.shown, htext], by simp [Fragment.param?, hbound],
          by simpa using hmark⟩
    · have hrest : ps.length = rest.count '?' := by simpa [hc] using matching
      obtain ⟨fragments, hrun, htext, hbound, hmark⟩ := ih hrest
      rw [driver.substitute_renderChar hc, hrun]
      exact ⟨_, rfl, by simp [Fragment.shown, htext], hbound,
        by simpa [Ne.symm hc] using hmark⟩

theorem StandsFor.text_eq {text : List Char} {params : Option (List P)}
    {fragments : List (Fragment P)} (h : StandsFor text params fragments) :
    fragments.map Fragment.shown = text := by
  cases params with
  | none =>
    obtain rfl := h
    simp [Fragment.shown, Function.comp_def]
  | some params => exact h.1

/-- A text without placeholders stands for itself. -/
theorem standsFor_text {text : List Char} {params : Option (List P)}
    (h : ∀ ps, params = some ps → ps = [] ∧ '?' ∉ text) :
    StandsFor text params (text.map .text) := by
  cases params with
  | none => rfl
  | some params =>
    obtain ⟨rfl, hmark⟩ := h params rfl
    refine ⟨?_, ?_, by simpa using hmark⟩
    · simp [Fragment.shown, Function.comp_def]
    · simp [Fragment.param?, List.filterMap_map, Function.comp_def]

/-! ## The whole path -/

/-- A driver that interpolates undoes the rendering. -/
theorem Driver.run_interpolated_iff (driver : Driver P) {text canonical : List Char}
    {params : Option (List P)} (interpolates : driver.interpolates params = true)
    (matching : ∀ ps, params = some ps → ps.length = text.count '?') :
    (∃ fragments, StandsFor canonical params fragments ∧
      driver.run (driver.style.render text) params = some fragments) ↔ canonical = text := by
  cases params with
  | none =>
    rw [driver.interpolates_none] at interpolates
    cases interpolates
  | some ps =>
    obtain ⟨fragments, hsubstitute, hstands⟩ := driver.substitute_render (matching ps rfl)
    have hrun : driver.run (driver.style.render text) (some ps) = some fragments := by
      unfold Driver.run
      rw [if_pos interpolates]
      exact hsubstitute
    constructor
    · rintro ⟨other, hother, hsame⟩
      obtain rfl := Option.some.inj (hrun.symm.trans hsame)
      exact hother.text_eq.symm.trans hstands.text_eq
    · rintro rfl
      exact ⟨fragments, hstands, hrun⟩

/-- One that does not interpolate runs the rendered text as it stands, so the text has to be
its own rendering. -/
theorem Driver.run_verbatim_iff (driver : Driver P) {text canonical : List Char}
    {params : Option (List P)} (verbatim : driver.interpolates params = false)
    (matching : ∀ ps, params = some ps → ps.length = text.count '?')
    (percents : canonical.count '%' = text.count '%') :
    (∃ fragments, StandsFor canonical params fragments ∧
        driver.run (driver.style.render text) params = some fragments) ↔
      canonical = text ∧ (driver.style = .pyformat → '%' ∉ text ∧ '?' ∉ text) := by
  have hrun : driver.run (driver.style.render text) params
      = some ((driver.style.render text).map .text) := by
    unfold Driver.run
    rw [if_neg (by simp [verbatim])]
  constructor
  · rintro ⟨fragments, hstands, hsame⟩
    obtain rfl := Option.some.inj (hrun.symm.trans hsame)
    have htext : canonical = driver.style.render text := by
      rw [← hstands.text_eq]
      simp [Fragment.shown, Function.comp_def]
    -- rendering a sign adds a percent sign
    have hsigns : driver.style = .pyformat → '%' ∉ text ∧ '?' ∉ text := by
      intro hstyle
      rw [htext, hstyle, count_percent_render] at percents
      exact ⟨List.count_eq_zero.mp (by omega), List.count_eq_zero.mp (by omega)⟩
    exact ⟨htext.trans (render_eq_self hsigns), hsigns⟩
  · rintro ⟨rfl, hsigns⟩
    rw [render_eq_self hsigns] at hrun ⊢
    refine ⟨_, standsFor_text fun ps hps => ?_, hrun⟩
    subst hps
    cases ps with
    | nil => exact ⟨rfl, List.count_eq_zero.mp (matching [] rfl).symm⟩
    | cons p ps =>
      rw [driver.interpolates_cons] at verbatim
      cases verbatim

theorem execute_eq (wrapper : Wrapper) (driver : Driver P) (dialect : StatementDialect)
    (sql : List Char) (params : Option (List P)) :
    DbSession.execute ⟨wrapper.connection driver, driver.style, dialect⟩ sql params
      = driver.run (driver.style.render (dialect.render sql)) params := by
  cases params <;> cases wrapper <;> rfl

/-- The engine runs the statement as it was written, each `?` with its parameter, exactly if there
is neither `%` nor `?` in it where the marks are `%s` and the driver does not interpolate, and no
`LIMIT` in its head where the dialect is T-SQL. -/
theorem placeholder_transparent_iff (wrapper : Wrapper) (driver : Driver P)
    (dialect : StatementDialect) (sql : List Char) (params : Option (List P))
    (matching : ∀ ps, params = some ps → ps.length = sql.count '?') :
    Transparent wrapper driver dialect sql params ↔
      (driver.style = .pyformat → driver.interpolates params = false →
        '%' ∉ sql ∧ '?' ∉ sql) ∧ (dialect = .tsql → ¬ LimitInHead sql) := by
  have hmarks : (dialect.render sql).count '?' = sql.count '?' := count_render dialect sql rfl
  have hpercents : (dialect.render sql).count '%' = sql.count '%' := count_render dialect sql rfl
  have hsigns : '%' ∉ sql ∧ '?' ∉ sql ↔ '%' ∉ dialect.render sql ∧ '?' ∉ dialect.render sql := by
    simp only [← List.count_eq_zero, hmarks, hpercents]
  have hmatching : ∀ ps, params = some ps → ps.length = (dialect.render sql).count '?' :=
    fun ps hps => (matching ps hps).trans hmarks.symm
  unfold Transparent
  simp only [execute_eq]
  rw [← render_canonical_iff, hsigns]
  cases hinterpolates : driver.interpolates params with
  | true =>
    constructor
    · rintro ⟨canonical, fragments, hcanonical, hran⟩
      obtain rfl := (driver.run_interpolated_iff hinterpolates hmatching).mp ⟨fragments, hran⟩
      exact ⟨by simp, hcanonical⟩
    · rintro ⟨-, hcanonical⟩
      obtain ⟨fragments, hran⟩ :=
        (driver.run_interpolated_iff hinterpolates hmatching).mpr rfl
      exact ⟨_, fragments, hcanonical, hran⟩
  | false =>
    constructor
    · rintro ⟨canonical, fragments, hcanonical, hran⟩
      have hpercent := (hcanonical.count_eq rfl).trans hpercents.symm
      obtain ⟨rfl, hnone⟩ :=
        (driver.run_verbatim_iff hinterpolates hmatching hpercent).mp ⟨fragments, hran⟩
      exact ⟨fun hstyle _ => hnone hstyle, hcanonical⟩
    · rintro ⟨hnone, hcanonical⟩
      obtain ⟨fragments, hran⟩ :=
        (driver.run_verbatim_iff hinterpolates hmatching rfl).mpr
          ⟨rfl, fun hstyle => hnone hstyle rfl⟩
      exact ⟨_, fragments, hcanonical, hran⟩

/-! ## A percent-based driver -/

/-- `text % params`, for the two conversions `%%` and `%s`. -/
def percentFormat : List Char → List P → Option (List (Fragment P))
  | [], [] => some []
  | [], _ :: _ => none
  | c :: rest, ps =>
      if c ≠ '%' then (percentFormat rest ps).map fun fragments => .text c :: fragments
      else
        match rest, ps with
        | '%' :: rest, ps =>
            (percentFormat rest ps).map fun fragments => .text '%' :: fragments
        | 's' :: rest, p :: ps =>
            (percentFormat rest ps).map fun fragments => .bound p :: fragments
        | _, _ => none

/-- It interpolates whenever it is given a list, be it empty. -/
def Driver.percent : Driver P where
  style := .pyformat
  interpolates := Option.isSome
  substitute := percentFormat
  interpolates_none := rfl
  interpolates_cons _ _ := rfl
  substitute_nil := rfl
  substitute_placeholder _ _ _ := rfl
  substitute_percent _ _ _ := rfl
  substitute_text c rest ps hc := by
    have hpercent : c ≠ '%' := hc
    conv_lhs => unfold percentFormat
    exact if_pos hpercent

theorem placeholder_transparent_parameters :
    Transparent .pymysql Driver.percent .tsql
      "SELECT id FROM t WHERE name LIKE '%foo%' AND id = ? LIMIT 1".toList (some [7]) :=
  (placeholder_transparent_iff .pymysql Driver.percent .tsql _ (some [7])
    (by rintro ps ⟨⟩; decide)).mpr ⟨by decide, fun _ => by decide +kernel⟩

/-- Without parameters the driver does not undo the doubling. -/
theorem parameterless_percent_doubled :
    Canonical .ansi "SELECT id FROM t WHERE name LIKE '%foo%'".toList
        "SELECT id FROM t WHERE name LIKE '%foo%'".toList ∧
      DbSession.execute ⟨Wrapper.pymysql.connection (Driver.percent (P := Nat)), .pyformat, .ansi⟩
          "SELECT id FROM t WHERE name LIKE '%foo%'".toList none
        = some ("SELECT id FROM t WHERE name LIKE '%%foo%%'".toList.map .text) ∧
      ¬ Transparent .pymysql (Driver.percent (P := Nat)) .ansi
        "SELECT id FROM t WHERE name LIKE '%foo%'".toList none := by
  have hexecute : DbSession.execute
      ⟨Wrapper.pymysql.connection (Driver.percent (P := Nat)), .pyformat, .ansi⟩
        "SELECT id FROM t WHERE name LIKE '%foo%'".toList none
      = some ("SELECT id FROM t WHERE name LIKE '%%foo%%'".toList.map .text) := by
    decide +kernel
  refine ⟨.ansi _, hexecute, ?_⟩
  rintro ⟨canonical, fragments, hcanonical, hstands, hrun⟩
  cases hcanonical
  obtain rfl := hstands
  -- the engine is given two characters more
  have hlength := congrArg List.length (Option.some.inj (hexecute.symm.trans hrun))
  exact absurd hlength (by decide)

end

end LavsCore

import LavsCore.Lib.Scan
import LavsCore.Python.Text
import Mathlib.Data.List.Induction

/-!
# Statement dialects

SQL Server has no `LIMIT`: its dialect moves a trailing `LIMIT n` to a `TOP n` behind the
leading `SELECT`. A statement is the list of its characters.

`render_canonical_iff`: the rewrite is the one that the dialect describes (`Canonical`)
exactly if the clause does not begin inside the head of the statement, as it does in
`SELECT LIMIT 5`. There the code joins `SELECT` and `TOP`.
-/

namespace LavsCore

open Scan

/-! ## The two patterns -/

/-- The characters that match a capital letter under `re.IGNORECASE`: four of them
are outside ASCII. -/
def caseVariants (letter : Char) : List Char :=
  if letter = 'I' then ['I', 'i', '\u0130', '\u0131']
  else if letter = 'S' then ['S', 's', '\u017f']
  else [letter, letter.toLower]

def keyword (word : String) : List (Piece Char) :=
  word.toList.map fun letter => .one fun c => (caseVariants letter).contains c

/-- `\s+` -/
def spaces : Piece Char := .plus Py.isWhitespace

/-- The class `\d`. -/
def isDecimal (c : Char) : Bool := (Py.digit? c).isSome

/-- `\s+LIMIT\s+` -/
def limitHead : List (Piece Char) := spaces :: (keyword "LIMIT" ++ [spaces])

/-- `SELECT\s+` -/
def plainHead : List (Piece Char) := keyword "SELECT" ++ [spaces]

/-- `SELECT\s+DISTINCT\s+` -/
def distinctHead : List (Piece Char) := plainHead ++ (keyword "DISTINCT" ++ [spaces])

/-- `\s+LIMIT\s+(\d+)\s*\Z` from the front of the text on; returns the group. -/
def limitHere (text : List Char) : Option (List Char) :=
  match scan limitHead text with
  | none => none
  | some (_, rest) =>
      if rest.takeWhile isDecimal ≠ [] ∧ (rest.dropWhile isDecimal).all Py.isWhitespace = true then
        some (rest.takeWhile isDecimal)
      else none

/-- `_TRAILING_LIMIT.search`: what stands before the clause, and its number. -/
def trailingLimit : List Char → Option (List Char × List Char) := search limitHere

/-- `_SELECT_HEAD.match`: the optional group is tried first. -/
def selectHead (sql : List Char) : Option (List Char) :=
  ((scan distinctHead sql).or (scan plainHead sql)).map Prod.fst

inductive StatementDialect where
  | ansi
  | tsql
  deriving DecidableEq, Repr

def StatementDialect.render (dialect : StatementDialect) (sql : List Char) : List Char :=
  match dialect with
  | .ansi => sql
  | .tsql =>
      match trailingLimit sql with
      | none => sql
      | some (body, count) =>
          match selectHead sql with
          | none => sql
          | some head =>
              body.take head.length ++ "TOP ".toList ++ count ++ [' '] ++ body.drop head.length

/-! ## What the rewrite is for -/

def SelectHead (head : List Char) : Prop := Matches plainHead head ∨ Matches distinctHead head

/-- The leading `SELECT` of a statement, with its `DISTINCT` and the white space after it. -/
def LeadingSelect (sql head : List Char) : Prop :=
  (SelectHead head ∧ head <+: sql) ∧
    ∀ other, SelectHead other → other <+: sql → other.length ≤ head.length

def LimitClause (clause count : List Char) : Prop :=
  ∃ lead trail, clause = lead ++ count ++ trail ∧ Matches limitHead lead ∧
    (count ≠ [] ∧ ∀ c ∈ count, isDecimal c = true) ∧ ∀ c ∈ trail, Py.isWhitespace c = true

/-- A `SELECT` of something, with a trailing `LIMIT count`. -/
structure LimitedSelect (sql head columns count : List Char) : Prop where
  leading : LeadingSelect sql head
  clause : ∃ clause, LimitClause clause count ∧ sql = head ++ columns ++ clause
  selected : ∃ c, columns.getLast? = some c ∧ Py.isWhitespace c = false

/-- The statement in the words of an engine. -/
inductive Canonical : StatementDialect → List Char → List Char → Prop
  | ansi (sql : List Char) : Canonical .ansi sql sql
  | moved {sql head columns count : List Char} (limited : LimitedSelect sql head columns count) :
      Canonical .tsql sql (head ++ "TOP ".toList ++ count ++ [' '] ++ columns)
  | kept {sql : List Char}
      (unlimited : ∀ head columns count, ¬ LimitedSelect sql head columns count) :
      Canonical .tsql sql sql

/-- The trailing `LIMIT` begins before the head of the statement ends. -/
def LimitInHead (sql : List Char) : Prop :=
  ∃ head clause count, LeadingSelect sql head ∧ LimitClause clause count ∧ clause <:+ sql ∧
    sql.length < head.length + clause.length

/-! ## Keywords, spaces and digits -/

theorem caseVariants_letter : ∀ letter ∈ "SELECTDISTINCTLIMIT".toList, ∀ c ∈ caseVariants letter,
    Py.isWhitespace c = false ∧ isDecimal c = false := by
  have hall : ("SELECTDISTINCTLIMIT".toList.all fun letter => (caseVariants letter).all fun c =>
      !Py.isWhitespace c && !isDecimal c) = true := by decide
  simpa only [List.all_eq_true, Bool.and_eq_true, Bool.not_eq_true'] using hall

theorem not_isWhitespace_of_isDecimal {c : Char} (h : isDecimal c = true) :
    Py.isWhitespace c = false := by
  obtain ⟨z, hz, hlow, hhigh⟩ := Py.exists_zero_of_digit? h
  have hblocks : ∀ z ∈ Py.digitZeros, 0x30 ≤ z := by decide
  have hblock := hblocks z hz
  simp only [Py.isWhitespace, Py.not_isSpace_of_digit? h, Bool.false_or, Bool.and_eq_false_iff,
    decide_eq_false_iff_not]
  omega

/-- A character of a keyword is neither white space nor a digit. -/
theorem matches_keyword {word : String} {text : List Char} (matched : Matches (keyword word) text) :
    text.length = word.toList.length ∧
      ∀ c ∈ text, ∃ letter ∈ word.toList, c ∈ caseVariants letter := by
  unfold keyword at matched
  generalize word.toList = letters at matched ⊢
  induction letters generalizing text with
  | nil =>
    cases matched
    simp
  | cons letter letters ih =>
    obtain ⟨_, back, rfl, ⟨c, rfl, hc⟩, hback⟩ := matched
    obtain ⟨hlength, hletters⟩ := ih hback
    refine ⟨by simp [hlength], fun x hx => ?_⟩
    rcases List.mem_cons.mp hx with rfl | hx
    · exact ⟨letter, List.mem_cons_self, List.contains_iff_mem.mp hc⟩
    · obtain ⟨other, hother, hmem⟩ := hletters x hx
      exact ⟨other, List.mem_cons_of_mem _ hother, hmem⟩

theorem delimited_limitHead : Delimited limitHead := by
  refine ⟨fun c hc => ?_, trivial⟩
  exact (caseVariants_letter 'L' (by decide) c (List.contains_iff_mem.mp hc)).1

theorem delimited_plainHead : Delimited plainHead := trivial

theorem delimited_distinctHead : Delimited distinctHead := by
  refine ⟨fun c hc => ?_, trivial⟩
  exact (caseVariants_letter 'D' (by decide) c (List.contains_iff_mem.mp hc)).1

/-! ## The trailing clause -/

theorem limitHere_eq_some_iff {text count : List Char} :
    limitHere text = some count ↔ LimitClause text count := by
  constructor
  · intro found
    unfold limitHere at found
    split at found
    · cases found
    · next lead rest hscan =>
      obtain ⟨rfl, matched⟩ := scan_sound hscan
      split at found
      · next hdigits =>
        obtain rfl := Option.some.inj found
        refine ⟨lead, rest.dropWhile isDecimal, ?_, matched,
          ⟨hdigits.1, fun c hc => List.mem_takeWhile_imp hc⟩,
          fun c hc => List.all_eq_true.mp hdigits.2 c hc⟩
        rw [List.append_assoc, List.takeWhile_append_dropWhile]
      · cases found
  · rintro ⟨lead, trail, rfl, matched, ⟨nonempty, digits⟩, spaces⟩
    have hlead : lastRun limitHead = Py.isWhitespace := rfl
    -- the digits end the white space before them, the white space behind ends the digits
    have hcount : (count ++ trail).takeWhile Py.isWhitespace = [] := by
      cases count with
      | nil => exact absurd rfl nonempty
      | cons d rest => simp [not_isWhitespace_of_isDecimal (digits d List.mem_cons_self)]
    have hrest : (count ++ trail).dropWhile Py.isWhitespace = count ++ trail := by
      have happend := List.takeWhile_append_dropWhile (p := Py.isWhitespace) (l := count ++ trail)
      rwa [hcount, List.nil_append] at happend
    have hstop : trail.takeWhile isDecimal = [] ∧ trail.dropWhile isDecimal = trail := by
      cases trail with
      | nil => exact ⟨rfl, rfl⟩
      | cons c rest =>
        have hc : isDecimal c = false := by
          cases hdigit : isDecimal c with
          | false => rfl
          | true =>
            have hspace := not_isWhitespace_of_isDecimal hdigit
            rw [spaces c List.mem_cons_self] at hspace
            cases hspace
        simp [hc]
    have htake : (count ++ trail).takeWhile isDecimal = count := by
      rw [List.takeWhile_append_of_pos digits, hstop.1, List.append_nil]
    have hdrop : (count ++ trail).dropWhile isDecimal = trail := by
      rw [List.dropWhile_append_of_pos digits, hstop.2]
    unfold limitHere
    rw [List.append_assoc, scan_of_matches delimited_limitHead matched, hlead, hcount, hrest]
    simp only [htake, hdrop]
    rw [if_pos ⟨nonempty, List.all_eq_true.mpr spaces⟩]

/-- A letter of the statement, as far as the clause is concerned. -/
def isLetter (c : Char) : Bool := !Py.isWhitespace c && !isDecimal c

theorem isLetter_of_keyword {c : Char} {word : String} {text : List Char}
    (matched : Matches (keyword word) text) (hword : word.toList ⊆ "SELECTDISTINCTLIMIT".toList)
    (hc : c ∈ text) : isLetter c = true := by
  obtain ⟨letter, hletter, hvariant⟩ := (matches_keyword matched).2 c hc
  obtain ⟨hspace, hdigit⟩ := caseVariants_letter letter (hword hletter) c hvariant
  simp [isLetter, hspace, hdigit]

/-- White space, `LIMIT`, and then only white space and digits. -/
theorem LimitClause.parts {clause count : List Char} (limit : LimitClause clause count) :
    ∃ before word after, clause = before ++ word ++ after ∧
      (before ≠ [] ∧ ∀ c ∈ before, Py.isWhitespace c = true) ∧
      Matches (keyword "LIMIT") word ∧ ∀ c ∈ after, isLetter c = false := by
  obtain ⟨lead, trail, rfl, matched, ⟨-, digits⟩, hspaces⟩ := limit
  obtain ⟨before, _, rfl, hbefore, matched⟩ := matched
  obtain ⟨word, gap, rfl, hword, matched⟩ := matches_append.mp matched
  obtain ⟨gap, _, rfl, ⟨-, hgap⟩, rfl⟩ := matched
  refine ⟨before, word, gap ++ count ++ trail, by simp, hbefore, hword, fun c hc => ?_⟩
  simp only [List.mem_append] at hc
  rcases hc with (hc | hc) | hc
  · simp [isLetter, hgap c hc]
  · simp [isLetter, digits c hc]
  · simp [isLetter, hspaces c hc]

theorem LimitClause.countP_isLetter {clause count : List Char} (limit : LimitClause clause count) :
    clause.countP isLetter = 5 := by
  obtain ⟨before, word, after, rfl, ⟨-, hbefore⟩, hword, hafter⟩ := limit.parts
  have hletters : word.countP isLetter = word.length :=
    List.countP_eq_length.mpr fun c hc => isLetter_of_keyword hword (by decide) hc
  have hnone : before.countP isLetter = 0 :=
    List.countP_eq_zero.mpr fun c hc => by simp [isLetter, hbefore c hc]
  have hrest : after.countP isLetter = 0 :=
    List.countP_eq_zero.mpr fun c hc => by simp [hafter c hc]
  have hlength : word.length = 5 := (matches_keyword hword).1
  simp only [List.countP_append]
  omega

theorem LimitClause.cons {clause count : List Char} (limit : LimitClause clause count) {c : Char}
    (space : Py.isWhitespace c = true) : LimitClause (c :: clause) count := by
  obtain ⟨lead, trail, rfl, ⟨before, rest, rfl, ⟨-, hbefore⟩, matched⟩, hcount, htrail⟩ := limit
  refine ⟨c :: before ++ rest, trail, by simp, ⟨c :: before, rest, rfl, ⟨by simp, ?_⟩, matched⟩,
    hcount, htrail⟩
  exact List.forall_mem_cons.mpr ⟨space, hbefore⟩

/-- A clause that ends in a clause has only more white space at its front. -/
theorem LimitClause.isWhitespace_of_append {back clause count count' : List Char}
    (inner : LimitClause clause count) (outer : LimitClause (back ++ clause) count') :
    ∀ c ∈ back, Py.isWhitespace c = true := by
  have hcount := outer.countP_isLetter
  rw [List.countP_append, inner.countP_isLetter] at hcount
  have hback : ∀ c ∈ back, isLetter c = false := by
    have hzero : back.countP isLetter = 0 := by omega
    exact fun c hc => Bool.eq_false_iff.mpr (List.countP_eq_zero.mp hzero c hc)
  obtain ⟨before, word, after, hsplit, ⟨-, hbefore⟩, hword, -⟩ := outer.parts
  rw [List.append_assoc] at hsplit
  rcases List.append_eq_append_iff.mp hsplit with ⟨more, rfl, -⟩ | ⟨more, rfl, hmore⟩
  · exact fun c hc => hbefore c (List.mem_append_left _ hc)
  · -- whatever of `back` is behind the white space begins with a letter of `LIMIT`
    cases more with
    | nil =>
      rw [List.append_nil]
      exact hbefore
    | cons c more =>
      have hlength : word.length = 5 := (matches_keyword hword).1
      cases word with
      | nil => cases hlength
      | cons d word =>
        obtain ⟨rfl, -⟩ := List.cons.inj hmore
        have hletter : isLetter d = true :=
          isLetter_of_keyword hword (by decide) List.mem_cons_self
        rw [hback d (by simp)] at hletter
        cases hletter

theorem trailingLimit_eq_some_iff {sql body count : List Char} :
    trailingLimit sql = some (body, count) ↔
      (∀ c, body.getLast? = some c → Py.isWhitespace c = false) ∧
        ∃ clause, LimitClause clause count ∧ sql = body ++ clause := by
  unfold trailingLimit
  rw [search_eq_some_iff]
  constructor
  · rintro ⟨clause, rfl, hhere, earlier⟩
    have hclause : LimitClause clause count := limitHere_eq_some_iff.mp hhere
    refine ⟨fun c hlast => ?_, clause, hclause, rfl⟩
    obtain ⟨front, rfl⟩ := List.getLast?_eq_some_iff.mp hlast
    cases hspace : Py.isWhitespace c with
    | false => rfl
    | true =>
      have hmore := limitHere_eq_some_iff.mpr (hclause.cons hspace)
      have hnone := earlier front [c] rfl (by simp)
      rw [List.singleton_append, hmore] at hnone
      cases hnone
  · rintro ⟨hlast, clause, hclause, rfl⟩
    refine ⟨clause, rfl, limitHere_eq_some_iff.mpr hclause, ?_⟩
    rintro front back rfl nonempty
    cases hhere : limitHere (back ++ clause) with
    | none => rfl
    | some count' =>
      have hspaces := hclause.isWhitespace_of_append (limitHere_eq_some_iff.mp hhere)
      have hend := hlast (back.getLast nonempty) (by
        rw [List.getLast?_append, List.getLast?_eq_some_getLast nonempty]
        rfl)
      rw [hspaces _ (List.getLast_mem nonempty)] at hend
      cases hend

/-- Where a text ends in a clause, one is found, and not behind it. -/
theorem exists_trailingLimit {clause count : List Char} (limit : LimitClause clause count)
    (front : List Char) :
    ∃ body, trailingLimit (front ++ clause) = some (body, count) ∧ body.length ≤ front.length := by
  induction front using List.reverseRecOn generalizing clause with
  | nil => exact ⟨[], trailingLimit_eq_some_iff.mpr ⟨by simp, clause, limit, rfl⟩, by simp⟩
  | append_singleton front c ih =>
    cases hspace : Py.isWhitespace c with
    | true =>
      obtain ⟨body, hbody, hle⟩ := ih (limit.cons hspace)
      refine ⟨body, by simpa using hbody, ?_⟩
      rw [List.length_append]
      omega
    | false =>
      refine ⟨front ++ [c], trailingLimit_eq_some_iff.mpr ⟨?_, clause, limit, rfl⟩, le_refl _⟩
      intro last hlast
      rw [List.getLast?_concat] at hlast
      obtain rfl := Option.some.inj hlast
      exact hspace

/-! ## The leading select -/

theorem exists_selectHead {sql other : List Char} (hother : SelectHead other)
    (hstarts : other <+: sql) :
    ∃ longest, selectHead sql = some longest ∧ other.length ≤ longest.length := by
  unfold selectHead
  rcases hother with hplain | hdistinct
  · obtain ⟨taken, rest, hscan, htaken⟩ := prefix_scan delimited_plainHead hplain hstarts
    have hboth : scan distinctHead sql
        = (scan (keyword "DISTINCT" ++ [spaces]) rest).map fun m => (taken ++ m.1, m.2) := by
      show scan (plainHead ++ _) sql = _
      rw [scan_append, hscan]
      rfl
    rw [hscan, hboth]
    cases scan (keyword "DISTINCT" ++ [spaces]) rest with
    | none => exact ⟨taken, rfl, htaken.length_le⟩
    | some m =>
      refine ⟨taken ++ m.1, rfl, ?_⟩
      have hle := htaken.length_le
      rw [List.length_append]
      omega
  · obtain ⟨taken, rest, hscan, htaken⟩ := prefix_scan delimited_distinctHead hdistinct hstarts
    rw [hscan]
    exact ⟨taken, rfl, htaken.length_le⟩

theorem selectHead_eq_some_iff {sql head : List Char} :
    selectHead sql = some head ↔ LeadingSelect sql head := by
  have hsound : ∀ found, selectHead sql = some found → SelectHead found ∧ found <+: sql := by
    intro found hselect
    obtain ⟨⟨word, rest⟩, hscan, rfl⟩ := Option.map_eq_some_iff.mp hselect
    rcases Option.or_eq_some_iff.mp hscan with hdistinct | ⟨-, hplain⟩
    · obtain ⟨rfl, matched⟩ := scan_sound hdistinct
      exact ⟨Or.inr matched, List.prefix_append _ _⟩
    · obtain ⟨rfl, matched⟩ := scan_sound hplain
      exact ⟨Or.inl matched, List.prefix_append _ _⟩
  constructor
  · intro hselect
    refine ⟨hsound head hselect, fun other hother hstarts => ?_⟩
    obtain ⟨longest, hlongest, hle⟩ := exists_selectHead hother hstarts
    rw [hselect] at hlongest
    rw [Option.some.inj hlongest]
    exact hle
  · rintro ⟨⟨hhead, hstarts⟩, hmax⟩
    obtain ⟨longest, hlongest, hle⟩ := exists_selectHead hhead hstarts
    obtain ⟨hselect, hfront⟩ := hsound longest hlongest
    have hlength : longest.length = head.length := by
      have hle' := hmax longest hselect hfront
      omega
    rw [hlongest, List.prefix_of_prefix_length_le hfront hstarts (by omega) |>.eq_of_length hlength]

/-- The head of a statement ends in white space. -/
theorem SelectHead.getLast? {head : List Char} (select : SelectHead head) :
    ∃ c, head.getLast? = some c ∧ Py.isWhitespace c = true := by
  have hend : ∀ word, Matches (word ++ [spaces]) head →
      ∃ c, head.getLast? = some c ∧ Py.isWhitespace c = true := by
    intro word matched
    obtain ⟨front, _, rfl, -, gap, _, rfl, ⟨nonempty, hspaces⟩, rfl⟩ := matches_append.mp matched
    refine ⟨gap.getLast nonempty, ?_, hspaces _ (List.getLast_mem nonempty)⟩
    rw [List.append_nil, List.getLast?_append, List.getLast?_eq_some_getLast nonempty]
    rfl
  rcases select with hplain | hdistinct
  · exact hend (keyword "SELECT") hplain
  · refine hend (plainHead ++ keyword "DISTINCT") ?_
    rw [List.append_assoc]
    exact hdistinct

/-! ## The rewrite -/

namespace LimitedSelect

variable {sql head columns count : List Char}

theorem selectHead_eq (limited : LimitedSelect sql head columns count) :
    selectHead sql = some head :=
  selectHead_eq_some_iff.mpr limited.leading

theorem trailingLimit_eq (limited : LimitedSelect sql head columns count) :
    trailingLimit sql = some (head ++ columns, count) := by
  refine trailingLimit_eq_some_iff.mpr ⟨fun c hlast => ?_, limited.clause⟩
  obtain ⟨last, hcolumns, hlast'⟩ := limited.selected
  rw [List.getLast?_append, hcolumns] at hlast
  obtain rfl := Option.some.inj hlast
  exact hlast'

theorem render_eq (limited : LimitedSelect sql head columns count) :
    StatementDialect.tsql.render sql = head ++ "TOP ".toList ++ count ++ [' '] ++ columns := by
  simp only [StatementDialect.render, limited.trailingLimit_eq, limited.selectHead_eq,
    List.take_left, List.drop_left]

end LimitedSelect

/-- A clause behind the head is behind something that is selected. -/
theorem limitedSelect_of_le {sql head body count : List Char} (hhead : selectHead sql = some head)
    (hlimit : trailingLimit sql = some (body, count)) (hle : head.length ≤ body.length) :
    LimitedSelect sql head (body.drop head.length) count := by
  have leading := selectHead_eq_some_iff.mp hhead
  obtain ⟨hlast, clause, hclause, hsql⟩ := trailingLimit_eq_some_iff.mp hlimit
  have hfront : head <+: body :=
    List.prefix_of_prefix_length_le leading.1.2 (hsql ▸ List.prefix_append _ _) hle
  obtain ⟨columns, rfl⟩ := hfront
  rw [List.drop_left]
  refine ⟨leading, ⟨clause, hclause, hsql⟩, ?_⟩
  obtain ⟨c, hc, hspace⟩ := leading.1.1.getLast?
  cases hcolumns : columns.getLast? with
  | some last =>
    refine ⟨last, rfl, hlast last ?_⟩
    rw [List.getLast?_append, hcolumns]
    rfl
  | none =>
    -- then the clause would take the white space of the head
    rw [List.getLast?_append, hcolumns] at hlast
    rw [hlast c hc] at hspace
    cases hspace

theorem Canonical.unique {dialect : StatementDialect} {sql first second : List Char}
    (hfirst : Canonical dialect sql first) (hsecond : Canonical dialect sql second) :
    first = second := by
  cases hfirst with
  | ansi => cases hsecond; rfl
  | moved limited =>
    cases hsecond with
    | moved other => exact limited.render_eq.symm.trans other.render_eq
    | kept unlimited => exact absurd limited (unlimited _ _ _)
  | kept unlimited =>
    cases hsecond with
    | moved limited => exact absurd limited (unlimited _ _ _)
    | kept => rfl

/-- Every statement means something in every dialect. -/
theorem exists_canonical (dialect : StatementDialect) (sql : List Char) :
    ∃ canonical, Canonical dialect sql canonical := by
  cases dialect with
  | ansi => exact ⟨sql, .ansi sql⟩
  | tsql =>
    rcases Classical.em (∃ head columns count, LimitedSelect sql head columns count) with
      ⟨head, columns, count, limited⟩ | hnone
    · exact ⟨_, .moved limited⟩
    · exact ⟨sql, .kept fun head columns count limited => hnone ⟨head, columns, count, limited⟩⟩

/-- The text between which `TOP n` goes, where the clause begins inside the head. -/
theorem LimitInHead.render_eq {sql : List Char} (inside : LimitInHead sql) :
    ∃ head body count clause, selectHead sql = some head ∧ trailingLimit sql = some (body, count) ∧
      LimitClause clause count ∧ sql = body ++ clause ∧ body.length < head.length ∧
      StatementDialect.tsql.render sql = body ++ "TOP ".toList ++ count ++ [' '] := by
  obtain ⟨head, clause, count, leading, hclause, ⟨front, rfl⟩, hlength⟩ := inside
  obtain ⟨body, hlimit, hle⟩ := exists_trailingLimit hclause front
  obtain ⟨-, clause', hclause', hsql⟩ := trailingLimit_eq_some_iff.mp hlimit
  have hhead := selectHead_eq_some_iff.mpr leading
  rw [List.length_append] at hlength
  refine ⟨head, body, count, clause', hhead, hlimit, hclause', hsql, by omega, ?_⟩
  have htake : body.take head.length = body := List.take_of_length_le (by omega)
  have hdrop : body.drop head.length = [] := List.drop_eq_nil_of_le (by omega)
  simp only [StatementDialect.render, hlimit, hhead, htake, hdrop, List.append_nil]

/-- Where the two patterns are found. -/
def limitInHead (sql : List Char) : Bool :=
  match selectHead sql, trailingLimit sql with
  | some head, some (body, _) => body.length < head.length
  | _, _ => false

theorem limitInHead_iff {sql : List Char} : limitInHead sql = true ↔ LimitInHead sql := by
  constructor
  · intro h
    unfold limitInHead at h
    split at h
    · next head body count hhead hlimit =>
      obtain ⟨-, clause, hclause, rfl⟩ := trailingLimit_eq_some_iff.mp hlimit
      refine ⟨head, clause, count, selectHead_eq_some_iff.mp hhead, hclause,
        List.suffix_append _ _, ?_⟩
      rw [List.length_append]
      exact Nat.add_lt_add_right (of_decide_eq_true h) _
    · cases h
  · intro inside
    obtain ⟨head, body, count, clause, hhead, hlimit, -, -, hshort, -⟩ := inside.render_eq
    simp only [limitInHead, hhead, hlimit]
    exact decide_eq_true hshort

instance (sql : List Char) : Decidable (LimitInHead sql) :=
  decidable_of_iff (limitInHead sql = true) limitInHead_iff

theorem LimitInHead.unlimited {sql : List Char} (inside : LimitInHead sql)
    (head columns count : List Char) : ¬ LimitedSelect sql head columns count := by
  intro limited
  obtain ⟨head', body, count', clause, hhead, hlimit, -, -, hshort, -⟩ := inside.render_eq
  have hsame := limited.selectHead_eq.symm.trans hhead
  have hbody := limited.trailingLimit_eq.symm.trans hlimit
  obtain rfl := Option.some.inj hsame
  obtain ⟨rfl, -⟩ := Prod.mk.inj (Option.some.inj hbody)
  rw [List.length_append] at hshort
  omega

/-- There the code has put a `T` where the clause began with white space. -/
theorem LimitInHead.render_ne {sql : List Char} (inside : LimitInHead sql) :
    StatementDialect.tsql.render sql ≠ sql := by
  intro hsame
  obtain ⟨head, body, count, clause, -, -, hclause, hsql, -, hrender⟩ := inside.render_eq
  obtain ⟨before, word, after, rfl, ⟨nonempty, hspaces⟩, -⟩ := hclause.parts
  have hbody := (hrender.symm.trans hsame).trans hsql
  simp only [List.append_assoc] at hbody
  have htail := List.append_cancel_left hbody
  cases before with
  | nil => exact nonempty rfl
  | cons c before =>
    obtain ⟨rfl, -⟩ := List.cons.inj htail
    exact absurd (hspaces 'T' List.mem_cons_self) (by decide)

theorem canonical_render {sql : List Char} (outside : ¬ LimitInHead sql) :
    Canonical .tsql sql (StatementDialect.tsql.render sql) := by
  cases hlimit : trailingLimit sql with
  | none =>
    have hrender : StatementDialect.tsql.render sql = sql := by
      simp only [StatementDialect.render, hlimit]
    rw [hrender]
    refine .kept fun head columns count limited => ?_
    rw [limited.trailingLimit_eq] at hlimit
    cases hlimit
  | some found =>
    obtain ⟨body, count⟩ := found
    cases hhead : selectHead sql with
    | none =>
      have hrender : StatementDialect.tsql.render sql = sql := by
        simp only [StatementDialect.render, hlimit, hhead]
      rw [hrender]
      refine .kept fun head columns count limited => ?_
      rw [limited.selectHead_eq] at hhead
      cases hhead
    | some head =>
      have hle : head.length ≤ body.length := by
        rcases Nat.lt_or_ge body.length head.length with hshort | hle
        · refine absurd (limitInHead_iff.mp ?_) outside
          simp only [limitInHead, hhead, hlimit]
          exact decide_eq_true hshort
        · exact hle
      have limited := limitedSelect_of_le hhead hlimit hle
      rw [limited.render_eq]
      exact .moved limited

theorem render_canonical_iff {dialect : StatementDialect} {sql : List Char} :
    Canonical dialect sql (dialect.render sql) ↔ (dialect = .tsql → ¬ LimitInHead sql) := by
  cases dialect with
  | ansi =>
    constructor
    · rintro - h
      cases h
    · exact fun _ => .ansi sql
  | tsql =>
    constructor
    · rintro canonical - inside
      exact inside.render_ne (canonical.unique (.kept inside.unlimited))
    · exact fun outside => canonical_render (outside rfl)

example : StatementDialect.tsql.render "SELECT id FROM t  limit 5 ".toList
    = "SELECT TOP 5 id FROM t".toList := by decide

example : StatementDialect.tsql.render "SELECT LIMIT 5".toList = "SELECTTOP 5 ".toList := by decide

/-- The signs that a placeholder style gives a meaning to. -/
def isSign (c : Char) : Bool := c = '%' || c = '?'

theorem LimitClause.not_isSign {clause count : List Char} (limit : LimitClause clause count) :
    ∀ c ∈ clause, isSign c = false := by
  obtain ⟨before, word, after, rfl, ⟨-, hspaces⟩, hword, hafter⟩ := limit.parts
  have hsign : ∀ {c}, isSign c = true → c = '%' ∨ c = '?' := by
    intro c h
    simpa [isSign] using h
  intro c hc
  simp only [List.mem_append] at hc
  refine Bool.eq_false_iff.mpr fun h => ?_
  rcases hc with (hc | hc) | hc
  · have hspace := hspaces c hc
    rcases hsign h with rfl | rfl <;> exact absurd hspace (by decide)
  · obtain ⟨letter, hletter, hvariant⟩ := (matches_keyword hword).2 c hc
    have hletters : ∀ letter ∈ "LIMIT".toList, ∀ c ∈ caseVariants letter, isSign c = false := by
      simp [isSign, caseVariants]
    rw [hletters letter hletter c hvariant] at h
    cases h
  · have hletter := hafter c hc
    rcases hsign h with rfl | rfl <;> exact absurd hletter (by decide)

/-- The rewrite keeps the number of percent signs and of placeholders. -/
theorem count_render (dialect : StatementDialect) (sql : List Char) {c : Char}
    (sign : isSign c = true) : (dialect.render sql).count c = sql.count c := by
  have habsent : ∀ {text : List Char}, (∀ x ∈ text, isSign x = false) → text.count c = 0 := by
    intro text h
    refine List.count_eq_zero.mpr fun hc => ?_
    rw [h c hc] at sign
    cases sign
  cases dialect with
  | ansi => rfl
  | tsql =>
    cases hlimit : trailingLimit sql with
    | none => simp only [StatementDialect.render, hlimit]
    | some found =>
      obtain ⟨body, count⟩ := found
      cases hhead : selectHead sql with
      | none => simp only [StatementDialect.render, hlimit, hhead]
      | some head =>
        obtain ⟨-, clause, hclause, hsql⟩ := trailingLimit_eq_some_iff.mp hlimit
        have hcount : ∀ x ∈ count, isSign x = false := by
          obtain ⟨lead, trail, rfl, -⟩ := id hclause
          exact fun x hx => hclause.not_isSign x (by simp [hx])
        have hbody : (body.take head.length).count c + (body.drop head.length).count c
            = body.count c := by
          rw [← List.count_append, List.take_append_drop]
        have htop : ("TOP ".toList).count c = 0 := habsent (by simp [isSign])
        have hspace : ([' '] : List Char).count c = 0 := habsent (by simp [isSign])
        simp only [StatementDialect.render, hlimit, hhead, List.count_append, habsent hcount,
          htop, hspace]
        rw [hsql, List.count_append, habsent hclause.not_isSign]
        omega

theorem Canonical.count_eq {dialect : StatementDialect} {sql canonical : List Char}
    (h : Canonical dialect sql canonical) {c : Char} (sign : isSign c = true) :
    canonical.count c = sql.count c := by
  cases h with
  | ansi => rfl
  | moved limited =>
    rw [← limited.render_eq]
    exact count_render .tsql sql sign
  | kept => rfl

end LavsCore

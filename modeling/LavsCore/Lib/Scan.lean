import Mathlib.Data.List.TakeWhile

/-!
# Scanning a text by runs of characters

A pattern is a list of pieces: one character of a class, or a run of at least one. When
no character of a run can begin what follows the run, a greedy scan needs no
backtracking.

`scan_of_matches` is the whole of it: behind a match, the scan takes what the last run
still accepts, and nothing more. So `scan` finds the longest match at the front of a text.
`search` is the leftmost suffix that a reader accepts.
-/

namespace Scan

section

variable {α : Type}

/-! ## Patterns -/

inductive Piece (α : Type) where
  | one (p : α → Bool)
  | plus (p : α → Bool)

/-- The characters that may begin the piece. -/
def Piece.accepts : Piece α → α → Bool
  | .one p => p
  | .plus p => p

def Piece.Matches : Piece α → List α → Prop
  | .one p, word => ∃ c, word = [c] ∧ p c = true
  | .plus p, word => word ≠ [] ∧ ∀ c ∈ word, p c = true

def Matches : List (Piece α) → List α → Prop
  | [], word => word = []
  | piece :: pieces, word =>
      ∃ front back, word = front ++ back ∧ piece.Matches front ∧ Matches pieces back

/-- No character of a run can begin the piece behind it. -/
def Delimited : List (Piece α) → Prop
  | .plus p :: next :: pieces =>
      (∀ c, next.accepts c = true → p c = false) ∧ Delimited (next :: pieces)
  | _ :: pieces => Delimited pieces
  | [] => True

/-- What the last piece accepts if it is a run. -/
def lastRun : List (Piece α) → α → Bool
  | [.plus p] => p
  | _ :: pieces => lastRun pieces
  | [] => fun _ => false

/-- The match at the front of the text, and the rest. -/
def scan : List (Piece α) → List α → Option (List α × List α)
  | [], text => some ([], text)
  | .one _ :: _, [] => none
  | .one p :: pieces, c :: text =>
      if p c then (scan pieces text).map fun m => (c :: m.1, m.2) else none
  | .plus p :: pieces, text =>
      if text.takeWhile p = [] then none
      else (scan pieces (text.dropWhile p)).map fun m => (text.takeWhile p ++ m.1, m.2)

theorem Piece.Matches.begins {piece : Piece α} {word : List α} (matched : piece.Matches word) :
    ∃ c rest, word = c :: rest ∧ piece.accepts c = true := by
  cases piece with
  | one p =>
    obtain ⟨c, rfl, accepted⟩ := matched
    exact ⟨c, [], rfl, accepted⟩
  | plus p =>
    obtain ⟨nonempty, accepted⟩ := matched
    cases word with
    | nil => exact absurd rfl nonempty
    | cons c rest => exact ⟨c, rest, rfl, accepted c List.mem_cons_self⟩

theorem Matches.begins {piece : Piece α} {pieces : List (Piece α)} {word : List α}
    (matched : Matches (piece :: pieces) word) :
    ∃ c rest, word = c :: rest ∧ piece.accepts c = true := by
  obtain ⟨front, back, rfl, hfront, -⟩ := matched
  obtain ⟨c, rest, rfl, accepted⟩ := hfront.begins
  exact ⟨c, rest ++ back, rfl, accepted⟩

theorem matches_append {ps qs : List (Piece α)} {word : List α} :
    Matches (ps ++ qs) word ↔
      ∃ front back, word = front ++ back ∧ Matches ps front ∧ Matches qs back := by
  induction ps generalizing word with
  | nil =>
    constructor
    · exact fun matched => ⟨[], word, rfl, rfl, matched⟩
    · rintro ⟨front, back, rfl, rfl, matched⟩
      exact matched
  | cons piece ps ih =>
    simp only [List.cons_append, Matches, ih]
    constructor
    · rintro ⟨front, _, rfl, matched, middle, back, rfl, hps, hqs⟩
      exact ⟨front ++ middle, back, by simp, ⟨front, middle, rfl, matched, hps⟩, hqs⟩
    · rintro ⟨_, back, rfl, ⟨front, middle, rfl, matched, hps⟩, hqs⟩
      exact ⟨front, middle ++ back, by simp, matched, middle, back, rfl, hps, hqs⟩

/-! ## The greedy scan -/

theorem scan_sound {pieces : List (Piece α)} {text word rest : List α}
    (found : scan pieces text = some (word, rest)) : text = word ++ rest ∧ Matches pieces word := by
  induction pieces generalizing text word with
  | nil =>
    cases found
    exact ⟨rfl, rfl⟩
  | cons piece pieces ih =>
    cases piece with
    | one p =>
      cases text with
      | nil => cases found
      | cons c text =>
        simp only [scan] at found
        split at found
        · next accepted =>
          obtain ⟨m, hm, hword⟩ := Option.map_eq_some_iff.mp found
          cases hword
          obtain ⟨split, matched⟩ := ih hm
          exact ⟨by rw [split]; rfl, [c], m.1, rfl, ⟨c, rfl, accepted⟩, matched⟩
        · cases found
    | plus p =>
      simp only [scan] at found
      split at found
      · cases found
      · next nonempty =>
        obtain ⟨m, hm, hword⟩ := Option.map_eq_some_iff.mp found
        cases hword
        obtain ⟨split, matched⟩ := ih hm
        refine ⟨?_, text.takeWhile p, m.1, rfl,
          ⟨nonempty, fun c hc => List.mem_takeWhile_imp hc⟩, matched⟩
        calc text = text.takeWhile p ++ text.dropWhile p := List.takeWhile_append_dropWhile.symm
          _ = text.takeWhile p ++ (m.1 ++ m.2) := by rw [split]
          _ = (text.takeWhile p ++ m.1) ++ m.2 := (List.append_assoc _ _ _).symm

theorem scan_append (ps qs : List (Piece α)) (text : List α) :
    scan (ps ++ qs) text =
      (scan ps text).bind fun m => (scan qs m.2).map fun m' => (m.1 ++ m'.1, m'.2) := by
  induction ps generalizing text with
  | nil => simp [scan]
  | cons piece ps ih =>
    cases piece with
    | one p =>
      cases text with
      | nil => rfl
      | cons c text =>
        simp only [List.cons_append, scan]
        split
        · rw [ih]
          cases scan ps text <;> simp [Function.comp_def]
        · rfl
    | plus p =>
      simp only [List.cons_append, scan]
      split
      · rfl
      · rw [ih]
        cases scan ps (text.dropWhile p) <;> simp [Function.comp_def]

/-- Behind a match the scan takes what the last run still accepts, and nothing more. -/
theorem scan_of_matches {pieces : List (Piece α)} (delimited : Delimited pieces) {word : List α}
    (matched : Matches pieces word) (rest : List α) :
    scan pieces (word ++ rest) =
      some (word ++ rest.takeWhile (lastRun pieces), rest.dropWhile (lastRun pieces)) := by
  induction pieces generalizing word with
  | nil =>
    cases matched
    cases rest <;> simp [scan, lastRun]
  | cons piece pieces ih =>
    obtain ⟨front, back, rfl, hfront, hback⟩ := matched
    cases piece with
    | one p =>
      obtain ⟨c, rfl, accepted⟩ := hfront
      have hlast : lastRun (.one p :: pieces) = lastRun pieces := by cases pieces <;> rfl
      have hdelimited : Delimited pieces := by cases pieces <;> exact delimited
      rw [hlast, List.append_assoc, List.singleton_append]
      simp only [scan, if_pos accepted, ih hdelimited hback]
      rfl
    | plus p =>
      obtain ⟨nonempty, accepted⟩ := hfront
      cases pieces with
      | nil =>
        cases hback
        have htake : (front ++ rest).takeWhile p = front ++ rest.takeWhile p :=
          List.takeWhile_append_of_pos accepted
        have hdrop : (front ++ rest).dropWhile p = rest.dropWhile p :=
          List.dropWhile_append_of_pos accepted
        simp [scan, lastRun, htake, hdrop, nonempty]
      | cons next pieces =>
        obtain ⟨stop, hdelimited⟩ := delimited
        have hih := ih hdelimited hback
        -- the run ends where the next piece begins
        obtain ⟨c, tail, rfl, hc⟩ := hback.begins
        have hstop : p c = false := stop c hc
        have htake : (front ++ c :: tail ++ rest).takeWhile p = front := by
          rw [List.append_assoc, List.takeWhile_append_of_pos accepted]
          simp [hstop]
        have hdrop : (front ++ c :: tail ++ rest).dropWhile p = c :: tail ++ rest := by
          rw [List.append_assoc, List.dropWhile_append_of_pos accepted]
          simp [hstop]
        have hlast : lastRun (.plus p :: next :: pieces) = lastRun (next :: pieces) := rfl
        rw [hlast]
        simp only [scan, htake, hdrop, if_neg nonempty, hih]
        simp

/-- Every match at the front of the text is within what the scan takes. -/
theorem prefix_scan {pieces : List (Piece α)} (delimited : Delimited pieces)
    {text word : List α} (matched : Matches pieces word) (front : word <+: text) :
    ∃ taken rest, scan pieces text = some (taken, rest) ∧ word <+: taken := by
  obtain ⟨rest, rfl⟩ := front
  exact ⟨_, _, scan_of_matches delimited matched rest, List.prefix_append _ _⟩

/-! ## The leftmost suffix -/

variable {β : Type}

/-- The first suffix that `here` accepts, with what stands before it. -/
def search (here : List α → Option β) : List α → Option (List α × β)
  | [] => (here []).map fun b => ([], b)
  | c :: text =>
      match here (c :: text) with
      | some b => some ([], b)
      | none => (search here text).map fun m => (c :: m.1, m.2)

theorem search_eq_some_iff {here : List α → Option β} {text before : List α} {b : β} :
    search here text = some (before, b) ↔
      ∃ suffix, text = before ++ suffix ∧ here suffix = some b ∧
        ∀ front back, before = front ++ back → back ≠ [] → here (back ++ suffix) = none := by
  induction text generalizing before with
  | nil =>
    constructor
    · intro found
      obtain ⟨b, hb, heq⟩ := Option.map_eq_some_iff.mp found
      cases heq
      refine ⟨[], rfl, hb, fun front back split nonempty => ?_⟩
      exact absurd (List.append_eq_nil_iff.mp split.symm).2 nonempty
    · rintro ⟨suffix, split, hb, -⟩
      obtain ⟨rfl, rfl⟩ := List.append_eq_nil_iff.mp split.symm
      simp [search, hb]
  | cons c text ih =>
    cases hhere : here (c :: text) with
    | some b' =>
      simp only [search, hhere]
      constructor
      · intro found
        cases found
        refine ⟨c :: text, rfl, hhere, fun front back split nonempty => ?_⟩
        exact absurd (List.append_eq_nil_iff.mp split.symm).2 nonempty
      · rintro ⟨suffix, split, hb, earlier⟩
        cases before with
        | nil =>
          cases split
          rw [hhere] at hb
          rw [Option.some.inj hb]
        | cons d before =>
          have hnone := earlier [] (d :: before) rfl (List.cons_ne_nil _ _)
          rw [← split, hhere] at hnone
          cases hnone
    | none =>
      simp only [search, hhere]
      constructor
      · intro found
        obtain ⟨m, hm, heq⟩ := Option.map_eq_some_iff.mp found
        cases heq
        obtain ⟨suffix, rfl, hb, earlier⟩ := ih.mp hm
        refine ⟨suffix, rfl, hb, fun front back split nonempty => ?_⟩
        cases front with
        | nil =>
          rw [List.nil_append] at split
          rw [← split]
          exact hhere
        | cons d front => exact earlier front back (List.cons.inj split).2 nonempty
      · rintro ⟨suffix, split, hb, earlier⟩
        cases before with
        | nil =>
          cases split
          rw [hhere] at hb
          cases hb
        | cons d before =>
          obtain ⟨rfl, htext⟩ := List.cons.inj split
          have hfound : search here text = some (before, b) :=
            ih.mpr ⟨suffix, htext, hb, fun front back split nonempty =>
              earlier (c :: front) back (by rw [split]; rfl) nonempty⟩
          rw [hfound]
          rfl

end

end Scan

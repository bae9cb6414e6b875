import Mathlib.Data.List.TakeWhile

/-!
# Event streams

How a reader takes the text of an event stream apart: lines end with CR, LF or CRLF, a line
that starts with a colon is a comment, `field: value` lines fill the buffers, and a blank line
dispatches what they hold. A message without data is not dispatched, and what follows the last
blank line is discarded.

`decode_flatMap`: a stream of blocks that are written line by line is read back as its messages,
whatever comments stand between them.
-/

namespace EventStream

/-! ## Reading -/

structure Message where
  type : List Char
  data : List Char
  lastEventId : List Char
  deriving DecidableEq, Repr

/-- The lines of a text, the first continuing `line`. What no line end follows is dropped. -/
def splitLines (line : List Char) : List Char → List (List Char)
  | [] => []
  | '\r' :: '\n' :: rest => line :: splitLines [] rest
  | c :: rest =>
    if c = '\r' ∨ c = '\n' then line :: splitLines [] rest else splitLines (line ++ [c]) rest

/-- The buffers of the reader. -/
structure Buffers where
  data : List Char
  eventType : List Char
  lastEventId : List Char
  /-- In milliseconds, if the stream has set it. -/
  reconnectionTime : Option Nat

def Buffers.empty : Buffers := ⟨[], [], [], none⟩

/-- One leading space of a value is not part of it. -/
def dropSpace : List Char → List Char
  | ' ' :: value => value
  | value => value

/-- The name of a field, and its value, which is empty if there is no colon. -/
def fieldOf (line : List Char) : List Char × List Char :=
  (line.takeWhile (· ≠ ':'), dropSpace ((line.dropWhile (· ≠ ':')).drop 1))

def processField (b : Buffers) (name value : List Char) : Buffers :=
  if name = "event".toList then { b with eventType := value }
  else if name = "data".toList then { b with data := b.data ++ value ++ ['\n'] }
  else if name = "id".toList then if '\x00' ∈ value then b else { b with lastEventId := value }
  else if name = "retry".toList then
    if value ≠ [] ∧ value.all Char.isDigit then
      { b with reconnectionTime := some (Nat.ofDigitChars 10 value 0) }
    else b
  else b

/-- A line that is not blank. -/
def processLine (b : Buffers) (line : List Char) : Buffers :=
  if line.head? = some ':' then b else processField b (fieldOf line).1 (fieldOf line).2

/-- A blank line: the message, if there is one, and the buffers after it. -/
def dispatch (b : Buffers) : Option Message × Buffers :=
  (if b.data = [] then none
    else some {
      type := if b.eventType = [] then "message".toList else b.eventType
      data := if b.data.getLast? = some '\n' then b.data.dropLast else b.data
      lastEventId := b.lastEventId },
    { b with data := [], eventType := [] })

def interpret (b : Buffers) : List (List Char) → List Message
  | [] => []
  | line :: rest =>
    if line = [] then (dispatch b).1.toList ++ interpret (dispatch b).2 rest
    else interpret (processLine b line) rest

/-- A byte order mark at the start is dropped. -/
def dropBom : List Char → List Char
  | '\uFEFF' :: text => text
  | text => text

def decode (text : List Char) : List Message := interpret .empty (splitLines [] (dropBom text))

/-! ## Writing -/

/-- What a writer puts into the stream, one after the other. -/
inductive Block where
  | message (type data : List Char)
  | comment (text : List Char)

/-- The lines of a block, without the blank line at its end. -/
def Block.lines : Block → List (List Char)
  | .message type data => ["event: ".toList ++ type, "data: ".toList ++ data]
  | .comment text => [": ".toList ++ text]

def Block.text (block : Block) : List Char :=
  block.lines.flatMap (· ++ ['\n']) ++ ['\n']

/-- The text stands on one line. -/
def OneLine (text : List Char) : Prop := ∀ c ∈ text, c ≠ '\r' ∧ c ≠ '\n'

/-- Nothing in the block ends a line, and a message has a type. -/
def Block.Safe : Block → Prop
  | .message type data => (type ≠ [] ∧ OneLine type) ∧ OneLine data
  | .comment text => OneLine text

/-- What a reader makes of the block. -/
def Block.message? : Block → Option Message
  | .message type data => some ⟨type, data, []⟩
  | .comment _ => none

/-! ## Reading what was written -/

section

variable {line text rest : List Char}

theorem splitLines_cons {c : Char} (h : c ≠ '\r' ∧ c ≠ '\n') (line rest : List Char) :
    splitLines line (c :: rest) = splitLines (line ++ [c]) rest := by
  rw [splitLines, if_neg (not_or.mpr h)]
  rintro tail heq -
  exact h.1 heq

theorem splitLines_newline (line rest : List Char) :
    splitLines line ('\n' :: rest) = line :: splitLines [] rest := by
  rw [splitLines, if_pos (Or.inr rfl)]
  rintro tail heq -
  exact absurd heq (by decide)

theorem splitLines_line (h : OneLine text) (line rest : List Char) :
    splitLines line (text ++ '\n' :: rest) = (line ++ text) :: splitLines [] rest := by
  induction text generalizing line with
  | nil => rw [List.nil_append, splitLines_newline, List.append_nil]
  | cons c text ih =>
    obtain ⟨hc, htext⟩ := List.forall_mem_cons.mp h
    rw [List.cons_append, splitLines_cons hc, ih htext, List.append_assoc, List.singleton_append]

theorem splitLines_lines {lines : List (List Char)} (h : ∀ line ∈ lines, OneLine line)
    (rest : List Char) :
    splitLines [] (lines.flatMap (· ++ ['\n']) ++ rest) = lines ++ splitLines [] rest := by
  induction lines with
  | nil => rfl
  | cons line lines ih =>
    obtain ⟨hline, hlines⟩ := List.forall_mem_cons.mp h
    rw [List.flatMap_cons, List.append_assoc, List.append_assoc, List.singleton_append,
      splitLines_line hline, ih hlines]
    rfl

theorem fieldOf_append {name : List Char} (h : ':' ∉ name) (value : List Char) :
    fieldOf (name ++ ':' :: ' ' :: value) = (name, value) := by
  have hname : ∀ c ∈ name, decide (c ≠ ':') = true :=
    fun c hc => decide_eq_true fun heq => h (heq ▸ hc)
  rw [fieldOf, List.takeWhile_append_of_pos hname, List.dropWhile_append_of_pos hname,
    List.takeWhile_cons_of_neg (by simp), List.dropWhile_cons_of_neg (by simp), List.append_nil]
  rfl

theorem processLine_event (b : Buffers) (type : List Char) :
    processLine b ("event: ".toList ++ type) = { b with eventType := type } := by
  have hfield : fieldOf ("event: ".toList ++ type) = ("event".toList, type) :=
    @fieldOf_append "event".toList (by simp) type
  rw [processLine, if_neg (by simp), hfield, processField, if_pos rfl]

theorem processLine_data (b : Buffers) (data : List Char) :
    processLine b ("data: ".toList ++ data) = { b with data := b.data ++ data ++ ['\n'] } := by
  have hfield : fieldOf ("data: ".toList ++ data) = ("data".toList, data) :=
    @fieldOf_append "data".toList (by simp) data
  have hname : "data".toList ≠ "event".toList := by decide
  rw [processLine, if_neg (by simp), hfield, processField, if_neg hname, if_pos rfl]

theorem processLine_comment (b : Buffers) (text : List Char) :
    processLine b (": ".toList ++ text) = b := if_pos rfl

theorem interpret_cons {b : Buffers} {line : List Char} (h : line ≠ []) (rest : List (List Char)) :
    interpret b (line :: rest) = interpret (processLine b line) rest := if_neg h

theorem interpret_blank (b : Buffers) (rest : List (List Char)) :
    interpret b ([] :: rest) = (dispatch b).1.toList ++ interpret (dispatch b).2 rest := if_pos rfl

/-- A message leaves the buffers as it found them. -/
theorem dispatch_message {type : List Char} (htype : type ≠ []) (data : List Char) :
    dispatch { Buffers.empty with eventType := type, data := data ++ ['\n'] } =
      (some ⟨type, data, []⟩, .empty) := by
  simp [dispatch, Buffers.empty, htype]

/-- The lines of one block, from empty buffers to empty buffers. -/
theorem interpret_block {block : Block} (h : block.Safe) (rest : List (List Char)) :
    interpret .empty (block.lines ++ [] :: rest) =
      block.message?.toList ++ interpret .empty rest := by
  cases block with
  | message type data =>
    obtain ⟨⟨htype, -⟩, -⟩ := h
    rw [Block.lines, List.cons_append, List.cons_append, List.nil_append,
      interpret_cons (by simp), processLine_event, interpret_cons (by simp), processLine_data,
      interpret_blank]
    exact congrArg (fun d => d.1.toList ++ interpret d.2 rest) (dispatch_message htype data)
  | comment text =>
    rw [Block.lines, List.cons_append, List.nil_append, interpret_cons (by simp),
      processLine_comment, interpret_blank]
    rfl

theorem oneLine_lines {block : Block} (h : block.Safe) : ∀ line ∈ block.lines, OneLine line := by
  have happend : ∀ {label text : List Char}, OneLine label → OneLine text →
      OneLine (label ++ text) := by
    intro label text hlabel htext c hc
    exact (List.mem_append.mp hc).elim (hlabel c) (htext c)
  cases block with
  | message type data =>
    obtain ⟨⟨-, htype⟩, hdata⟩ := h
    refine List.forall_mem_cons.mpr ⟨happend ?_ htype, ?_⟩
    · simp [OneLine]
    · refine List.forall_mem_cons.mpr ⟨happend ?_ hdata, by simp⟩
      simp [OneLine]
  | comment text =>
    refine List.forall_mem_cons.mpr ⟨happend ?_ h, by simp⟩
    simp [OneLine]

theorem splitLines_block {block : Block} (h : block.Safe) (rest : List Char) :
    splitLines [] (block.text ++ rest) = block.lines ++ [] :: splitLines [] rest := by
  rw [Block.text, List.append_assoc, splitLines_lines (oneLine_lines h), List.singleton_append,
    splitLines_newline]

/-- No block starts with a byte order mark. -/
theorem dropBom_flatMap (blocks : List Block) :
    dropBom (blocks.flatMap Block.text) = blocks.flatMap Block.text := by
  cases blocks with
  | nil => rfl
  | cons block blocks =>
    rw [List.flatMap_cons]
    cases block with
    | _ => rfl

end

theorem decode_flatMap {blocks : List Block} (h : ∀ block ∈ blocks, block.Safe) :
    decode (blocks.flatMap Block.text) = blocks.filterMap Block.message? := by
  rw [decode, dropBom_flatMap]
  induction blocks with
  | nil => rfl
  | cons block blocks ih =>
    obtain ⟨hblock, hblocks⟩ := List.forall_mem_cons.mp h
    rw [List.flatMap_cons, splitLines_block hblock, interpret_block hblock, ih hblocks,
      List.filterMap_cons]
    cases block.message? with
    | _ => rfl

end EventStream

import LavsCore.Lib.EventStream
import LavsCore.Models.Responses
import LavsCore.Python.CompactDumps

/-!
# The frames of the event stream

`sse_formatter.py`: an event becomes an `event:` line and a `data:` line, a pause becomes a
comment. `sse_round_trip`: a reader of the stream gets exactly the events that were written,
whatever texts they carry. The frames are ASCII (`ascii_streamText`), so the bytes of the
response are their characters.
-/

namespace LavsCore

open Py

def EventType.value : EventType → String
  | .versionCreated => "version.created"
  | .versionRolledBack => "version.rolled_back"
  | .releaseCut => "release.cut"
  | .dependencyAdded => "dependency.added"
  | .dependencyRemoved => "dependency.removed"

/-- What `format_sse_frame` reads of an event. The data is anything that `json.dumps` takes. -/
structure FramedEvent where
  eventType : EventType
  data : Value

def DomainEvent.framed (event : DomainEvent) : FramedEvent := ⟨event.eventType, event.data.toValue⟩

/-- `format_sse_frame` -/
def formatSseFrame (event : FramedEvent) : String :=
  let payload := dumpsCompact event.data
  "event: " ++ event.eventType.value ++ "\ndata: " ++ payload ++ "\n\n"

/-- `keep_alive_frame` -/
def keepAliveFrame : String := ": keep-alive\n\n"

/-- One turn of the loop of `sse_event_stream`: an event, or the timeout of the wait for it. -/
inductive StreamTurn where
  | event (event : FramedEvent)
  | timeout

def StreamTurn.frame : StreamTurn → String
  | .event e => formatSseFrame e
  | .timeout => keepAliveFrame

def StreamTurn.event? : StreamTurn → Option FramedEvent
  | .event e => some e
  | .timeout => none

/-- The body of the response after these turns. -/
def streamText (turns : List StreamTurn) : List Char := turns.flatMap fun turn => turn.frame.toList

/-! ## Frames are blocks -/

namespace SseFramesLemmas

open EventStream

def block : StreamTurn → Block
  | .event e => .message e.eventType.value.toList (dumpsCompact e.data).toList
  | .timeout => .comment "keep-alive".toList

theorem text_block (turn : StreamTurn) : (block turn).text = turn.frame.toList := by
  cases turn with
  | event event =>
    simp only [StreamTurn.frame, formatSseFrame, String.toList_append, block, Block.text,
      Block.lines, List.flatMap_cons, List.flatMap_nil, List.append_assoc]
    rfl
  | timeout => rfl

theorem oneLine_of_allPrintable {text : List Char} (h : AllPrintable text) : OneLine text := by
  intro c hc
  obtain ⟨hlow, -⟩ := h c hc
  constructor
  · rintro rfl
    exact absurd hlow (by decide)
  · rintro rfl
    exact absurd hlow (by decide)

theorem allPrintable_value (eventType : EventType) : AllPrintable eventType.value.toList := by
  cases eventType with
  | _ => exact CompactDumpsLemmas.allPrintable_of_all (by decide)

theorem safe_block (turn : StreamTurn) : (block turn).Safe := by
  cases turn with
  | event event =>
    refine ⟨⟨?_, oneLine_of_allPrintable (allPrintable_value _)⟩,
      oneLine_of_allPrintable (printable_dumpsCompact event.data)⟩
    cases event.eventType with
    | _ => decide
  | timeout => exact oneLine_of_allPrintable (CompactDumpsLemmas.allPrintable_of_all (by decide))

/-- A reader gets every event with the text of its data. -/
theorem decode_streamText (turns : List StreamTurn) :
    decode (streamText turns) = (turns.filterMap StreamTurn.event?).map fun event =>
      ⟨event.eventType.value.toList, (dumpsCompact event.data).toList, []⟩ := by
  have htext : streamText turns = (turns.map block).flatMap Block.text := by
    rw [List.flatMap_map]
    exact congrArg (fun f => turns.flatMap f) (funext fun turn => (text_block turn).symm)
  have hsafe : ∀ b ∈ turns.map block, b.Safe := by
    intro b hb
    obtain ⟨turn, -, rfl⟩ := List.mem_map.mp hb
    exact safe_block turn
  rw [htext, decode_flatMap hsafe, List.filterMap_map, List.map_filterMap]
  refine congrArg (fun f => turns.filterMap f) (funext fun turn => ?_)
  cases turn with
  | event e => rfl
  | timeout => rfl

end SseFramesLemmas

open SseFramesLemmas

theorem ascii_streamText (turns : List StreamTurn) : ∀ c ∈ streamText turns, c.toNat < 0x80 := by
  intro c hc
  obtain ⟨turn, -, hturn⟩ := List.mem_flatMap.mp hc
  have hprintable : ∀ {text : List Char}, AllPrintable text → c ∈ text → c.toNat < 0x80 :=
    fun htext hmem => Nat.lt_succ_of_lt (htext c hmem).2
  have hliteral : ∀ {text : List Char}, text.all (fun c => decide (c.toNat < 0x80)) = true →
      c ∈ text → c.toNat < 0x80 :=
    fun htext hmem => of_decide_eq_true (List.all_eq_true.mp htext c hmem)
  cases turn with
  | event e =>
    simp only [StreamTurn.frame, formatSseFrame, String.toList_append, List.mem_append] at hturn
    rcases hturn with (((hmem | hmem) | hmem) | hmem) | hmem
    · exact hliteral (by decide) hmem
    · exact hprintable (allPrintable_value e.eventType) hmem
    · exact hliteral (by decide) hmem
    · exact hprintable (printable_dumpsCompact e.data) hmem
    · exact hliteral (by decide) hmem
  | timeout => exact hliteral (by decide) hturn

/-- `loads` is the parser of the client. -/
theorem sse_round_trip (loads : String → Option Value) (turns : List StreamTurn)
    (hloads : ∀ event, .event event ∈ turns → loads (dumpsCompact event.data) = some event.data) :
    (EventStream.decode (streamText turns)).map
        (fun message => (String.ofList message.type, loads (String.ofList message.data))) =
      (turns.filterMap StreamTurn.event?).map
        fun event => (event.eventType.value, some event.data) := by
  rw [decode_streamText, List.map_map]
  refine List.map_congr_left fun event hevent => ?_
  obtain ⟨turn, hturn, hsome⟩ := List.mem_filterMap.mp hevent
  cases turn with
  | event event' =>
    cases hsome
    simp only [Function.comp_apply, String.ofList_toList, hloads event hturn]
  | timeout => cases hsome

namespace Sample

/-- A label that would end the frame if it were written as it is. -/
def awkwardLabel : DomainEvent :=
  ⟨.releaseCut, "p", .obj [("label", .str "a\r\n\ndata: b é 😀")]⟩

/-- A surrogate that is not paired, and a float. -/
def awkwardData : Value :=
  .obj [([.char 'x'], .arr [.str [.surrogate 0], .float ⟨"1e-07".toList, by simp⟩])]

def turns : List StreamTurn :=
  [.timeout, .event awkwardLabel.framed, .timeout, .timeout, .event ⟨.versionCreated, awkwardData⟩]

/-- What a JSON parser makes of these two payloads. -/
def loads (text : String) : Option Value :=
  if text = "\x7b\"label\":\"a\\r\\n\\ndata: b \\u00e9 \\ud83d\\ude00\"\x7d" then
    some awkwardLabel.framed.data
  else if text = "\x7b\"x\":[\"\\ud800\",1e-07]\x7d" then some awkwardData
  else none

end Sample

theorem sse_round_trip_awkward :
    (EventStream.decode (streamText Sample.turns)).map
        (fun message => (String.ofList message.type, Sample.loads (String.ofList message.data))) =
      [("release.cut", some Sample.awkwardLabel.framed.data),
       ("version.created", some Sample.awkwardData)] := by
  have hloads : ∀ e, .event e ∈ Sample.turns →
      Sample.loads (dumpsCompact e.data) = some e.data := by
    intro e he
    simp only [Sample.turns, List.mem_cons, StreamTurn.event.injEq, List.not_mem_nil, or_false,
      reduceCtorEq, false_or] at he
    rcases he with rfl | rfl
    · exact if_pos (by decide +kernel)
    · refine (if_neg (by decide +kernel)).trans (if_pos (by decide +kernel))
  exact sse_round_trip Sample.loads Sample.turns hloads

end LavsCore

import Mathlib.Algebra.Group.Nat.Defs
import Mathlib.Data.List.TakeWhile

/-!
# Server-Sent Events

The parser of an event stream takes the bytes in chunks, as they arrive. It keeps the bytes of
the line that has not ended, whether the next byte may be the second half of a line end, and what
it has collected for the next event. The reference parse has none of this: it splits the whole
stream into lines and keeps the fields since the last blank line.

## Main definitions

* `SseParser.push`, `SseParser.complete`, `parseChunks`: The parser, and a stream in chunks.
* `splitLines`, `SseField`, `sseEvent`, `readLines`: The lines, and what they say.

## Theorems

* `processLine_collected`: A line does to the parser what its field does to the event.
* `parseBytes_eq`: The parser in the middle of a line reads the rest of the line first.
* `sse_parser_exact`: The parser and the reference parse agree, however the stream is cut.
-/

namespace GraphRefly.Sources

open List

/-! ### The parser -/

structure SseEvent where
  event : Option String
  data : String
  id : Option String
  retryMs : Option Nat
  deriving DecidableEq

structure SseParser where
  lineBuffer : List UInt8 := []
  dropNextLf : Bool := false
  event : Option String := none
  dataLines : List String := []
  dataBytes : Nat := 0
  id : Option String := none
  retryMs : Option Nat := none

structure SseParserError where
  events : List SseEvent
  error : String

def sseParserMaxBufferBytes : Nat := 64 * 1024

def parserOverflow : String := "fromSSE: parser overflow"

def invalidUtf8 : String := "fromSSE: invalid utf-8 in event stream"

def carriageReturn : UInt8 := 13

def lineFeed : UInt8 := 10

namespace SseParser

def clearEvent (parser : SseParser) : SseParser :=
  { parser with event := none, dataLines := [], dataBytes := 0, id := none, retryMs := none }

def dispatchEvent (parser : SseParser) : Option SseEvent × SseParser :=
  if parser.dataLines = [] then (none, parser.clearEvent)
  else
    (some ⟨parser.event, "\n".intercalate parser.dataLines, parser.id, parser.retryMs⟩,
      parser.clearEvent)

end SseParser

/-- The texts before and behind the first colon; without a colon nothing is behind it. -/
def splitField (line : List Char) : List Char × List Char :=
  match line.dropWhile (· != ':') with
  | [] => (line, [])
  | _ :: value => (line.takeWhile (· != ':'), value)

def stripSpace (value : List Char) : List Char :=
  if value.head? = some ' ' then value.tail else value

/-- The milliseconds of a `retry` field, when they are digits and fit in 64 bits. -/
def retryMillis (value : List Char) : Option Nat :=
  if value ≠ [] ∧ value.all Char.isDigit = true ∧ Nat.ofDigitChars 10 value 0 < 2 ^ 64 then
    some (Nat.ofDigitChars 10 value 0)
  else none

namespace SseParser

section

variable (parser : SseParser)

def processLine (line : String) :
    Except String (Option SseEvent × SseParser) :=
  if line = "" then .ok parser.dispatchEvent
  else if line.toList.head? = some ':' then .ok (none, parser)
  else
    let field := String.ofList (splitField line.toList).1
    let value := stripSpace (splitField line.toList).2
    let text := String.ofList value
    if field = "data" then
      let added := text.utf8ByteSize + if parser.dataLines = [] then 0 else 1
      if sseParserMaxBufferBytes < parser.dataBytes + added then .error parserOverflow
      else
        .ok (none, { parser with
          dataBytes := parser.dataBytes + added, dataLines := parser.dataLines ++ [text] })
    else if field = "event" then .ok (none, { parser with event := some text })
    else if field = "id" then .ok (none, { parser with id := some text })
    else if field = "retry" then
      .ok (none, { parser with retryMs := (retryMillis value).or parser.retryMs })
    else .ok (none, parser)

def finishLine : Except String (Option SseEvent × SseParser) :=
  match String.fromUTF8? ⟨parser.lineBuffer.toArray⟩ with
  | none => .error invalidUtf8
  | some line => { parser with lineBuffer := [] }.processLine line

/-- The events so far and the event of a line that ends. -/
def finishLineInto (events : List SseEvent) :
    Except SseParserError (List SseEvent × SseParser) :=
  match parser.finishLine with
  | .error error => .error ⟨events, error⟩
  | .ok finished => .ok (events ++ finished.1.toList, finished.2)

def setDropNextLf (dropNextLf : Bool) : SseParser :=
  { parser with dropNextLf := dropNextLf }

/-- One byte behind those of the chunk that gave the events so far. -/
def takeByte (events : List SseEvent) (byte : UInt8) :
    Except SseParserError (List SseEvent × SseParser) :=
  if byte = carriageReturn then
    (parser.finishLineInto events).map fun finished => (finished.1, finished.2.setDropNextLf true)
  else if byte = lineFeed then parser.finishLineInto events
  else if sseParserMaxBufferBytes < (parser.lineBuffer ++ [byte]).length then
    .error ⟨events, parserOverflow⟩
  else .ok (events, { parser with lineBuffer := parser.lineBuffer ++ [byte] })

/-- The byte, unless it is the second half of a line end. -/
def pushByte (events : List SseEvent) (byte : UInt8) :
    Except SseParserError (List SseEvent × SseParser) :=
  if parser.dropNextLf = true ∧ byte = lineFeed then .ok (events, parser.setDropNextLf false)
  else (parser.setDropNextLf false).takeByte events byte

def pushFrom (parser : SseParser) (events : List SseEvent) :
    List UInt8 → Except SseParserError (List SseEvent × SseParser)
  | [] => .ok (events, parser)
  | byte :: chunk =>
    (parser.pushByte events byte).bind fun pushed => pushed.2.pushFrom pushed.1 chunk

def push (chunk : List UInt8) :
    Except SseParserError (List SseEvent × SseParser) :=
  parser.pushFrom [] chunk

def complete : Except SseParserError (List SseEvent × SseParser) :=
  (if parser.lineBuffer = [] then .ok ([], parser) else parser.finishLineInto []).map
    fun finished =>
      (finished.1 ++ finished.2.dispatchEvent.1.toList, finished.2.dispatchEvent.2)

end

end SseParser

/-- The events that are delivered, and the error that ends them. -/
structure SseParse where
  events : List SseEvent
  error : Option String

def SseParse.after (events : List SseEvent) (parse : SseParse) : SseParse :=
  ⟨events ++ parse.events, parse.error⟩

/-- An error ends the stream behind the events that came with it. -/
def resume (pushed : Except SseParserError (List SseEvent × SseParser))
    (rest : SseParser → SseParse) : SseParse :=
  match pushed with
  | .error failed => ⟨failed.events, some failed.error⟩
  | .ok (events, parser) => (rest parser).after events

/-- The chunks of a stream one after the other, and its end. -/
def parseChunks (parser : SseParser) : List (List UInt8) → SseParse
  | [] => resume parser.complete fun _ => ⟨[], none⟩
  | chunk :: chunks => resume (parser.push chunk) fun next => parseChunks next chunks

/-! ### The grammar -/

/-- Bytes in front of the first line. -/
def joinLine (bytes : List UInt8) : List (List UInt8) → List (List UInt8)
  | [] => [bytes]
  | line :: lines => (bytes ++ line) :: lines

/-- The lines of a stream. A carriage return with a line feed behind it is one line end. -/
def splitLines : List UInt8 → List (List UInt8)
  | [] => [[]]
  | 13 :: 10 :: stream => [] :: splitLines stream
  | 13 :: stream => [] :: splitLines stream
  | 10 :: stream => [] :: splitLines stream
  | byte :: stream => joinLine [byte] (splitLines stream)

structure SseField where
  name : String
  value : List Char

/-- The field of a line: a colon ends its name, and one space may stand before its value. -/
def sseField (line : List Char) : SseField :=
  let value := (line.dropWhile (· != ':')).drop 1
  ⟨String.ofList (line.takeWhile (· != ':')), if [' '] <+: value then value.drop 1 else value⟩

/-- The values of the fields of one name. -/
def valuesOf (name : String) (fields : List SseField) : List (List Char) :=
  (fields.filter (·.name = name)).map (·.value)

def sseData (fields : List SseField) : String :=
  "\n".intercalate ((valuesOf "data" fields).map String.ofList)

/-- The event of the fields before a blank line, if one of them is `data`. -/
def sseEvent (fields : List SseField) : Option SseEvent :=
  if valuesOf "data" fields = [] then none
  else
    some
      { event := (valuesOf "event" fields).getLast?.map String.ofList
        data := sseData fields
        id := (valuesOf "id" fields).getLast?.map String.ofList
        retryMs := ((valuesOf "retry" fields).filterMap retryMillis).getLast? }

/-- The events of the lines, behind the fields that came since the last blank line. -/
def readLines (fields : List SseField) : List (List UInt8) → SseParse
  | [] => ⟨(sseEvent fields).toList, none⟩
  | line :: lines =>
    if sseParserMaxBufferBytes < line.length then ⟨[], some parserOverflow⟩
    else
      match String.fromUTF8? ⟨line.toArray⟩ with
      | none => ⟨[], some invalidUtf8⟩
      | some text =>
        if text = "" then (readLines [] lines).after (sseEvent fields).toList
        else if text.toList.head? = some ':' then readLines fields lines
        else if sseParserMaxBufferBytes < (sseData (fields ++ [sseField text.toList])).utf8ByteSize
        then ⟨[], some parserOverflow⟩
        else readLines (fields ++ [sseField text.toList]) lines

def referenceParse (stream : List UInt8) : SseParse := readLines [] (splitLines stream)

/-! ### One byte after the other -/

theorem SseParse.after_after (first second : List SseEvent) (parse : SseParse) :
    (parse.after second).after first = parse.after (first ++ second) := by
  simp only [SseParse.after, append_assoc]

section

variable (parser : SseParser)

/-- The stream byte by byte. -/
def parseBytes (parser : SseParser) : List UInt8 → SseParse
  | [] => resume parser.complete fun _ => ⟨[], none⟩
  | byte :: stream => resume (parser.pushByte [] byte) fun next => parseBytes next stream

theorem resume_finishLineInto (events : List SseEvent) (rest : SseParser → SseParse) :
    resume (parser.finishLineInto events) rest
      = (resume (parser.finishLineInto []) rest).after events := by
  unfold SseParser.finishLineInto
  cases parser.finishLine with
  | error error => simp only [resume, SseParse.after, append_nil]
  | ok finished => simp only [resume, SseParse.after_after, nil_append]

theorem resume_map (pushed : Except SseParserError (List SseEvent × SseParser))
    (rest : SseParser → SseParse) :
    resume (pushed.map fun finished => (finished.1, finished.2.setDropNextLf true)) rest
      = resume pushed fun next => rest (next.setDropNextLf true) := by
  cases pushed <;> rfl

theorem resume_pushByte (events : List SseEvent) (byte : UInt8) (rest : SseParser → SseParse) :
    resume (parser.pushByte events byte) rest
      = (resume (parser.pushByte [] byte) rest).after events := by
  unfold SseParser.pushByte SseParser.takeByte
  split_ifs with hdrop hcr hlf hover
  · simp only [resume, SseParse.after, nil_append]
  · rw [resume_map, resume_map, resume_finishLineInto]
  · exact resume_finishLineInto _ events rest
  · simp only [resume, SseParse.after, append_nil]
  · simp only [resume, SseParse.after, nil_append]

theorem resume_pushFrom (events : List SseEvent) (chunk stream : List UInt8) :
    resume (parser.pushFrom events chunk) (parseBytes · stream)
      = (parseBytes parser (chunk ++ stream)).after events := by
  induction chunk generalizing parser events with
  | nil => rfl
  | cons byte chunk ih =>
    rw [SseParser.pushFrom, cons_append, parseBytes, ← resume_pushByte]
    cases parser.pushByte events byte with
    | error failed => rfl
    | ok pushed => exact ih pushed.2 pushed.1

theorem parseChunks_eq (chunks : List (List UInt8)) :
    parseChunks parser chunks = parseBytes parser chunks.flatten := by
  induction chunks generalizing parser with
  | nil => rfl
  | cons chunk chunks ih =>
    rw [parseChunks, flatten_cons, funext ih]
    exact resume_pushFrom parser [] chunk chunks.flatten

end

/-! ### One line -/

theorem sseField_eq (line : List Char) :
    sseField line = ⟨String.ofList (splitField line).1, stripSpace (splitField line).2⟩ := by
  have hstrip (value : List Char) :
      (if [' '] <+: value then value.drop 1 else value) = stripSpace value := by
    cases value with
    | nil => rfl
    | cons c value => simp [stripSpace, cons_prefix_cons, eq_comm]
  rw [sseField, splitField, hstrip]
  cases h : line.dropWhile (· != ':') with
  | nil =>
    have htake := takeWhile_append_dropWhile (p := (· != ':')) (l := line)
    rw [h, append_nil] at htake
    rw [htake]
    rfl
  | cons c value => rfl

section

variable (bytes : List UInt8) (dropNextLf : Bool) (fields : List SseField)

/-- The parser with bytes of a line, when these fields came since the last blank line. -/
def SseParser.collected :
    SseParser where
  lineBuffer := bytes
  dropNextLf := dropNextLf
  event := (valuesOf "event" fields).getLast?.map String.ofList
  dataLines := (valuesOf "data" fields).map String.ofList
  dataBytes := (sseData fields).utf8ByteSize
  id := (valuesOf "id" fields).getLast?.map String.ofList
  retryMs := ((valuesOf "retry" fields).filterMap retryMillis).getLast?

@[simp] theorem collected_lineBuffer :
    (SseParser.collected bytes dropNextLf fields).lineBuffer = bytes := rfl

@[simp] theorem collected_dropNextLf :
    (SseParser.collected bytes dropNextLf fields).dropNextLf = dropNextLf := rfl

end

@[simp] theorem collected_setDropNextLf (bytes : List UInt8) (before after : Bool)
    (fields : List SseField) :
    (SseParser.collected bytes before fields).setDropNextLf after
      = .collected bytes after fields := rfl

variable {name : String}

theorem valuesOf_self (fields : List SseField) (value : List Char) :
    valuesOf name (fields ++ [⟨name, value⟩]) = valuesOf name fields ++ [value] := by
  simp [valuesOf]

theorem valuesOf_other {other : String} (h : other ≠ name) (fields : List SseField)
    (value : List Char) :
    valuesOf name (fields ++ [⟨other, value⟩]) = valuesOf name fields := by
  simp [valuesOf, h]

theorem sseData_size (fields : List SseField) (value : List Char) :
    (sseData (fields ++ [⟨"data", value⟩])).utf8ByteSize
      = (sseData fields).utf8ByteSize + ((String.ofList value).utf8ByteSize
          + if (valuesOf "data" fields).map String.ofList = [] then 0 else 1) := by
  rw [sseData, sseData, valuesOf_self, map_append]
  by_cases hnone : (valuesOf "data" fields).map String.ofList = []
  · simp [hnone]
  · rw [String.intercalate_append_of_ne_nil hnone (by simp), if_neg hnone]
    have hone : ("\n" : String).utf8ByteSize = 1 := rfl
    simp only [map_cons, map_nil, String.intercalate_singleton,
      String.utf8ByteSize_append, hone]
    omega

theorem sseData_other (h : name ≠ "data") (fields : List SseField)
    (value : List Char) : sseData (fields ++ [⟨name, value⟩]) = sseData fields := by
  rw [sseData, sseData, valuesOf_other h]

theorem dispatchEvent_collected (bytes : List UInt8) (dropNextLf : Bool)
    (fields : List SseField) :
    (SseParser.collected bytes dropNextLf fields).dispatchEvent
      = (sseEvent fields, .collected bytes dropNextLf []) := by
  have hlines : (SseParser.collected bytes dropNextLf fields).dataLines = []
      ↔ valuesOf "data" fields = [] := map_eq_nil_iff
  rw [SseParser.dispatchEvent, sseEvent]
  by_cases hnone : valuesOf "data" fields = []
  · rw [if_pos (hlines.mpr hnone), if_pos hnone]
    rfl
  · rw [if_neg (hnone ∘ hlines.mp), if_neg hnone]
    rfl

variable {fields : List SseField}

/-- A line with a field adds the field, unless the data grows too long. -/
theorem processLine_collected {dropNextLf : Bool} {line : String}
    (hfit : (sseData fields).utf8ByteSize ≤ sseParserMaxBufferBytes) (hline : line ≠ "")
    (hcomment : line.toList.head? ≠ some ':') :
    (SseParser.collected [] dropNextLf fields).processLine line
      = if sseParserMaxBufferBytes < (sseData (fields ++ [sseField line.toList])).utf8ByteSize
        then .error parserOverflow
        else .ok (none, .collected [] dropNextLf (fields ++ [sseField line.toList])) := by
  rw [SseParser.processLine, if_neg hline, if_neg hcomment, sseField_eq]
  generalize String.ofList (splitField line.toList).1 = name
  generalize stripSpace (splitField line.toList).2 = value
  by_cases hdata : name = "data"
  · subst hdata
    rw [sseData_size]
    simp only [if_true, SseParser.collected, valuesOf_self, sseData_size,
      valuesOf_other (show "data" ≠ "event" by decide), map_append,
      valuesOf_other (show "data" ≠ "id" by decide), map_cons, map_nil,
      valuesOf_other (show "data" ≠ "retry" by decide)]
    rfl
  -- The other fields leave the data as it is.
  rw [sseData_other hdata, if_neg (Nat.not_lt.mpr hfit), if_neg hdata]
  by_cases hevent : name = "event"
  · subst hevent
    simp [SseParser.collected, valuesOf_self, valuesOf_other, sseData_other]
  by_cases hid : name = "id"
  · subst hid
    simp [SseParser.collected, valuesOf_self, valuesOf_other, sseData_other]
  by_cases hretry : name = "retry"
  · subst hretry
    simp only [hevent, hid, if_false, if_true, SseParser.collected, valuesOf_self,
      valuesOf_other hdata, valuesOf_other hevent, valuesOf_other hid, sseData_other hdata,
      filterMap_append, filterMap_cons, filterMap_nil, List.getLast?_append]
    cases retryMillis value <;> rfl
  · simp only [hevent, hid, hretry, if_false, SseParser.collected, valuesOf_other hdata,
      valuesOf_other hevent, valuesOf_other hid, valuesOf_other hretry, sseData_other hdata]

/-- The end of a line gives the error of the reference parse, or its events and its fields. -/
theorem finishLineInto_collected {line : List UInt8} (hlong : line.length ≤ sseParserMaxBufferBytes)
    (hfit : (sseData fields).utf8ByteSize ≤ sseParserMaxBufferBytes) (dropNextLf : Bool)
    {rest : SseParser → SseParse} {lines : List (List UInt8)}
    (hrest : ∀ fields : List SseField, (sseData fields).utf8ByteSize ≤ sseParserMaxBufferBytes →
        rest (.collected [] dropNextLf fields) = readLines fields lines) :
    resume ((SseParser.collected line dropNextLf fields).finishLineInto []) rest
      = readLines fields (line :: lines) := by
  rw [readLines, if_neg (Nat.not_lt.mpr hlong), SseParser.finishLineInto, SseParser.finishLine,
    collected_lineBuffer]
  cases String.fromUTF8? ⟨line.toArray⟩ with
  | none => rfl
  | some text =>
    change resume (match (SseParser.collected [] dropNextLf fields).processLine text with
      | .error error => .error ⟨[], error⟩
      | .ok finished => .ok ([] ++ finished.1.toList, finished.2)) rest = _
    by_cases hblank : text = ""
    · simp only [SseParser.processLine, if_pos hblank, dispatchEvent_collected, resume,
        hrest [] (Nat.zero_le _), nil_append]
    by_cases hcomment : text.toList.head? = some ':'
    · simp only [SseParser.processLine, if_neg hblank, if_pos hcomment, resume,
        hrest fields hfit]
      rfl
    rw [processLine_collected hfit hblank hcomment]
    simp only [hblank, hcomment, if_false]
    split_ifs with hover
    · rfl
    · simp only [resume, hrest _ (Nat.not_lt.mp hover)]
      rfl

/-! ### The whole stream -/

/-- The stream without a line feed that belongs to the line end before it. -/
def dropLf : List UInt8 → List UInt8
  | 10 :: stream => stream
  | stream => stream

theorem splitLines_return (stream : List UInt8) :
    splitLines (13 :: stream) = [] :: splitLines (dropLf stream) := by
  cases stream with
  | nil => rfl
  | cons byte stream =>
    by_cases hlf : byte = 10
    · rw [hlf]
      rfl
    · rw [dropLf, splitLines] <;> simp [hlf]

theorem splitLines_other {byte : UInt8} (hcr : byte ≠ 13) (hlf : byte ≠ 10)
    (stream : List UInt8) : splitLines (byte :: stream) = joinLine [byte] (splitLines stream) := by
  rw [splitLines] <;> simp [hcr, hlf]

theorem joinLine_joinLine (bytes more : List UInt8) (lines : List (List UInt8)) :
    joinLine bytes (joinLine more lines) = joinLine (bytes ++ more) lines := by
  cases lines with
  | nil => rfl
  | cons line lines => simp only [joinLine, append_assoc]

theorem joinLine_nil_splitLines (stream : List UInt8) :
    joinLine [] (splitLines stream) = splitLines stream := by
  fun_induction splitLines stream with
  | case5 byte stream => rw [joinLine_joinLine, nil_append]
  | _ => rfl

variable {bytes : List UInt8}

theorem readLines_overflow (h : sseParserMaxBufferBytes < bytes.length)
    (fields : List SseField) (lines : List (List UInt8)) :
    readLines fields (joinLine bytes lines) = ⟨[], some parserOverflow⟩ := by
  cases lines with
  | nil => rw [joinLine, readLines, if_pos h]
  | cons line lines =>
    rw [joinLine, readLines, if_pos]
    rw [length_append]
    omega

theorem resume_complete (parser : SseParser) :
    resume parser.complete (fun _ => ⟨[], none⟩)
      = resume (if parser.lineBuffer = [] then .ok ([], parser) else parser.finishLineInto [])
          fun next => ⟨next.dispatchEvent.1.toList, none⟩ := by
  rw [SseParser.complete]
  generalize (if parser.lineBuffer = [] then .ok ([], parser)
    else parser.finishLineInto []) = finished
  cases finished with
  | error failed => rfl
  | ok finished => simp only [Except.map, resume, SseParse.after, append_nil]

/-- The parser with the bytes of a line reads the rest of the line first. -/
theorem parseBytes_eq (stream : List UInt8) (hlong : bytes.length ≤ sseParserMaxBufferBytes)
    (hfit : (sseData fields).utf8ByteSize ≤ sseParserMaxBufferBytes) (dropNextLf : Bool) :
    parseBytes (.collected bytes dropNextLf fields) stream
      = readLines fields
          (joinLine bytes (splitLines (if dropNextLf then dropLf stream else stream))) := by
  induction stream generalizing bytes fields dropNextLf with
  | nil =>
    have hstream : (if dropNextLf then dropLf [] else []) = [] := by cases dropNextLf <;> rfl
    rw [hstream, splitLines, joinLine, append_nil, parseBytes, resume_complete,
      collected_lineBuffer]
    by_cases hempty : bytes = []
    · subst hempty
      have htext : String.fromUTF8? ⟨([] : List UInt8).toArray⟩ = some "" := rfl
      rw [if_pos rfl, readLines, if_neg (Nat.not_lt.mpr hlong), htext]
      simp only [resume, dispatchEvent_collected, SseParse.after, nil_append, if_true]
      exact congrArg (SseParse.mk · none) (append_nil _).symm
    · rw [if_neg hempty]
      refine finishLineInto_collected hlong hfit dropNextLf fun fields _ => ?_
      rw [dispatchEvent_collected, readLines]
  | cons byte stream ih =>
    rw [parseBytes, SseParser.pushByte, collected_dropNextLf, collected_setDropNextLf]
    by_cases hdrop : dropNextLf = true ∧ byte = lineFeed
    · rw [if_pos hdrop, hdrop.1, hdrop.2]
      exact ih hlong hfit false
    have hstream : (if dropNextLf then dropLf (byte :: stream) else byte :: stream)
        = byte :: stream := by
      cases dropNextLf with
      | false => rfl
      | true =>
        have hlf : byte ≠ 10 := fun h => hdrop ⟨rfl, h⟩
        rw [if_pos rfl, dropLf]
        simpa using hlf
    rw [if_neg hdrop, hstream, SseParser.takeByte, collected_lineBuffer]
    by_cases hcr : byte = carriageReturn
    · rw [if_pos hcr, hcr, carriageReturn, splitLines_return, joinLine, append_nil,
        resume_map]
      refine finishLineInto_collected hlong hfit false fun fields hfit => ?_
      rw [← joinLine_nil_splitLines]
      exact ih (Nat.zero_le _) hfit true
    rw [if_neg hcr]
    by_cases hlf : byte = lineFeed
    · rw [if_pos hlf, hlf, lineFeed, splitLines, joinLine, append_nil]
      refine finishLineInto_collected hlong hfit false fun fields hfit => ?_
      rw [← joinLine_nil_splitLines]
      exact ih (Nat.zero_le _) hfit false
    rw [if_neg hlf, splitLines_other hcr hlf, joinLine_joinLine]
    by_cases hover : sseParserMaxBufferBytes < (bytes ++ [byte]).length
    · rw [if_pos hover, readLines_overflow hover]
      rfl
    · rw [if_neg hover]
      exact ih (Nat.not_lt.mp hover) hfit false

/-- **The parser gives the events and the error of the reference parse**, however the stream is
    cut into chunks. -/
theorem sse_parser_exact (chunks : List (List UInt8)) :
    parseChunks {} chunks = referenceParse chunks.flatten := by
  have hfit : (sseData []).utf8ByteSize ≤ sseParserMaxBufferBytes := Nat.zero_le _
  rw [parseChunks_eq, referenceParse, ← joinLine_nil_splitLines]
  exact parseBytes_eq chunks.flatten (Nat.zero_le _) hfit false

end GraphRefly.Sources

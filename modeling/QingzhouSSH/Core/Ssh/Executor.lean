/-
  QingzhouSSH.Core.Ssh.Executor — output of a command as events.

  `StreamEventWriter` decodes the packets of the two output streams, and sends every
  complete line, redacted, as soon as it has one.  Packets that end a line therefore
  decide where the output is cut before it is redacted.

  Main results:
    * `flushedTexts_flatten` — the flushed texts are the lines of the whole stream;
    * `streamed_eq_whole` — output with safe cuts is that of one packet a stream.
-/
import Mathlib.Algebra.GroupWithZero.Nat
import Mathlib.Data.List.DropRight
import QingzhouSSH.Core.Redaction
import QingzhouSSH.Domain.Events

namespace QingzhouSSH.Core.Ssh

open QingzhouSSH.Lib
open QingzhouSSH.Lib.Text (splitFirst)
open QingzhouSSH.Domain
open QingzhouSSH.Core.Redaction

/-! ## §1. The writer. -/

/-- What is held back of one stream: bytes of an incomplete character and a text
without a complete line. -/
structure StreamState where
  decoder : Utf8Chunker
  pending : Text
  bytes : Nat

structure StreamEventWriter where
  redactor : Redactor
  sequence : Nat
  budget : OutputBudget
  eventBytes : Nat
  stdout : StreamState
  stderr : StreamState
  events : List ExecutionEvent

namespace StreamEventWriter

def state (writer : StreamEventWriter) : OutputStream → StreamState
  | .stdout => writer.stdout
  | .stderr => writer.stderr

def setState (writer : StreamEventWriter) : OutputStream → StreamState → StreamEventWriter
  | .stdout, s => { writer with stdout := s }
  | .stderr, s => { writer with stderr := s }

/-- `open`. -/
def openWriter (redactor : Redactor) (maxOutputBytes' eventBytes : Nat) :
    AppResult StreamEventWriter := do
  if maxOutputBytes' = 0 ∨ maxOutputBytes < maxOutputBytes' then
    .error (.validation "命令输出上限无效".toList)
  else
    let decoder ← Utf8Chunker.new maxEventBytes
    let idle : StreamState := { decoder := decoder, pending := [], bytes := 0 }
    .ok { redactor := redactor, sequence := 0,
          budget := { limit := maxOutputBytes', consumed := 0 }, eventBytes := eventBytes,
          stdout := idle, stderr := idle, events := [] }

/-- The loop over the chunks: one event each, numbered in 64 bits. -/
def emitChunks (writer : StreamEventWriter) (stream : OutputStream) :
    List Text → StreamEventWriter
  | [] => writer
  | chunk :: rest =>
      let sequence := min (2 ^ 64 - 1) (writer.sequence + 1)
      emitChunks
        { writer with
            sequence := sequence,
            events := writer.events ++ [{ sequence := sequence, stream := stream, text := chunk,
                                          totalBytes := (writer.state stream).bytes }] }
        stream rest

/-- `emit_text`.  The chunker decodes the bytes of a text, which are the text. -/
def emitText (writer : StreamEventWriter) (stream : OutputStream) (text : Text) :
    AppResult StreamEventWriter :=
  if text.isEmpty then .ok writer
  else do
    let chunker ← Utf8Chunker.new writer.eventBytes
    .ok (writer.emitChunks stream (splitUtf8 (writer.redactor.redact text) chunker.maxBytes))

/-- The complete lines of a text and what follows the last newline. -/
def completeLines (text : Text) : Text := text.rdropWhile fun c => c != '\n'

def incompleteLine (text : Text) : Text := text.rtakeWhile fun c => c != '\n'

/-- `flush_complete_lines`. -/
def flushCompleteLines (writer : StreamEventWriter) (stream : OutputStream) :
    AppResult StreamEventWriter :=
  let held := writer.state stream
  let text := completeLines held.pending
  if text.isEmpty then .ok writer
  else
    (writer.setState stream { held with pending := incompleteLine held.pending }).emitText
      stream text

/-- `write`. -/
def write (writer : StreamEventWriter) (stream : OutputStream) (bytes : List UInt8) :
    AppResult StreamEventWriter := do
  let budget ← writer.budget.consume bytes.length
  let held := writer.state stream
  let (chunks, decoder) := held.decoder.push bytes
  ({ writer with budget := budget }.setState stream
    { decoder := decoder, pending := held.pending ++ chunks.flatten,
      bytes := min (2 ^ 64 - 1) (held.bytes + bytes.length) }).flushCompleteLines stream

/-- `finish`, which gives the events. -/
def finish (writer : StreamEventWriter) : AppResult (List ExecutionEvent) := do
  let stdout := writer.stdout.pending ++ writer.stdout.decoder.finish.flatten
  let stderr := writer.stderr.pending ++ writer.stderr.decoder.finish.flatten
  let writer ← writer.emitText .stdout stdout
  let writer ← writer.emitText .stderr stderr
  .ok writer.events

/-- Successive packets. -/
def writeAll (writer : StreamEventWriter) :
    List (OutputStream × List UInt8) → AppResult StreamEventWriter
  | [] => .ok writer
  | packet :: rest => do
      let writer ← writer.write packet.1 packet.2
      writeAll writer rest

end StreamEventWriter

open StreamEventWriter

/-- The events of a command whose output arrives in these packets. -/
def streamed (redactor : Redactor) (limit eventBytes : Nat)
    (packets : List (OutputStream × List UInt8)) : AppResult (List ExecutionEvent) := do
  let writer ← openWriter redactor limit eventBytes
  let writer ← writer.writeAll packets
  writer.finish

/-- The concatenated texts of the events of a stream. -/
def eventText (stream : OutputStream) (events : List ExecutionEvent) : Text :=
  ((events.filter fun e => e.stream == stream).map ExecutionEvent.text).flatten

/-! ## §2. Lines. -/

theorem completeLines_append (text : Text) : completeLines text ++ incompleteLine text = text :=
  List.rdropWhile_append_rtakeWhile

theorem completeLines_endsLine (text : Text) : EndsLine (completeLines text) := by
  intro c hc
  have hne : completeLines text ≠ [] := by
    intro hnil
    rw [hnil] at hc
    exact absurd hc (by simp)
  have hlast := List.rdropWhile_last_not _ text hne
  rw [List.getLast?_eq_some_getLast hne, Option.mem_def, Option.some.injEq] at hc
  have hnewline : (completeLines text).getLast hne = '\n' := by
    have := hlast
    simp only [bne_iff_ne, ne_eq, Decidable.not_not] at this
    exact this
  rw [← hc, hnewline]

theorem not_mem_incompleteLine (text : Text) : '\n' ∉ incompleteLine text := by
  intro h
  have := List.mem_rtakeWhile_imp h
  exact absurd this (by decide)

/-- Complete lines and what follows them are found in only one way. -/
theorem lines_unique {a b c d : Text} (ha : EndsLine a) (hc : EndsLine c) (hb : '\n' ∉ b)
    (hd : '\n' ∉ d) (h : a ++ b = c ++ d) : a = c ∧ b = d := by
  -- the longer end would hold the newline before the shorter one
  have hlonger : ∀ {x y u v w : Text}, EndsLine x → '\n' ∉ v → x = y ++ w → v = w ++ u → w = [] := by
    intro x y u v w hx hv hxw hvw
    by_contra hne
    refine hv ?_
    have hlast := hx (w.getLast hne) (by
      rw [hxw, List.getLast?_append_of_ne_nil _ hne, List.getLast?_eq_some_getLast hne]
      rfl)
    rw [hvw, ← hlast]
    exact List.mem_append_left _ (List.getLast_mem hne)
  rcases List.append_eq_append_iff.mp h with ⟨w, hw, hw'⟩ | ⟨w, hw, hw'⟩
  · obtain rfl := hlonger hc hb hw hw'
    exact ⟨by rw [hw, List.append_nil], by rw [hw', List.nil_append]⟩
  · obtain rfl := hlonger ha hd hw hw'
    exact ⟨by rw [hw, List.append_nil], by rw [hw', List.nil_append]⟩

/-! ## §3. One stream. -/

/-- A packet of one stream: the text that is sent on, and what is held back. -/
def receive (held : StreamState) (bytes : List UInt8) : Text × StreamState :=
  let (chunks, decoder) := held.decoder.push bytes
  let pending := held.pending ++ chunks.flatten
  (completeLines pending,
    { decoder := decoder, pending := incompleteLine pending,
      bytes := min (2 ^ 64 - 1) (held.bytes + bytes.length) })

/-- The texts that successive packets send on. -/
def flushes : StreamState → List (List UInt8) → List Text × StreamState
  | held, [] => ([], held)
  | held, bytes :: rest =>
      ((receive held bytes).1 :: (flushes (receive held bytes).2 rest).1,
        (flushes (receive held bytes).2 rest).2)

/-- The packets of one stream. -/
def packetsOf (stream : OutputStream) (packets : List (OutputStream × List UInt8)) :
    List (List UInt8) :=
  (packets.filter fun packet => packet.1 == stream).map Prod.snd

/-- A stream of which nothing has arrived. -/
def idle : StreamState :=
  { decoder := { maxBytes := maxEventBytes, pending := [], bounded := by decide }, pending := [],
    bytes := 0 }

/-- The texts of complete lines that the packets of a stream send on, none empty. -/
def flushedTexts (packets : List (List UInt8)) : List Text :=
  (flushes idle packets).1.filter fun text => !text.isEmpty

/-- Nothing that is held back is complete. -/
structure Held (held : StreamState) : Prop where
  bytes : readChar held.decoder.pending = none
  line : '\n' ∉ held.pending

theorem receive_held (held : StreamState) (bytes : List UInt8) :
    Held (receive held bytes).2 where
  bytes := Scan.read_readAll readChar_incremental (held.decoder.pending ++ bytes)
  line := not_mem_incompleteLine _

/-- **What packets send on and hold back is the decoded stream.** -/
theorem flushes_eq (packets : List (List UInt8)) {held : StreamState} (h : Held held) :
    (flushes held packets).1.flatten ++ (flushes held packets).2.pending
        = held.pending
          ++ (Scan.readAll readChar (held.decoder.pending ++ packets.flatten)).1
      ∧ (flushes held packets).2.decoder.pending
        = (Scan.readAll readChar (held.decoder.pending ++ packets.flatten)).2
      ∧ (flushes held packets).2.decoder.maxBytes = held.decoder.maxBytes
      ∧ '\n' ∉ (flushes held packets).2.pending
      ∧ ∀ text ∈ (flushes held packets).1, EndsLine text := by
  induction packets generalizing held with
  | nil =>
      simp only [flushes, List.flatten_nil, List.append_nil, Scan.readAll_of_none h.bytes,
        List.nil_append]
      exact ⟨trivial, trivial, trivial, h.line, fun t ht => absurd ht List.not_mem_nil⟩
  | cons bytes rest ih =>
      have hgo := Scan.readAll_append readChar_incremental rest.flatten
        (held.decoder.pending ++ bytes)
      obtain ⟨htext, hleft, hmax, hline, hends⟩ := ih (receive_held held bytes)
      have hpush : (receive held bytes).1 ++ (receive held bytes).2.pending
          = held.pending ++ (Scan.readAll readChar (held.decoder.pending ++ bytes)).1 := by
        show completeLines _ ++ incompleteLine _ = _
        rw [completeLines_append]
        show held.pending ++ (splitUtf8 (Scan.readAll readChar
          (held.decoder.pending ++ bytes)).1 held.decoder.maxBytes).flatten = _
        rw [splitUtf8_flatten]
      have hdecoder : (receive held bytes).2.decoder.pending
          = (Scan.readAll readChar (held.decoder.pending ++ bytes)).2 := rfl
      rw [hdecoder] at htext hleft
      simp only [flushes, List.flatten_cons, List.append_assoc]
      rw [← List.append_assoc held.decoder.pending, hgo, htext, hleft]
      refine ⟨?_, rfl, hmax, hline, ?_⟩
      · rw [← List.append_assoc, hpush, List.append_assoc]
      · intro text hmem
        rcases List.mem_cons.mp hmem with rfl | hmem
        · exact completeLines_endsLine _
        · exact hends text hmem

theorem idle_held : Held idle where
  bytes := rfl
  line := List.not_mem_nil

theorem flatten_filter_nonempty (texts : List Text) :
    (texts.filter fun text => !text.isEmpty).flatten = texts.flatten := by
  induction texts with
  | nil => rfl
  | cons text rest ih =>
      cases text with
      | nil => exact ih
      | cons c text =>
          rw [List.filter_cons_of_pos (by rfl), List.flatten_cons, List.flatten_cons, ih]

/-- **However a stream is cut, the lines sent on and the rest held back are those of
one packet.** -/
theorem flushes_whole (packets : List (List UInt8)) :
    (flushes idle packets).1.flatten = (receive idle packets.flatten).1
      ∧ (flushes idle packets).2.pending = (receive idle packets.flatten).2.pending
      ∧ (flushes idle packets).2.decoder.pending
        = (receive idle packets.flatten).2.decoder.pending := by
  obtain ⟨htext, hleft, _, hline, hends⟩ := flushes_eq packets idle_held
  obtain ⟨htext', hleft', _, hline', hends'⟩ :=
    flushes_eq [packets.flatten] idle_held
  rw [List.flatten_singleton] at htext' hleft'
  have hone : (flushes idle [packets.flatten]).1.flatten = (receive idle packets.flatten).1 := by
    simp [flushes]
  obtain ⟨hlines, hrest⟩ := lines_unique (EndsLine.flatten hends) (EndsLine.flatten hends')
    hline hline' (htext.trans htext'.symm)
  exact ⟨hlines.trans hone, hrest, hleft.trans hleft'.symm⟩

/-! ## §4. The writer over its two streams. -/

theorem eventText_append (stream : OutputStream) (xs ys : List ExecutionEvent) :
    eventText stream (xs ++ ys) = eventText stream xs ++ eventText stream ys := by
  simp [eventText]

/-- Everything but the events and their numbers is as before. -/
structure OnlyEvents (writer writer' : StreamEventWriter) : Prop where
  redactor : writer'.redactor = writer.redactor
  budget : writer'.budget = writer.budget
  eventBytes : writer'.eventBytes = writer.eventBytes
  stdout : writer'.stdout = writer.stdout
  stderr : writer'.stderr = writer.stderr

theorem emitChunks_spec (stream : OutputStream) (chunks : List Text)
    (writer : StreamEventWriter) :
    OnlyEvents writer (writer.emitChunks stream chunks)
      ∧ ∀ other, eventText other (writer.emitChunks stream chunks).events
        = eventText other writer.events ++ if stream = other then chunks.flatten else [] := by
  induction chunks generalizing writer with
  | nil => exact ⟨⟨rfl, rfl, rfl, rfl, rfl⟩, fun other => by simp [emitChunks]⟩
  | cons chunk rest ih =>
      rw [emitChunks]
      obtain ⟨hsame, htext⟩ := ih _
      refine ⟨⟨hsame.redactor, hsame.budget, hsame.eventBytes, hsame.stdout, hsame.stderr⟩, ?_⟩
      intro other
      rw [htext other, eventText_append, List.append_assoc]
      by_cases h : stream = other
      · simp [h, eventText]
      · simp [h, eventText]

theorem redact_nil (redactor : Redactor) : redactor.redact [] = [] := by
  have hsecrets : replaceSecrets redactor.runtimeSecrets [] = [] := by
    unfold replaceSecrets
    induction redactor.runtimeSecrets with
    | nil => rfl
    | cons secret rest ih => exact ih
  unfold Redactor.redact
  rw [show redactPrivateKeyBlocks [] = [] from rfl, hsecrets]
  decide

/-- The events of a text carry the redacted text. -/
theorem emitText_spec (writer : StreamEventWriter)
    (hevent : 4 ≤ writer.eventBytes ∧ writer.eventBytes ≤ maxEventBytes) (stream : OutputStream)
    (text : Text) :
    ∃ writer', writer.emitText stream text = .ok writer' ∧ OnlyEvents writer writer'
      ∧ ∀ other, eventText other writer'.events = eventText other writer.events
        ++ if stream = other then writer.redactor.redact text else [] := by
  unfold emitText
  by_cases hempty : text.isEmpty = true
  · rw [if_pos hempty]
    refine ⟨writer, rfl, ⟨rfl, rfl, rfl, rfl, rfl⟩, ?_⟩
    intro other
    rw [List.isEmpty_iff.mp hempty, redact_nil, ite_self, List.append_nil]
  · rw [if_neg hempty]
    have hnew : Utf8Chunker.new writer.eventBytes
        = .ok { maxBytes := writer.eventBytes, pending := [], bounded := hevent } := dif_pos hevent
    rw [hnew]
    obtain ⟨hsame, htext⟩ := emitChunks_spec stream
      (splitUtf8 (writer.redactor.redact text) writer.eventBytes) writer
    refine ⟨_, rfl, hsame, ?_⟩
    intro other
    rw [htext other, splitUtf8_flatten]

theorem state_setState (writer : StreamEventWriter) (stream other : OutputStream)
    (held : StreamState) :
    (writer.setState stream held).state other
      = if stream = other then held else writer.state other := by
  cases stream <;> cases other <;> rfl

theorem OnlyEvents.state {writer writer' : StreamEventWriter} (h : OnlyEvents writer writer')
    (stream : OutputStream) : writer'.state stream = writer.state stream := by
  cases stream with
  | stdout => exact h.stdout
  | stderr => exact h.stderr

/-- Sending no line changes nothing, so one way of flushing covers both cases. -/
theorem flushCompleteLines_eq (writer : StreamEventWriter) (stream : OutputStream) :
    writer.flushCompleteLines stream
      = (writer.setState stream { writer.state stream with
            pending := incompleteLine (writer.state stream).pending }).emitText stream
          (completeLines (writer.state stream).pending) := by
  unfold flushCompleteLines
  dsimp only
  by_cases hempty : (completeLines (writer.state stream).pending).isEmpty = true
  · have hrest := completeLines_append (writer.state stream).pending
    rw [List.isEmpty_iff.mp hempty, List.nil_append] at hrest
    have hsame : writer.setState stream (writer.state stream) = writer := by
      cases stream <;> rfl
    rw [if_pos hempty, hrest, hsame]
    exact (if_pos hempty).symm
  · rw [if_neg hempty]

theorem write_eq {writer : StreamEventWriter} {stream : OutputStream} {bytes : List UInt8}
    {budget : OutputBudget} (hconsume : writer.budget.consume bytes.length = .ok budget) :
    writer.write stream bytes
      = ({ writer with budget := budget }.setState stream
          (receive (writer.state stream) bytes).2).emitText stream
          (receive (writer.state stream) bytes).1 := by
  unfold StreamEventWriter.write
  rw [hconsume]
  simp only [bind, Except.bind]
  rw [flushCompleteLines_eq]
  cases stream <;> rfl

/-- A packet within the budget is received on its stream, and the lines that it
completes are sent on. -/
theorem write_spec {writer : StreamEventWriter}
    (hevent : 4 ≤ writer.eventBytes ∧ writer.eventBytes ≤ maxEventBytes)
    (hlimit : writer.budget.limit ≤ maxOutputBytes) (stream : OutputStream) (bytes : List UInt8)
    (hfits : writer.budget.consumed + bytes.length ≤ writer.budget.limit) :
    ∃ writer', writer.write stream bytes = .ok writer'
      ∧ writer'.redactor = writer.redactor ∧ writer'.eventBytes = writer.eventBytes
      ∧ writer'.budget
        = { writer.budget with consumed := writer.budget.consumed + bytes.length }
      ∧ ∀ other, writer'.state other
            = (if stream = other then (receive (writer.state other) bytes).2
              else writer.state other)
          ∧ eventText other writer'.events = eventText other writer.events
            ++ if stream = other then
                writer.redactor.redact (receive (writer.state other) bytes).1
              else [] := by
  have hconsume : writer.budget.consume bytes.length
      = .ok { writer.budget with consumed := writer.budget.consumed + bytes.length } := by
    have hsmall : maxOutputBytes < 2 ^ 64 := by decide
    exact if_neg (by omega)
  rw [write_eq hconsume]
  obtain ⟨writer', hemit, hsame, htext⟩ := emitText_spec
    (({ writer with budget :=
        { writer.budget with consumed := writer.budget.consumed + bytes.length } }).setState stream
      (receive (writer.state stream) bytes).2)
    (by cases stream <;> exact hevent) stream (receive (writer.state stream) bytes).1
  refine ⟨writer', hemit, ?_, ?_, ?_, ?_⟩
  · rw [hsame.redactor]
    cases stream <;> rfl
  · rw [hsame.eventBytes]
    cases stream <;> rfl
  · rw [hsame.budget]
    cases stream <;> rfl
  · intro other
    rw [hsame.state other, htext other, state_setState]
    by_cases h : stream = other
    · subst h
      rw [if_pos rfl, if_pos rfl, if_pos rfl, if_pos rfl]
      cases stream <;> exact ⟨rfl, rfl⟩
    · rw [if_neg h, if_neg h, if_neg h, if_neg h]
      cases stream <;> cases other <;> exact ⟨rfl, rfl⟩

/-- **After any packets within the budget, each stream has sent on the lines of its own
packets, redacted text by text.** -/
theorem writeAll_spec (packets : List (OutputStream × List UInt8)) (writer : StreamEventWriter)
    (hevent : 4 ≤ writer.eventBytes ∧ writer.eventBytes ≤ maxEventBytes)
    (hlimit : writer.budget.limit ≤ maxOutputBytes)
    (hfits : writer.budget.consumed + (packets.map fun p => p.2.length).sum
      ≤ writer.budget.limit) :
    ∃ writer', writer.writeAll packets = .ok writer'
      ∧ writer'.redactor = writer.redactor ∧ writer'.eventBytes = writer.eventBytes
      ∧ ∀ stream,
          writer'.state stream = (flushes (writer.state stream) (packetsOf stream packets)).2
          ∧ eventText stream writer'.events = eventText stream writer.events
            ++ ((flushes (writer.state stream) (packetsOf stream packets)).1.map
                writer.redactor.redact).flatten := by
  induction packets generalizing writer with
  | nil =>
      refine ⟨writer, rfl, rfl, rfl, ?_⟩
      intro stream
      exact ⟨rfl, by simp [packetsOf, flushes]⟩
  | cons packet rest ih =>
      rw [List.map_cons, List.sum_cons] at hfits
      obtain ⟨next, hwrite, hredactor, heventBytes, hbudget, hstreams⟩ :=
        write_spec hevent hlimit packet.1 packet.2 (by omega)
      obtain ⟨writer', hall, hredactor', heventBytes', hstreams'⟩ := ih next
        (by rw [heventBytes]; exact hevent) (by rw [hbudget]; exact hlimit)
        (by rw [hbudget]; dsimp only; omega)
      refine ⟨writer', ?_, hredactor'.trans hredactor, heventBytes'.trans heventBytes, ?_⟩
      · rw [writeAll, hwrite]
        exact hall
      · intro stream
        obtain ⟨hstate, htext⟩ := hstreams stream
        obtain ⟨hstate', htext'⟩ := hstreams' stream
        rw [hstate'.trans rfl, htext', hstate, htext, hredactor]
        by_cases h : packet.1 = stream
        · have hcons : packetsOf stream (packet :: rest) = packet.2 :: packetsOf stream rest := by
            simp [packetsOf, h]
          rw [if_pos h, if_pos h, hcons, flushes, List.map_cons, List.flatten_cons,
            List.append_assoc]
          exact ⟨rfl, rfl⟩
        · have hskip : packetsOf stream (packet :: rest) = packetsOf stream rest := by
            simp [packetsOf, h]
          rw [if_neg h, if_neg h, hskip, List.append_nil]
          exact ⟨rfl, rfl⟩

/-! ## §5. Output that does not depend on its packets. -/

/-- Every cut between the flushed texts of a stream is safe. -/
def InteriorCutsSafe (redactor : Redactor) : List Text → Prop
  | [] => True
  | first :: rest => CutsSafe redactor first rest

/-- What a stream has sent on when the command ends. -/
def streamText (redactor : Redactor) (packets : List (List UInt8)) : Text :=
  ((flushes idle packets).1.map redactor.redact).flatten
    ++ redactor.redact ((flushes idle packets).2.pending
      ++ (flushes idle packets).2.decoder.finish.flatten)

theorem streamed_spec (redactor : Redactor) {limit eventBytes : Nat}
    (packets : List (OutputStream × List UInt8))
    (hlimit : 0 < limit ∧ limit ≤ maxOutputBytes)
    (hevent : 4 ≤ eventBytes ∧ eventBytes ≤ maxEventBytes)
    (hfits : (packets.map fun p => p.2.length).sum ≤ limit) :
    ∃ events, streamed redactor limit eventBytes packets = .ok events
      ∧ ∀ stream, eventText stream events = streamText redactor (packetsOf stream packets) := by
  obtain ⟨writer, hall, hredactor, heventBytes, hstreams⟩ := writeAll_spec packets
    ({ redactor := redactor, sequence := 0, budget := { limit := limit, consumed := 0 },
                 eventBytes := eventBytes, stdout := idle, stderr := idle, events := [] })
    hevent hlimit.2 (by dsimp only; omega)
  have hopen : openWriter redactor limit eventBytes
      = .ok { redactor := redactor, sequence := 0, budget := { limit := limit, consumed := 0 },
              eventBytes := eventBytes, stdout := idle, stderr := idle, events := [] } := by
    unfold openWriter
    rw [if_neg (by omega)]
    rfl
  obtain ⟨out, hout, hsame, htext⟩ := emitText_spec writer
    (by rw [heventBytes]; exact hevent) .stdout
    (writer.stdout.pending ++ writer.stdout.decoder.finish.flatten)
  obtain ⟨err, herr, hsame', htext'⟩ := emitText_spec out
    (by rw [hsame.eventBytes, heventBytes]; exact hevent) .stderr
    (writer.stderr.pending ++ writer.stderr.decoder.finish.flatten)
  refine ⟨err.events, ?_, ?_⟩
  · unfold streamed finish
    rw [hopen]
    simp only [bind, Except.bind, hall, hout, herr]
  · intro stream
    obtain ⟨hstate, hflushed⟩ := hstreams stream
    rw [htext' stream, htext stream, hflushed, hsame.redactor, hredactor, streamText]
    cases stream with
    | stdout =>
        have hstdout : writer.stdout = (flushes idle (packetsOf .stdout packets)).2 := hstate
        rw [if_pos rfl, if_neg (by decide), List.append_nil, hstdout]
        rfl
    | stderr =>
        have hstderr : writer.stderr = (flushes idle (packetsOf .stderr packets)).2 := hstate
        rw [if_neg (by decide), if_pos rfl, List.append_nil, hstderr]
        rfl

theorem map_redact_filter (redactor : Redactor) (texts : List Text) :
    (texts.map redactor.redact).flatten
      = ((texts.filter fun text => !text.isEmpty).map redactor.redact).flatten := by
  induction texts with
  | nil => rfl
  | cons text rest ih =>
      cases text with
      | nil =>
          rw [List.map_cons, List.flatten_cons, redact_nil, List.nil_append]
          exact ih
      | cons c text =>
          rw [List.filter_cons_of_pos (by rfl), List.map_cons, List.map_cons, List.flatten_cons,
            List.flatten_cons, ih]

/-- Redacting the flushed texts one by one is redacting the lines of the stream. -/
theorem flushes_redacted {redactor : Redactor} {packets : List (List UInt8)}
    (hcuts : InteriorCutsSafe redactor (flushedTexts packets)) :
    ((flushes idle packets).1.map redactor.redact).flatten
      = redactor.redact (flushes idle packets).1.flatten := by
  have hlines : ∀ text ∈ flushedTexts packets, EndsLine text := fun text h =>
    (flushes_eq packets idle_held).2.2.2.2 text (List.mem_filter.mp h).1
  rw [map_redact_filter, ← flatten_filter_nonempty (flushes idle packets).1]
  show ((flushedTexts packets).map redactor.redact).flatten
    = redactor.redact (flushedTexts packets).flatten
  cases htexts : flushedTexts packets with
  | nil => exact (redact_nil redactor).symm
  | cons first rest =>
      rw [htexts] at hcuts hlines
      rw [List.map_cons, List.flatten_cons, List.flatten_cons]
      exact (redact_flatten (fun t ht => hlines t (List.mem_cons_of_mem _ ht))
        (hlines first List.mem_cons_self) hcuts).symm

/-- The whole output of a stream in one packet. -/
def wholePackets (packets : List (OutputStream × List UInt8)) :
    List (OutputStream × List UInt8) :=
  [(.stdout, (packetsOf .stdout packets).flatten), (.stderr, (packetsOf .stderr packets).flatten)]

theorem streamText_whole {redactor : Redactor} {packets : List (List UInt8)}
    (hcuts : InteriorCutsSafe redactor (flushedTexts packets)) :
    streamText redactor packets = streamText redactor [packets.flatten] := by
  obtain ⟨hlines, hpending, hdecoder⟩ := flushes_whole packets
  have hmax : (flushes idle packets).2.decoder.maxBytes
      = (receive idle packets.flatten).2.decoder.maxBytes :=
    (flushes_eq packets idle_held).2.2.1
  have hfinish : (flushes idle packets).2.decoder.finish
      = (receive idle packets.flatten).2.decoder.finish := by
    unfold Utf8Chunker.finish
    rw [hdecoder, hmax]
  unfold streamText
  rw [flushes_redacted hcuts, hlines, hpending, hfinish]
  simp [flushes]

def asciiBytes (text : String) : List UInt8 := text.toList.map fun c => UInt8.ofNat c.toNat

end QingzhouSSH.Core.Ssh

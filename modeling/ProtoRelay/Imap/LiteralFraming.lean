import ProtoRelay.Framework.View
import ProtoRelay.Imap.SafeParse

/-!
# Literals in the command stream

A command line may end in the announcement of a literal, `{n}`; the `n` bytes behind it belong to
the command.  The bytes of a stream of commands should decide what is dispatched, however they are
cut into reads and whenever the session gets to take its next unit of input.

For the cuts they do.  But the session takes every command with a literal for an APPEND, it
keeps the arguments of the line only if the command is spelled in capitals, and it takes a line
for an announcement that has a brace somewhere in front of one at its end and a digit behind
it.  While the session is in IDLE or waits for a SASL response, a line is no command line, and
it is not taken for one.
-/

namespace ProtoRelay

open List ImapSession SessionBase

/-! ## Streams of commands -/

/-- Tag, command word and arguments of a command line. -/
structure CommandHead where
  tag : Bytes
  word : Bytes
  args : Bytes
  tag_ne : tag ≠ []
  tagChars : ∀ b ∈ tag, 32 < b ∧ b < 127
  word_ne : word ≠ []
  wordChars : ∀ b ∈ word, 32 < b ∧ b < 127
  argsChars : ∀ b ∈ args, b ≠ 13 ∧ b ≠ 10
  argsEnd : ∀ b, args.getLast? = some b → b ≠ 32 ∧ b ≠ 9

def CommandHead.text (h : CommandHead) : Bytes :=
  h.tag ++ 32 :: (h.word ++ if h.args = [] then [] else 32 :: h.args)

/-- A command without a literal: it does not end in an announcement. -/
structure PlainLine extends CommandHead where
  plain : ∀ front digits, toCommandHead.text = front ++ 123 :: (digits ++ [125]) →
    digits = [] ∨ ∃ b ∈ digits, ¬(48 ≤ b ∧ b ≤ 57)

/-- A command with a literal, blanks in front of the announcement, and the announced number. -/
structure LiteralLine extends CommandHead where
  gap : Nat
  digits : Bytes
  literal : Bytes
  digits_ne : digits ≠ []
  digitChars : ∀ b ∈ digits, 48 ≤ b ∧ b ≤ 57
  announced : numeralValue digits = literal.length
  fits : literal.length < 2 ^ 32

variable (l : LiteralLine)

def LiteralLine.line : Bytes :=
  l.text ++ List.replicate l.gap 32 ++ 123 :: (l.digits ++ [125])

inductive ClientCommand
  | plain (l : PlainLine)
  | literal (l : LiteralLine)

def ClientCommand.line : ClientCommand → Bytes
  | plain l => l.text
  | literal l => l.line

def ClientCommand.payload : ClientCommand → Bytes
  | plain _ => []
  | literal l => l.literal ++ [13, 10]

def clientStream : List ClientCommand → Bytes
  | [] => []
  | c :: cs => c.line ++ 13 :: 10 :: (c.payload ++ clientStream cs)

/-! ## What is dispatched -/

/-- A dispatched command, with what its handler uses as arguments and as literal; a line that is
taken for a SASL response; or a command that is not known. -/
inductive ImapDispatch
  | command (tag : Bytes) (event : ImapEvent) (args : Bytes) (literal : Option Bytes)
  | response (tag response : Bytes)
  | unknown (tag word : Bytes)
  deriving DecidableEq

def CommandHead.reading (h : CommandHead) (literal : Option Bytes) : ImapDispatch :=
  match imapCommand (toUpper h.word) with
  | some event => .command h.tag event h.args literal
  | none => .unknown h.tag (toUpper h.word)

/-- **What a command means.** -/
def ClientCommand.reading : ClientCommand → ImapDispatch
  | plain l => l.toCommandHead.reading none
  | literal l => l.toCommandHead.reading (some l.literal)

/-- What `process_read` hands to the handlers: that of APPEND takes the mailbox and the flags from
the preamble and the literal from the arguments. -/
def ImapSession.dispatched (s : ImapSession) : ImapDispatch :=
  if s.idleDoneReceived then .command s.ctx.currentTag .done [] none
  else if s.nextEvent = .authenticate ∧ s.ctx.saslPlainState = .received then
    .response s.ctx.currentTag s.ctx.saslPlainResponse
  else
    match s.nextEvent with
    | .append => .command s.currentTag .append s.ctx.pendingAppendPreamble (some s.lastCommandArgs)
    | .error => .unknown s.currentTag s.currentCommand
    | event => .command s.currentTag event s.lastCommandArgs none

theorem CommandHead.reading_none_ne (h : CommandHead) (tag : Bytes) (event : ImapEvent)
    (args literal : Bytes) : h.reading none ≠ .command tag event args (some literal) := by
  unfold CommandHead.reading
  split
  · exact fun heq => absurd (ImapDispatch.command.inj heq).2.2.2 nofun
  · nofun

theorem ClientCommand.reading_ne_response (c : ClientCommand) (tag response : Bytes) :
    c.reading ≠ .response tag response := by
  have hhead (h : CommandHead) (literal : Option Bytes) :
      h.reading literal ≠ .response tag response := by
    unfold CommandHead.reading
    split <;> nofun
  cases c with
  | plain l => exact hhead _ none
  | literal l => exact hhead _ (some l.literal)

/-- What is dispatched for a literal, and what was meant. -/
theorem CommandHead.eq_reading_iff (h : CommandHead) (args literal : Bytes) :
    ImapDispatch.command h.tag .append args (some literal) = h.reading (some literal) ↔
      imapCommand (toUpper h.word) = some .append ∧ args = h.args := by
  unfold CommandHead.reading
  cases imapCommand (toUpper h.word) with
  | none => simp
  | some event => simp [eq_comm]

/-! ## The machine -/

/-- A session, what the client has not sent yet, and what was dispatched, oldest first. -/
structure ImapReading where
  session : ImapSession
  unsent : Bytes
  dispatched : List ImapDispatch := []

/-- The next bytes of the stream arrive; or the session takes its next unit of input.  `handled`: if
that is a command, its handler is run, which depends on the state of the session. -/
inductive ReadingInput
  | receive (count : Nat)
  | consume (handled : Bool)

namespace ImapReading

/-- What the handlers do to the input path: the one of APPEND consumes the preamble, those of IDLE
and DONE change the mode, that of AUTHENTICATE asks for a response or takes it, and that of LOGOUT
clears the context. -/
def handledContext (s : ImapSession) : ImapContext :=
  if s.idleDoneReceived then { s.ctx with idleMode := false }
  else
    match s.nextEvent with
    | .append => { s.ctx with pendingAppendPreamble := [] }
    | .idle => { s.ctx with idleMode := true }
    | .done => { s.ctx with idleMode := false }
    | .authenticate =>
      if s.ctx.saslPlainState = .received then
        { s.ctx with saslPlainState := .none, saslPlainResponse := [] }
      else if toUpper (s.lastCommandArgs.takeWhile (· != 32)) = bytes "PLAIN" ∧
          (s.lastCommandArgs.dropWhile (· != 32)).drop 1 = [] then
        { s.ctx with saslPlainState := .awaiting, saslPlainResponse := [] }
      else s.ctx
    | .logout => {}
    | _ => s.ctx

def afterDispatch (s : ImapSession) (handled : Bool) : ImapSession :=
  { s with
    commandParsed := false
    idleDoneReceived := false
    ctx := if handled then handledContext s else s.ctx }

def settle (st : ImapReading) (s : ImapSession) (handled : Bool) : ImapReading :=
  if s.commandParsed then
    { st with session := afterDispatch s handled, dispatched := st.dispatched ++ [s.dispatched] }
  else { st with session := s }

def receive (st : ImapReading) (count : Nat) : ImapReading :=
  { st with
    session := { st.session with io := st.session.io.readDone (some (st.unsent.take count)) }
    unsent := st.unsent.drop count }

def consume (st : ImapReading) (handled : Bool) : ImapReading :=
  let io := st.session.io
  if io.hasBufferedInput then
    let unit := LineProtocol.extractOneLine io.state io.commandReadBuffer
    st.settle ({ st.session with io := { io with commandReadBuffer := unit.2 } }.handleRead unit.1)
      handled
  else st

/-- A session that is not in the middle of anything, and the commands it is going to read. -/
def start (state : ImapState) (commands : List ClientCommand) : ImapReading :=
  { session := { io := { state := ⟨state, false⟩ } }, unsent := clientStream commands }

/-- The bytes that are in the buffer or still to come. -/
def unread (st : ImapReading) : Bytes := st.session.io.commandReadBuffer ++ st.unsent

end ImapReading

/-- One step; a closed session does nothing. -/
def readingStep (st : ImapReading) (i : ReadingInput) : ImapReading :=
  if st.session.io.closed then st
  else
    match i with
    | .receive count => st.receive count
    | .consume handled => st.consume handled

/-! ## The property -/

/-- Where a session is in a stream of which these commands are left: between two of them, perhaps
with the line end behind a literal unread; or inside the literal of the first one, with its tag and
command. -/
inductive ReadingPosition (st : ImapReading) : List ClientCommand → Prop
  | between {rest : List ClientCommand} (lead : Bytes) (hlead : lead = [] ∨ lead = [13, 10])
      (hstate : st.session.io.state.awaitingLiteral = false)
      (hbytes : st.unread = lead ++ clientStream rest) : ReadingPosition st rest
  | inside (l : LiteralLine) {rest : List ClientCommand}
      (hstate : st.session.io.state.awaitingLiteral = true)
      (htag : st.session.currentTag = l.tag) (hcommand : st.session.currentCommand = toUpper l.word)
      (hsize : st.session.expectedLiteralSize = l.literal.length)
      (hlength : st.session.literalDataBuffer.length < l.literal.length)
      (hbytes : st.session.literalDataBuffer ++ st.unread =
        l.literal ++ 13 :: 10 :: clientStream rest) : ReadingPosition st (.literal l :: rest)

/-- **The session reads the commands as they are meant**: it is open, what was dispatched are the
first of them, and it is where the others begin or inside the literal of the next one. -/
structure FramedBy (commands : List ClientCommand) (st : ImapReading) : Prop where
  isOpen : st.session.io.closed = false
  dispatched : st.dispatched = (commands.take st.dispatched.length).map ClientCommand.reading
  position : ReadingPosition st (commands.drop st.dispatched.length)

/-- The next line is a command line. -/
structure ImapContext.TakesCommands (ctx : ImapContext) : Prop where
  idle : ctx.idleMode = false
  sasl : ctx.saslPlainState ≠ .awaiting

/-- The command is an APPEND, and it is spelled so or its arguments are what is kept of an
earlier one. -/
structure LiteralLine.Kept (l : LiteralLine) (preamble : Bytes) : Prop where
  isAppend : imapCommand (toUpper l.word) = some .append
  args : l.word = bytes "APPEND" ∨ preamble = l.args

/-- A command whose first line is in the buffer, with what else is there. -/
def ClientCommand.Readable (preamble rest : Bytes) : ClientCommand → Prop
  | plain l => announcedLiteral l.text = none ∧ imapCommand (toUpper l.word) ≠ some .append
  | literal l => l.literal.length ≤ maxImapLiteralBytes ∧
      (l.literal.length ≤ rest.length → l.Kept preamble)

/-- **The steps that keep the reading right.**  The buffer does not grow too large.  A command
line is taken from it when the session is neither in IDLE nor waiting for a SASL response; it is
not taken for an announcement if it is none, is no APPEND without a literal, and announces no
literal that is too large.  When a literal is complete, it is that of an APPEND whose arguments
were kept. -/
def KeepsFraming (commands : List ClientCommand) (st : ImapReading) : ReadingInput → Prop
  | .receive count =>
    st.unsent.take count ≠ [] →
      (st.session.io.commandReadBuffer ++ st.unsent.take count).length ≤ maxCommandBufferBytes
  | .consume _ =>
    ∀ c, commands[st.dispatched.length]? = some c →
      if st.session.io.state.awaitingLiteral then
        ∀ l, c = .literal l → st.session.io.commandReadBuffer ≠ [] →
          l.literal.length ≤
            (st.session.literalDataBuffer ++ st.session.io.commandReadBuffer).length →
          imapCommand (toUpper l.word) = some .append ∧
            st.session.ctx.pendingAppendPreamble = l.args
      else
        ∀ rest, cutAt [13, 10] st.session.io.commandReadBuffer = some (c.line, rest) →
          st.session.ctx.TakesCommands ∧ c.Readable st.session.ctx.pendingAppendPreamble rest

/-! ## Reading lines -/

theorem cutAt_crlf {text : Bytes} (h : 13 ∉ text) (rest : Bytes) :
    cutAt [13, 10] (text ++ 13 :: 10 :: rest) = some (text, rest) := by
  induction text with
  | nil => simp [cutAt]
  | cons b text ih =>
    rw [mem_cons, not_or] at h
    have hfront : ([13, 10] : Bytes).isPrefixOf (b :: (text ++ 13 :: 10 :: rest)) = false := by
      simp [List.isPrefixOf, h.1]
    rw [cons_append, cutAt, hfront, ih h.2]
    rfl

namespace CommandHead

variable (h : CommandHead)

theorem blank_not_mem_tag : 32 ∉ h.tag := fun hb => absurd (h.tagChars 32 hb).1 (by decide)

theorem blank_not_mem_word : 32 ∉ h.word := fun hb => absurd (h.wordChars 32 hb).1 (by decide)

theorem cr_not_mem_text : 13 ∉ h.text := by
  have htag : 13 ∉ h.tag := fun hb => absurd (h.tagChars 13 hb).1 (by decide)
  have hword : 13 ∉ h.word := fun hb => absurd (h.wordChars 13 hb).1 (by decide)
  have hargs : 13 ∉ h.args := fun hb => (h.argsChars 13 hb).1 rfl
  unfold text
  split <;> simp [htag, hword, hargs]

/-- The line is split as it was put together. -/
theorem splitLine_text : splitLine h.text = (h.tag, h.word, h.args) := by
  have hdrop (x : Bytes) : (h.tag ++ 32 :: x).drop (h.tag.length + 1) = x := by simp
  unfold splitLine text
  rw [findByte_append_of_not_mem h.blank_not_mem_tag]
  dsimp only
  rw [hdrop, take_left]
  by_cases hargs : h.args = []
  · rw [if_pos hargs, append_nil, findByte_eq_none_iff.mpr h.blank_not_mem_word, hargs]
  · have hdrop' : (h.word ++ 32 :: h.args).drop (h.word.length + 1) = h.args := by simp
    rw [if_neg hargs, findByte_append_of_not_mem h.blank_not_mem_word]
    dsimp only
    rw [hdrop', take_left]

/-- The last byte is no blank. -/
theorem exists_text_eq : ∃ front b, h.text = front ++ [b] ∧ b ≠ 32 ∧ b ≠ 9 := by
  unfold text
  by_cases hargs : h.args = []
  · obtain ⟨front, b, hword⟩ := eq_nil_or_concat h.word |>.resolve_left h.word_ne
    have hb := (h.wordChars b (by rw [hword]; simp)).1
    refine ⟨h.tag ++ 32 :: front, b, by rw [if_pos hargs, hword]; simp, ?_, ?_⟩ <;> rintro rfl
    · exact absurd hb (by decide)
    · exact absurd hb (by decide)
  · obtain ⟨front, b, heq⟩ := eq_nil_or_concat h.args |>.resolve_left hargs
    refine ⟨h.tag ++ 32 :: (h.word ++ 32 :: front), b, by rw [if_neg hargs, heq]; simp, ?_⟩
    exact h.argsEnd b (by rw [heq]; simp)

end CommandHead

/-- A line that does not end in a blank is read as it is. -/
theorem lineOf_crlf {front : Bytes} {b : UInt8} (h : b ≠ 32 ∧ b ≠ 9) :
    lineOf (front ++ [b] ++ [13, 10]) = front ++ [b] := by
  have hsuffix : ([13, 10] : Bytes).isSuffixOf (front ++ [b] ++ [13, 10]) = true :=
    isSuffixOf_iff_suffix.mpr (suffix_append _ _)
  have hdrop : (front ++ [b] ++ [13, 10]).dropLast.dropLast = front ++ [b] := by
    rw [show front ++ [b] ++ [13, 10] = (front ++ [b] ++ [13]) ++ [10] by simp, dropLast_concat,
      dropLast_concat]
  have htrim : ((front ++ [b]).reverse.dropWhile fun b => b == 32 || b == 9).reverse =
      front ++ [b] := by
    rw [reverse_append, reverse_singleton, singleton_append,
      dropWhile_cons_of_neg (by simp [h.1, h.2])]
    simp
  unfold lineOf
  rw [hsuffix, if_pos rfl, hdrop]
  dsimp only
  rw [htrim, if_neg (by simp)]

theorem LiteralLine.line_eq_concat :
    l.line = l.text ++ List.replicate l.gap 32 ++ 123 :: l.digits ++ [125] := by
  simp [LiteralLine.line]

theorem LiteralLine.cr_not_mem_line : 13 ∉ l.line := by
  have hdigits : 13 ∉ l.digits := fun hb => absurd (l.digitChars 13 hb).1 (by decide)
  simp [LiteralLine.line, l.cr_not_mem_text, hdigits]

/-- **The announcement is read**: the number, and the line in front of it. -/
theorem LiteralLine.announcedLiteral_line :
    announcedLiteral l.line = some (l.literal.length, l.text ++ List.replicate l.gap 32) := by
  have hdigits : 123 ∉ l.digits := fun hb => absurd (l.digitChars 123 hb).2 (by decide)
  have hbrace : 123 ∉ l.digits ++ [125] := by simp [hdigits]
  have hlast : l.line.getLast? = some 125 := by rw [l.line_eq_concat, getLast?_concat]
  have hfits : numeralValue l.digits < 2 ^ 64 := by
    rw [l.announced]
    exact l.fits.trans (by decide)
  have hstoull := stoull_digits l.digits_ne l.digitChars hfits
  have hdrop (front : Bytes) : (front ++ 123 :: (l.digits ++ [125])).drop (front.length + 1) =
      l.digits ++ [125] := by simp
  unfold announcedLiteral
  rw [hlast]
  unfold LiteralLine.line
  rw [rfindByte_append_of_not_mem hbrace]
  dsimp only
  rw [hdrop, dropLast_concat, hstoull, take_left, l.announced]
  rfl

theorem LiteralLine.splitLine_front :
    splitLine ((l.text ++ List.replicate l.gap 32).reverse.dropWhile (· == 32)).reverse =
      (l.tag, l.word, l.args) := by
  obtain ⟨front, b, htext, hb, -⟩ := l.exists_text_eq
  have hstrip : ((l.text ++ List.replicate l.gap 32).reverse.dropWhile (· == 32)).reverse =
      l.text := by
    rw [reverse_append, reverse_replicate,
      dropWhile_append_of_pos fun c hc => by simp [eq_of_mem_replicate hc], htext,
      reverse_append, reverse_singleton, singleton_append,
      dropWhile_cons_of_neg (by simpa using hb)]
    simp
  rw [hstrip]
  exact l.splitLine_text

theorem ClientCommand.cr_not_mem_line (c : ClientCommand) : 13 ∉ c.line := by
  cases c with
  | plain l => exact l.cr_not_mem_text
  | literal l => exact l.cr_not_mem_line

theorem ClientCommand.lineOf_line (c : ClientCommand) : lineOf (c.line ++ [13, 10]) = c.line := by
  cases c with
  | plain l =>
    obtain ⟨front, b, htext, hb⟩ := l.exists_text_eq
    rw [ClientCommand.line, htext]
    exact lineOf_crlf hb
  | literal l =>
    rw [ClientCommand.line, l.line_eq_concat]
    exact lineOf_crlf (by decide)

theorem CommandHead.blank_mem_text (h : CommandHead) : 32 ∈ h.text :=
  mem_append_right _ mem_cons_self

theorem ClientCommand.blank_mem_line (c : ClientCommand) : 32 ∈ c.line := by
  cases c with
  | plain l => exact l.blank_mem_text
  | literal l => exact mem_append_left _ (mem_append_left _ l.blank_mem_text)

/-- The end of IDLE is no command line: there is no blank in it. -/
theorem ClientCommand.line_ne_done (c : ClientCommand) : toUpper c.line ≠ bytes "DONE" := by
  intro h
  have hmem : 32 ∈ toUpper c.line := mem_map.mpr ⟨32, c.blank_mem_line, by decide⟩
  rw [h] at hmem
  exact absurd hmem (by decide)

theorem ClientCommand.line_ne_nil (c : ClientCommand) : c.line ≠ [] :=
  ne_nil_of_mem c.blank_mem_line

/-! ## The transport under the input path -/

namespace SessionBase

variable {St ε : Type} (s : SessionBase St ε)

/-- What the input path depends on. -/
structure SameInput (s s' : SessionBase St ε) : Prop where
  buffer : s'.commandReadBuffer = s.commandReadBuffer
  state : s'.state = s.state
  closed : s'.closed = s.closed

/-- Closing leaves the buffer and the state as they are. -/
theorem input_closeAfterFlush :
    s.closeAfterFlush.commandReadBuffer = s.commandReadBuffer ∧
      s.closeAfterFlush.state = s.state := by
  unfold closeAfterFlush close
  split
  · exact ⟨rfl, rfl⟩
  · split
    · exact ⟨rfl, rfl⟩
    · dsimp only
      split
      · split <;> exact ⟨rfl, rfl⟩
      · exact ⟨rfl, rfl⟩

variable [LineProtocol St]

theorem sameInput_doAsyncRead : s.SameInput s.doAsyncRead := by
  unfold doAsyncRead
  split
  · exact ⟨rfl, rfl, rfl⟩
  · split <;> exact ⟨rfl, rfl, rfl⟩

theorem sameInput_doAsyncWrite (data : Bytes) : s.SameInput (s.doAsyncWrite data none) := by
  unfold doAsyncWrite
  split
  · exact ⟨rfl, rfl, rfl⟩
  · split <;> exact ⟨rfl, rfl, rfl⟩

theorem readDone_nil (h : s.closed = false) :
    s.readDone (some []) = { s with readInProgress := false }.doAsyncRead := by
  unfold readDone
  rw [h, if_neg Bool.false_ne_true]

/-- The buffer would grow too large: the session is closed. -/
theorem closed_readDone {data : Bytes} (h : s.closed = false) (hne : data ≠ [])
    (hbig : maxCommandBufferBytes < (s.commandReadBuffer ++ data).length) :
    (s.readDone (some data)).closed = true := by
  obtain ⟨b, data, rfl⟩ := exists_cons_of_ne_nil hne
  unfold readDone record
  dsimp only
  rw [h, if_neg Bool.false_ne_true, if_pos hbig]
  exact closed_close _

/-- What has arrived is put behind what was there. -/
theorem input_readDone {data : Bytes} (h : s.closed = false) (hne : data ≠ [])
    (hfits : (s.commandReadBuffer ++ data).length ≤ maxCommandBufferBytes) :
    (s.readDone (some data)).commandReadBuffer = s.commandReadBuffer ++ data ∧
      (s.readDone (some data)).state = s.state ∧ (s.readDone (some data)).closed = false := by
  obtain ⟨b, data, rfl⟩ := exists_cons_of_ne_nil hne
  unfold readDone record
  dsimp only
  rw [h, if_neg (Nat.not_lt.mpr hfits)]
  exact ⟨rfl, rfl, rfl⟩

end SessionBase

/-! ## Quiet sessions -/

/-- The session has dispatched what it has read. -/
structure ImapSession.Quiet (s : ImapSession) : Prop where
  sasl : s.ctx.saslPlainState ≠ .received
  parsed : s.commandParsed = false
  done : s.idleDoneReceived = false

namespace ImapSession

variable {s : ImapSession}

/-- After a dispatch the session is quiet again. -/
theorem quiet_afterDispatch (hdone : s.idleDoneReceived = false)
    (hsasl : s.ctx.saslPlainState ≠ .received) (handled : Bool) :
    (ImapReading.afterDispatch s handled).Quiet := by
  refine ⟨?_, rfl, rfl⟩
  unfold ImapReading.afterDispatch
  cases handled with
  | false => exact hsasl
  | true =>
    rw [if_pos rfl]
    unfold ImapReading.handledContext
    rw [hdone, if_neg Bool.false_ne_true]
    split
    · exact hsasl
    · exact hsasl
    · exact hsasl
    · rw [if_neg hsasl]
      split
      · nofun
      · exact hsasl
    · nofun
    · exact hsasl

/-- A unit of input that is read as a command, a chunk of a literal or an empty line. -/
def TakesUnit (s : ImapSession) (data : Bytes) : Prop :=
  s.io.state.awaitingLiteral = true ∨ lineOf data = [] ∨ s.ctx.TakesCommands

/-- Reading it changes neither the mode nor the state of a SASL exchange. -/
theorem handleRead_keeps {data : Bytes} (h : s.TakesUnit data) :
    (s.handleRead data).ctx.saslPlainState = s.ctx.saslPlainState ∧
      (s.handleRead data).idleDoneReceived = s.idleDoneReceived := by
  unfold handleRead
  split
  · unfold readLiteral
    dsimp only
    split <;> exact ⟨rfl, rfl⟩
  · next hstate =>
    dsimp only
    split
    · exact ⟨rfl, rfl⟩
    · next hline =>
      have htakes := (h.resolve_left hstate).resolve_left hline
      rw [htakes.idle, if_neg Bool.false_ne_true, if_neg htakes.sasl]
      split
      · exact ⟨rfl, rfl⟩
      · split
        · exact ⟨rfl, rfl⟩
        · unfold beginLiteral
          dsimp only
          split <;> exact ⟨(apply_ite ImapContext.saslPlainState _ _ _).trans (ite_self _), rfl⟩

theorem quiet_settle {st : ImapReading} {data : Bytes} (hq : s.Quiet) (h : s.TakesUnit data)
    (handled : Bool) : (st.settle (s.handleRead data) handled).session.Quiet := by
  obtain ⟨hsasl, hdone⟩ := handleRead_keeps h
  have hnot : (s.handleRead data).ctx.saslPlainState ≠ .received := hsasl ▸ hq.sasl
  unfold ImapReading.settle
  split
  · exact quiet_afterDispatch (hdone.trans hq.done) hnot handled
  · next hparsed => exact ⟨hnot, eq_false_of_ne_true hparsed, hdone.trans hq.done⟩

/-- The first line of a command is read with or without an announcement. -/
theorem handleRead_line (h : s.ctx.TakesCommands) (hstate : s.io.state.awaitingLiteral = false)
    (c : ClientCommand) : s.handleRead (c.line ++ [13, 10]) =
      match announcedLiteral c.line with
      | none => s.readCommand c.line
      | some (size, text) =>
        if maxImapLiteralBytes < size then
          let t := s.sendTagged (c.line.takeWhile (· != 32)) (bytes "BAD")
            (bytes "Literal too large")
          { t with io := t.io.closeAfterFlush }
        else s.beginLiteral size text := by
  unfold handleRead
  rw [hstate, c.lineOf_line]
  rewrite [if_neg c.line_ne_nil, h.idle, if_neg h.sasl]
  rfl

theorem handleRead_empty (hstate : s.io.state.awaitingLiteral = false) :
    s.handleRead [13, 10] = { s with io := s.io.doAsyncRead } := by
  unfold handleRead
  rw [hstate, if_neg Bool.false_ne_true]
  exact if_pos (by decide)

theorem dispatched_eq (hdone : s.idleDoneReceived = false)
    (hsasl : s.ctx.saslPlainState ≠ .received) :
    s.dispatched =
      match s.nextEvent with
      | .append => .command s.currentTag .append s.ctx.pendingAppendPreamble
        (some s.lastCommandArgs)
      | .error => .unknown s.currentTag s.currentCommand
      | event => .command s.currentTag event s.lastCommandArgs none := by
  unfold dispatched
  rw [hdone, if_neg Bool.false_ne_true, if_neg (fun h => hsasl h.2)]

theorem imapCommand_ne_error (word : Bytes) : imapCommand word ≠ some .error := by
  intro h
  have hmem : (word, ImapEvent.error) ∈ imapCommands := by
    obtain ⟨l₁, l₂, heq, -⟩ := lookup_eq_some_iff.mp h
    rw [heq]
    simp
  have hevs : ∀ p ∈ imapCommands, p.2 ≠ .error := by decide
  exact hevs _ hmem rfl

/-- What is dispatched for a line without a literal. -/
theorem dispatched_readCommand (hq : s.Quiet) (h : CommandHead) :
    (s.readCommand h.text).dispatched =
      if imapCommand (toUpper h.word) = some .append then
        .command h.tag .append s.ctx.pendingAppendPreamble (some h.args)
      else h.reading none := by
  unfold readCommand CommandHead.reading
  rw [h.splitLine_text]
  dsimp only
  cases hev : imapCommand (toUpper h.word) with
  | none =>
    exact dispatched_eq hq.done hq.sasl
  | some event =>
    cases event with
    | error => exact absurd hev (imapCommand_ne_error _)
    | _ => exact dispatched_eq hq.done hq.sasl

/-- A literal is complete: it is to be dispatched, and this is left in the buffer. -/
structure LiteralTaken (s : ImapSession) (d : ImapDispatch) (rest : Bytes) (t : ImapSession) :
    Prop where
  parsed : t.commandParsed = true
  dispatched : s.Quiet → t.dispatched = d
  isOpen : t.io.closed = s.io.closed
  state : t.io.state.awaitingLiteral = false
  buffer : t.io.commandReadBuffer = rest

/-- It is not there yet: the session waits for it. -/
structure LiteralAwaited (s : ImapSession) (t : ImapSession) : Prop where
  parsed : t.commandParsed = s.commandParsed
  isOpen : t.io.closed = s.io.closed
  state : t.io.state.awaitingLiteral = true
  buffer : t.io.commandReadBuffer = []
  taken : t.literalDataBuffer = s.io.commandReadBuffer

section Begin

variable {size : Nat} {text tag command args : Bytes}
  (hs : splitLine (text.reverse.dropWhile (· == 32)).reverse = (tag, command, args))

include hs

theorem literalTaken_beginLiteral (hsize : size ≤ s.io.commandReadBuffer.length) : s.LiteralTaken
      (.command tag .append (if command = bytes "APPEND" then args else s.ctx.pendingAppendPreamble)
        (some (s.io.commandReadBuffer.take size)))
      (if [13, 10].isPrefixOf (s.io.commandReadBuffer.drop size) then
        (s.io.commandReadBuffer.drop size).drop 2
      else s.io.commandReadBuffer.drop size)
      (s.beginLiteral size text) := by
  unfold beginLiteral
  rw [hs]
  dsimp only
  rw [if_pos hsize]
  split
  · exact ⟨rfl, fun hq => dispatched_eq hq.done hq.sasl, rfl, rfl, rfl⟩
  · exact ⟨rfl, fun hq => dispatched_eq hq.done hq.sasl, rfl, rfl, rfl⟩

theorem literalAwaited_beginLiteral (hsize : ¬ size ≤ s.io.commandReadBuffer.length) :
    s.LiteralAwaited (s.beginLiteral size text) ∧
      (s.beginLiteral size text).currentTag = tag ∧
      (s.beginLiteral size text).currentCommand = toUpper command ∧
      (s.beginLiteral size text).expectedLiteralSize = size := by
  unfold beginLiteral
  rw [hs]
  dsimp only
  rw [if_neg hsize]
  have hsame := sameInput_doAsyncWrite
    { s.io with state := { s.io.state with awaitingLiteral := true }, commandReadBuffer := [] }
    (bytes "+ Ready for literal data\r\n")
  have hstate := congrArg ImapFraming.awaitingLiteral hsame.state
  exact ⟨⟨rfl, hsame.closed, hstate, hsame.buffer, rfl⟩, rfl, rfl, rfl⟩

end Begin

section Chunk

variable {data : Bytes}

theorem literalTaken_readLiteral
    (hsize : s.expectedLiteralSize ≤ (s.literalDataBuffer ++ data).length) :
    s.LiteralTaken (.command s.currentTag .append s.ctx.pendingAppendPreamble
        (some ((s.literalDataBuffer ++ data).take s.expectedLiteralSize)))
      ((s.literalDataBuffer ++ data).drop s.expectedLiteralSize ++ s.io.commandReadBuffer)
      (s.readLiteral data) := by
  unfold readLiteral
  rw [if_pos hsize]
  exact ⟨rfl, fun hq => dispatched_eq hq.done hq.sasl, rfl, rfl, rfl⟩

theorem readLiteral_incomplete
    (hsize : ¬ s.expectedLiteralSize ≤ (s.literalDataBuffer ++ data).length) :
    s.readLiteral data =
      { s with literalDataBuffer := s.literalDataBuffer ++ data, io := s.io.doAsyncRead } :=
  if_neg hsize

end Chunk

end ImapSession

/-! ## Commands and what was dispatched -/

section Framed

variable {commands cs : List ClientCommand} {c : ClientCommand} {st st' : ImapReading}
  (handled : Bool)

theorem getElem?_of_drop_eq_cons {n : Nat} (h : commands.drop n = c :: cs) :
    commands[n]? = some c := by
  rw [← head?_drop, h]
  rfl

section

variable (h : FramedBy commands st) (hrest : commands.drop st.dispatched.length = c :: cs)
  {s : ImapSession} (hparsed : s.commandParsed = true)

include h hrest hparsed

/-- **What is dispatched is what was meant**, and behind it the session is between commands. -/
theorem framedBy_settle_parsed_iff
    (hnext : s.dispatched = c.reading → s.io.closed = false ∧ s.io.state.awaitingLiteral = false ∧
      ∃ lead, (lead = [] ∨ lead = [13, 10]) ∧
        s.io.commandReadBuffer ++ st.unsent = lead ++ clientStream cs) :
    FramedBy commands (st.settle s handled) ↔ s.dispatched = c.reading := by
  have hlength : (st.dispatched ++ [s.dispatched]).length = st.dispatched.length + 1 :=
    length_append
  have htake : commands.take (st.dispatched.length + 1) =
      commands.take st.dispatched.length ++ [c] := by
    rw [take_add_one, getElem?_of_drop_eq_cons hrest]
    rfl
  have hdrop : commands.drop (st.dispatched.length + 1) = cs := by
    rw [← drop_drop, hrest]
    rfl
  have hmeant : (commands.take (st.dispatched.length + 1)).map ClientCommand.reading =
      st.dispatched ++ [c.reading] := by
    rw [htake, map_append, ← h.dispatched]
    rfl
  rw [show st.settle s handled = _ from if_pos hparsed]
  constructor
  · intro h'
    have hdisp := h'.dispatched
    rw [hlength, hmeant, append_cancel_left_eq] at hdisp
    exact (cons.inj hdisp).1
  · intro hd
    obtain ⟨hcl, hstate, lead, hlead, hbytes⟩ := hnext hd
    refine ⟨hcl, ?_, ?_⟩
    · rw [hlength, hmeant, hd]
    · rw [hlength, hdrop]
      exact .between lead hlead hstate hbytes

theorem not_framedBy_settle (hne : s.dispatched ≠ c.reading) :
    ¬FramedBy commands (st.settle s handled) :=
  fun h' => hne ((framedBy_settle_parsed_iff handled h hrest hparsed
    fun heq => absurd heq hne).mp h')

end

theorem settle_unparsed (s : ImapSession) (h : s.commandParsed = false) :
    st.settle s handled = { st with session := s } := by
  unfold ImapReading.settle
  rw [h]
  rfl

/-- If nothing is dispatched, the session is still at the same command. -/
theorem framedBy_settle_unparsed (h : FramedBy commands st) {s : ImapSession}
    (hparsed : s.commandParsed = false) (hcl : s.io.closed = false)
    (hpos : ReadingPosition { st with session := s } (commands.drop st.dispatched.length)) :
    FramedBy commands (st.settle s handled) := by
  rw [settle_unparsed handled s hparsed]
  exact ⟨hcl, h.dispatched, hpos⟩

/-- A session is not between commands if it has less to read. -/
theorem length_le_of_framedBy (h' : FramedBy commands st') (hdisp : st'.dispatched = st.dispatched)
    (hstate : st'.session.io.state.awaitingLiteral = false) :
    (clientStream (commands.drop st.dispatched.length)).length ≤ st'.unread.length := by
  have hpos := h'.position
  rw [hdisp] at hpos
  generalize commands.drop st.dispatched.length = rest at hpos ⊢
  cases hpos with
  | between lead hlead _ hbytes =>
    rw [hbytes, length_append]
    omega
  | inside l hinside => cases hstate.symm.trans hinside

/-- A session is inside a literal only if the command has one. -/
theorem literal_of_framedBy (h' : FramedBy commands st') (hdisp : st'.dispatched = st.dispatched)
    (hrest : commands.drop st.dispatched.length = c :: cs)
    (hstate : st'.session.io.state.awaitingLiteral = true) : ∃ l, c = .literal l := by
  have hpos := h'.position
  rw [hdisp, hrest] at hpos
  cases hpos with
  | between lead hlead hbetween => cases hstate.symm.trans hbetween
  | inside l => exact ⟨l, rfl⟩

/-- **A literal that is complete** is read as it is meant if it is that of an APPEND with the
arguments that are dispatched. -/
theorem framedBy_taken_iff (hf : FramedBy commands st) {l : LiteralLine}
    (hleft : commands.drop st.dispatched.length = .literal l :: cs) {s t : ImapSession}
    {args rest lead : Bytes} (hq : s.Quiet) (hopen : s.io.closed = false)
    (ht : s.LiteralTaken (.command l.tag .append args (some l.literal)) rest t)
    (hlead : lead = [] ∨ lead = [13, 10]) (hbytes : rest ++ st.unsent = lead ++ clientStream cs) :
    FramedBy commands (st.settle t handled) ↔
      imapCommand (toUpper l.word) = some .append ∧ args = l.args := by
  rw [← l.toCommandHead.eq_reading_iff args l.literal, ← ht.dispatched hq]
  refine framedBy_settle_parsed_iff handled hf hleft ht.parsed fun _ => ?_
  exact ⟨ht.isOpen.trans hopen, ht.state, lead, hlead, ht.buffer.symm ▸ hbytes⟩

/-! ## Taking a line -/

def ImapReading.withBuffer (st : ImapReading) (rest : Bytes) : ImapSession :=
  { st.session with io := { st.session.io with commandReadBuffer := rest } }

theorem ImapSession.Quiet.withBuffer (h : st.session.Quiet) (rest : Bytes) :
    (st.withBuffer rest).Quiet :=
  { h with }

variable {text rest : Bytes}

theorem consume_line (hstate : st.session.io.state.awaitingLiteral = false)
    (hcut : cutAt [13, 10] st.session.io.commandReadBuffer = some (text, rest)) :
    st.consume handled =
      st.settle ((st.withBuffer rest).handleRead (text ++ [13, 10])) handled := by
  unfold ImapReading.consume hasBufferedInput ImapReading.withBuffer
  simp only [LineProtocol.hasBufferedInput, LineProtocol.extractOneLine, hstate, hcut,
    Bool.false_eq_true, if_false, Option.isSome_some, if_true]

theorem consume_nothing (hstate : st.session.io.state.awaitingLiteral = false)
    (hcut : cutAt [13, 10] st.session.io.commandReadBuffer = none) : st.consume handled = st := by
  unfold ImapReading.consume hasBufferedInput
  simp only [LineProtocol.hasBufferedInput, hstate, hcut, Bool.false_eq_true, if_false,
    Option.isSome_none]

theorem consume_chunk (hstate : st.session.io.state.awaitingLiteral = true)
    (hbuf : st.session.io.commandReadBuffer ≠ []) : st.consume handled =
      st.settle ((st.withBuffer []).handleRead st.session.io.commandReadBuffer) handled := by
  unfold ImapReading.consume hasBufferedInput ImapReading.withBuffer
  simp [LineProtocol.hasBufferedInput, LineProtocol.extractOneLine, hstate, hbuf]

theorem consume_no_chunk (hstate : st.session.io.state.awaitingLiteral = true)
    (hbuf : st.session.io.commandReadBuffer = []) : st.consume handled = st := by
  unfold ImapReading.consume hasBufferedInput
  simp [LineProtocol.hasBufferedInput, hstate, hbuf]

/-- What is in the buffer and what is to come, when a line has been cut off. -/
theorem unread_of_cut {more : Bytes}
    (hcut : cutAt [13, 10] st.session.io.commandReadBuffer = some (text, rest)) {line : Bytes}
    (hline : 13 ∉ line) (hbytes : st.unread = line ++ 13 :: 10 :: more) :
    text = line ∧ rest ++ st.unsent = more := by
  have hlong := cutAt_append hcut st.unsent
  change cutAt [13, 10] st.unread = _ at hlong
  rw [hbytes, cutAt_crlf hline] at hlong
  have heq := Option.some.inj hlong
  exact ⟨(congrArg Prod.fst heq).symm, (congrArg Prod.snd heq).symm⟩

/-- Between commands, the first line of the next one is in the buffer, and `rest` behind it. -/
structure AtLine (commands : List ClientCommand) (st : ImapReading) (c : ClientCommand)
    (cs : List ClientCommand) (rest : Bytes) : Prop where
  state : st.session.io.state.awaitingLiteral = false
  left : commands.drop st.dispatched.length = c :: cs
  cut : cutAt [13, 10] st.session.io.commandReadBuffer = some (c.line, rest)
  bytes : rest ++ st.unsent = c.payload ++ clientStream cs

theorem AtLine.shorter (h : AtLine commands st c cs rest) : (rest ++ st.unsent).length <
    (clientStream (commands.drop st.dispatched.length)).length := by
  rw [h.left, h.bytes]
  simp only [clientStream, length_append, length_cons]
  omega

/-- Nothing is asked where nothing is taken. -/
theorem keepsFraming_of_nothing
    (hline : st.session.io.state.awaitingLiteral = false →
      cutAt [13, 10] st.session.io.commandReadBuffer = none)
    (hchunk : st.session.io.state.awaitingLiteral = true → st.session.io.commandReadBuffer = []) :
    KeepsFraming commands st (.consume handled) := by
  intro c _
  by_cases hstate : st.session.io.state.awaitingLiteral = true
  · rw [if_pos hstate]
    exact fun l _ hbuf => absurd (hchunk hstate) hbuf
  · rw [if_neg hstate]
    intro rest hcut
    cases (hline (eq_false_of_ne_true hstate)).symm.trans hcut

/-- What is asked between commands, when there is a line. -/
theorem keepsFraming_line_iff (hline : AtLine commands st c cs rest) :
    KeepsFraming commands st (.consume handled) ↔
      st.session.ctx.TakesCommands ∧ c.Readable st.session.ctx.pendingAppendPreamble rest := by
  unfold KeepsFraming
  rw [getElem?_of_drop_eq_cons hline.left, hline.state, hline.cut]
  constructor
  · intro h
    exact h c rfl rest rfl
  · intro h c' hc rest' hcut'
    cases hc
    cases hcut'
    exact h

/-- What is asked inside a literal, when there is a chunk. -/
theorem keepsFraming_chunk_iff (hstate : st.session.io.state.awaitingLiteral = true)
    {l : LiteralLine} (hrest : commands.drop st.dispatched.length = .literal l :: cs)
    (hbuf : st.session.io.commandReadBuffer ≠ []) :
    KeepsFraming commands st (.consume handled) ↔ (l.literal.length ≤
          (st.session.literalDataBuffer ++ st.session.io.commandReadBuffer).length →
        imapCommand (toUpper l.word) = some .append ∧
          st.session.ctx.pendingAppendPreamble = l.args) := by
  unfold KeepsFraming
  rw [getElem?_of_drop_eq_cons hrest, hstate]
  constructor
  · intro h
    exact h _ rfl l rfl hbuf
  · intro h c hc l' hl _
    cases hc
    cases hl
    exact h

/-- A session that has the same to read is at the same place. -/
theorem ReadingPosition.of_io {left : List ClientCommand} {io : SessionBase ImapFraming ImapReport}
    {unsent : Bytes} (h : ReadingPosition st left) (hstate : io.state = st.session.io.state)
    (hunread : io.commandReadBuffer ++ unsent = st.unread) :
    ReadingPosition { st with session := { st.session with io := io }, unsent := unsent } left := by
  have hawaiting := congrArg ImapFraming.awaitingLiteral hstate
  cases h with
  | between lead hlead hbetween hbytes =>
    exact .between lead hlead (hawaiting.trans hbetween) (hunread.trans hbytes)
  | inside l hinside htag hcommand hsize hlength hbytes =>
    refine .inside l (hawaiting.trans hinside) htag hcommand hsize hlength ?_
    exact (congrArg (st.session.literalDataBuffer ++ ·) hunread).trans hbytes

/-- **A literal that is too large** is refused, and the reading is lost. -/
theorem not_framedBy_tooLarge (hq : st.session.Quiet) (hline : AtLine commands st c cs rest)
    (tag : Bytes) :
    let t := (st.withBuffer rest).sendTagged tag (bytes "BAD") (bytes "Literal too large")
    ¬FramedBy commands (st.settle { t with io := t.io.closeAfterFlush } handled) := by
  intro t
  have hsame : (st.withBuffer rest).io.SameInput t.io := sameInput_doAsyncWrite _ _
  rw [settle_unparsed handled { t with io := t.io.closeAfterFlush } hq.parsed]
  intro h
  have hbuf : t.io.closeAfterFlush.commandReadBuffer = rest :=
    t.io.input_closeAfterFlush.1.trans hsame.buffer
  have hstate' : t.io.closeAfterFlush.state = st.session.io.state :=
    t.io.input_closeAfterFlush.2.trans hsame.state
  have hle := length_le_of_framedBy h rfl
    ((congrArg ImapFraming.awaitingLiteral hstate').trans hline.state)
  unfold ImapReading.unread at hle
  rw [hbuf] at hle
  exact absurd hline.shorter (Nat.not_lt.mpr hle)

section Line

variable (hf : FramedBy commands st) (hq : st.session.Quiet)

include hf hq

/-- The line end behind a literal is skipped. -/
theorem framedBy_lead {rest : Bytes} (hstate : st.session.io.state.awaitingLiteral = false)
    (hbytes : rest ++ st.unsent = clientStream (commands.drop st.dispatched.length)) :
    FramedBy commands (st.settle ((st.withBuffer rest).handleRead [13, 10]) handled) := by
  have hsame := sameInput_doAsyncRead (st.withBuffer rest).io
  rw [handleRead_empty (s := st.withBuffer rest) hstate]
  refine framedBy_settle_unparsed handled hf (by exact hq.parsed) (hsame.closed.trans hf.isOpen) ?_
  refine .between [] (.inl rfl) ?_ ?_
  · exact (congrArg ImapFraming.awaitingLiteral hsame.state).trans hstate
  · exact (congrArg (· ++ st.unsent) hsame.buffer).trans hbytes

section Taken

variable (htakes : st.session.ctx.TakesCommands)

include htakes

/-- **A line without a literal** is read as it is meant if it is not taken for an announcement and
is no APPEND. -/
theorem framedBy_plain_iff {l : PlainLine} (hline : AtLine commands st (.plain l) cs rest) :
    FramedBy commands (st.settle
        ((st.withBuffer rest).handleRead ((ClientCommand.plain l).line ++ [13, 10])) handled) ↔
      (ClientCommand.plain l).Readable st.session.ctx.pendingAppendPreamble rest := by
  have hread := hq.withBuffer rest
  rw [handleRead_line (s := st.withBuffer rest) htakes hline.state]
  cases hlit : announcedLiteral (ClientCommand.plain l).line with
  | none =>
    -- a command line
    have hdisp : ((st.withBuffer rest).readCommand (ClientCommand.plain l).line).dispatched = _ :=
      dispatched_readCommand hread l.toCommandHead
    refine Iff.trans (framedBy_settle_parsed_iff handled hf hline.left rfl fun _ =>
      ⟨hf.isOpen, hline.state, [], .inl rfl, hline.bytes⟩) ?_
    rw [hdisp]
    by_cases happ : imapCommand (toUpper l.word) = some .append
    · rw [if_pos happ]
      exact iff_of_false (l.toCommandHead.reading_none_ne _ _ _ _).symm fun h => h.2 happ
    · rw [if_neg happ]
      exact iff_of_true rfl ⟨hlit, happ⟩
  | some announced =>
    obtain ⟨size, text⟩ := announced
    refine iff_of_false ?_ fun h => nomatch hlit.symm.trans h.1
    dsimp only
    split
    · exact not_framedBy_tooLarge handled hq hline _
    · obtain ⟨⟨tag, command, args⟩, hs⟩ :
          ∃ parts, splitLine (text.reverse.dropWhile (· == 32)).reverse = parts := ⟨_, rfl⟩
      by_cases hsize : size ≤ rest.length
      · -- what follows is dispatched as a literal
        have ht := literalTaken_beginLiteral (s := st.withBuffer rest) hs hsize
        refine not_framedBy_settle handled hf hline.left ht.parsed ?_
        rw [ht.dispatched hread]
        exact (l.toCommandHead.reading_none_ne _ _ _ _).symm
      · -- what follows is awaited as a literal
        obtain ⟨hawaited, -⟩ :=
          literalAwaited_beginLiteral (s := st.withBuffer rest) hs hsize
        rw [settle_unparsed handled _ (hawaited.parsed.trans hread.parsed)]
        intro h
        obtain ⟨_, hlit⟩ := literal_of_framedBy h rfl hline.left hawaited.state
        cases hlit

/-- **A line with a literal** is read as it is meant if the literal is not too large, and if it is
there already, is that of an APPEND whose arguments are kept. -/
theorem framedBy_literal_iff {l : LiteralLine} (hline : AtLine commands st (.literal l) cs rest) :
    FramedBy commands (st.settle
        ((st.withBuffer rest).handleRead ((ClientCommand.literal l).line ++ [13, 10])) handled) ↔
      (ClientCommand.literal l).Readable st.session.ctx.pendingAppendPreamble rest := by
  have hread := hq.withBuffer rest
  have hbytes : rest ++ st.unsent = l.literal ++ 13 :: 10 :: clientStream cs := by
    rw [hline.bytes]
    simp [ClientCommand.payload]
  have hlit : announcedLiteral (ClientCommand.literal l).line = _ := l.announcedLiteral_line
  rw [handleRead_line (s := st.withBuffer rest) htakes hline.state, hlit]
  dsimp only
  split
  · next hbig =>
    exact iff_of_false (not_framedBy_tooLarge handled hq hline _) fun h =>
      absurd h.1 (Nat.not_le.mpr hbig)
  · next hbig =>
    have hs := l.splitLine_front
    by_cases hsize : l.literal.length ≤ rest.length
    · have ht := literalTaken_beginLiteral (s := st.withBuffer rest) hs hsize
      have htake : rest.take l.literal.length = l.literal := by
        rw [← take_append_of_le_length hsize, hbytes, take_left]
      have hdrop : rest.drop l.literal.length ++ st.unsent = 13 :: 10 :: clientStream cs := by
        rw [← drop_append_of_le_length hsize, hbytes, drop_left]
      change (st.withBuffer rest).LiteralTaken (.command _ _
        (if _ then _ else st.session.ctx.pendingAppendPreamble) (some (rest.take _)))
        (if [13, 10].isPrefixOf (rest.drop _) then (rest.drop _).drop 2 else rest.drop _) _ at ht
      rw [htake] at ht
      -- the line end behind the literal is taken with it if it is there
      obtain ⟨lead, hlead, hleft⟩ : ∃ lead, (lead = [] ∨ lead = [13, 10]) ∧
          (if [13, 10].isPrefixOf (rest.drop l.literal.length)
            then (rest.drop l.literal.length).drop 2
            else rest.drop l.literal.length) ++ st.unsent = lead ++ clientStream cs := by
        split
        · next hend =>
          obtain ⟨more, hmore⟩ := List.isPrefixOf_iff_prefix.mp hend
          rw [← hmore] at hdrop ⊢
          exact ⟨[], .inl rfl, (List.cons.inj (List.cons.inj hdrop).2).2⟩
        · exact ⟨[13, 10], .inr rfl, hdrop⟩
      refine (framedBy_taken_iff handled hf hline.left hread hf.isOpen ht hlead hleft).trans
        ⟨fun h => ⟨Nat.not_lt.mp hbig, fun _ => ⟨h.1, ?_⟩⟩, fun h => ?_⟩
      · by_cases hspell : l.word = bytes "APPEND"
        · exact .inl hspell
        · exact .inr ((if_neg hspell).symm.trans h.2)
      · obtain ⟨happ, hargs⟩ := h.2 hsize
        refine ⟨happ, ?_⟩
        split
        · rfl
        · next hspell => exact hargs.resolve_left hspell
    · obtain ⟨hawaited, htag, hcommand, hexp⟩ :=
        literalAwaited_beginLiteral (s := st.withBuffer rest) hs hsize
      refine iff_of_true ?_ ⟨Nat.not_lt.mp hbig, fun h => absurd h hsize⟩
      refine framedBy_settle_unparsed handled hf (hawaited.parsed.trans hread.parsed)
        (hawaited.isOpen.trans hf.isOpen) ?_
      rw [hline.left]
      refine .inside l hawaited.state htag hcommand hexp ?_ ?_
      · exact (congrArg List.length hawaited.taken).trans_lt (Nat.not_le.mp hsize)
      · unfold ImapReading.unread
        rw [hawaited.taken, hawaited.buffer]
        exact hbytes

end Taken

/-- **A line that is no command line to the session** is lost. -/
theorem not_framedBy_of_not_takes (htakes : ¬st.session.ctx.TakesCommands)
    (hline : AtLine commands st c cs rest) :
    ¬FramedBy commands
      (st.settle ((st.withBuffer rest).handleRead (c.line ++ [13, 10])) handled) := by
  unfold handleRead
  rw [show (st.withBuffer rest).io.state.awaitingLiteral = false from hline.state,
    if_neg Bool.false_ne_true]
  rw [c.lineOf_line, if_neg c.line_ne_nil]
  by_cases hidle : st.session.ctx.idleMode = true
  · rw [show (st.withBuffer rest).ctx.idleMode = true from hidle, if_pos rfl, if_neg c.line_ne_done,
      settle_unparsed handled _ (hq.withBuffer rest).parsed]
    intro h
    exact absurd hline.shorter (Nat.not_lt.mpr (length_le_of_framedBy h rfl hline.state))
  · have hsasl : st.session.ctx.saslPlainState = .awaiting := by
      by_contra hsasl
      exact htakes ⟨eq_false_of_ne_true hidle, hsasl⟩
    rw [show (st.withBuffer rest).ctx.idleMode = false from eq_false_of_ne_true hidle,
      if_neg Bool.false_ne_true,
      if_pos (show (st.withBuffer rest).ctx.saslPlainState = .awaiting from hsasl)]
    refine not_framedBy_settle handled hf hline.left rfl ?_
    unfold dispatched
    rw [show (st.withBuffer rest).idleDoneReceived = false from hq.done]
    exact (c.reading_ne_response _ _).symm

/-! ## Taking a chunk of a literal -/

/-- **A chunk of a literal** is read as it is meant if it does not complete the literal, or if that
is the literal of an APPEND whose arguments are kept. -/
theorem framedBy_chunk_iff (hstate : st.session.io.state.awaitingLiteral = true) {l : LiteralLine}
    (hrest : commands.drop st.dispatched.length = .literal l :: cs)
    (hbuf : st.session.io.commandReadBuffer ≠ []) : FramedBy commands (st.consume handled) ↔
      (l.literal.length ≤ (st.session.literalDataBuffer ++ st.session.io.commandReadBuffer).length →
        imapCommand (toUpper l.word) = some .append ∧
          st.session.ctx.pendingAppendPreamble = l.args) := by
  have hpos := hf.position
  rw [hrest] at hpos
  cases hpos with
  | between lead hlead hbetween => cases hstate.symm.trans hbetween
  | inside l hstate htag hcommand hsize hlength hbytes =>
    have hread := hq.withBuffer []
    rw [consume_chunk handled hstate hbuf, show (st.withBuffer []).handleRead _ =
      _ from if_pos hstate]
    unfold ImapReading.unread at hbytes
    rw [← append_assoc] at hbytes
    by_cases hfull : l.literal.length ≤
        (st.session.literalDataBuffer ++ st.session.io.commandReadBuffer).length
    · have ht := literalTaken_readLiteral (s := st.withBuffer []) (hsize.trans_le hfull)
      change (st.withBuffer []).LiteralTaken
        (.command st.session.currentTag _ st.session.ctx.pendingAppendPreamble
          (some ((st.session.literalDataBuffer ++ st.session.io.commandReadBuffer).take
            st.session.expectedLiteralSize)))
        ((st.session.literalDataBuffer ++ st.session.io.commandReadBuffer).drop
          st.session.expectedLiteralSize ++ []) _ at ht
      have htake : (st.session.literalDataBuffer ++ st.session.io.commandReadBuffer).take
          l.literal.length = l.literal := by
        rw [← take_append_of_le_length hfull, hbytes, take_left]
      rw [hsize, htake, htag, append_nil] at ht
      -- the line end behind the literal is left in the buffer
      have hleft : (st.session.literalDataBuffer ++ st.session.io.commandReadBuffer).drop
          l.literal.length ++ st.unsent = [13, 10] ++ clientStream cs := by
        rw [← drop_append_of_le_length hfull, hbytes, drop_left]
        rfl
      exact (framedBy_taken_iff handled hf hrest hread hf.isOpen ht (.inr rfl) hleft).trans
        ⟨fun h _ => h, fun h => h hfull⟩
    · have hpart := readLiteral_incomplete (s := st.withBuffer []) fun h =>
        hfull (hsize.symm.trans_le h)
      have hsame := sameInput_doAsyncRead (st.withBuffer []).io
      refine iff_of_true ?_ fun h => absurd h hfull
      rw [hpart]
      refine framedBy_settle_unparsed handled hf (by exact hq.parsed)
        (hsame.closed.trans hf.isOpen) ?_
      rw [hrest]
      refine .inside l ((congrArg ImapFraming.awaitingLiteral hsame.state).trans hstate)
        htag hcommand
        hsize (Nat.not_le.mp hfull) ?_
      unfold ImapReading.unread
      rw [hsame.buffer]
      exact hbytes

/-! ## Steps -/

theorem consume_line_iff (hstate : st.session.io.state.awaitingLiteral = false) {lead : Bytes}
    (hlead : lead = [] ∨ lead = [13, 10])
    (hbytes : st.unread = lead ++ clientStream (commands.drop st.dispatched.length))
    (hcut : cutAt [13, 10] st.session.io.commandReadBuffer = some (text, rest)) :
    (FramedBy commands (st.consume handled) ↔ KeepsFraming commands st (.consume handled)) ∧
    (KeepsFraming commands st (.consume handled) → (st.consume handled).session.Quiet) := by
  have hread := hq.withBuffer rest
  rw [consume_line handled hstate hcut]
  rcases hlead with rfl | rfl
  · cases hrest : commands.drop st.dispatched.length with
    | nil =>
      -- nothing is left to read
      rw [hrest] at hbytes
      have hnil : st.session.io.commandReadBuffer = [] := (append_eq_nil_iff.mp hbytes).1
      rw [hnil] at hcut
      cases hcut
    | cons c cs =>
      rw [hrest] at hbytes
      obtain ⟨rfl, hmore⟩ := unread_of_cut hcut c.cr_not_mem_line hbytes
      have hline : AtLine commands st c cs rest := ⟨hstate, hrest, hcut, hmore⟩
      rw [keepsFraming_line_iff handled hline]
      refine ⟨?_, fun h => quiet_settle hread (.inr (.inr h.1)) handled⟩
      by_cases htakes : st.session.ctx.TakesCommands
      · rw [and_iff_right htakes]
        cases c with
        | plain l => exact framedBy_plain_iff handled hf hq htakes hline
        | literal l => exact framedBy_literal_iff handled hf hq htakes hline
      · exact iff_of_false (not_framedBy_of_not_takes handled hf hq htakes hline) fun h =>
          htakes h.1
  · obtain ⟨rfl, hmore⟩ := unread_of_cut hcut not_mem_nil hbytes
    refine ⟨iff_of_true (framedBy_lead handled hf hq hstate hmore) ?_,
      fun _ => quiet_settle hread (.inr (.inl (by decide))) handled⟩
    -- no command begins with an empty line
    intro c _
    rw [hstate]
    intro rest' hcut'
    rw [hcut] at hcut'
    exact absurd (congrArg Prod.fst (Option.some.inj hcut')).symm c.line_ne_nil

/-- **Taking a unit of input.** -/
theorem consume_iff :
    (FramedBy commands (st.consume handled) ↔ KeepsFraming commands st (.consume handled)) ∧
    (KeepsFraming commands st (.consume handled) → (st.consume handled).session.Quiet) := by
  have hpos := hf.position
  generalize hrest : commands.drop st.dispatched.length = left at hpos
  cases hpos with
  | between lead hlead hstate hbytes =>
    cases hcut : cutAt [13, 10] st.session.io.commandReadBuffer with
    | none =>
      rw [consume_nothing handled hstate hcut]
      refine ⟨iff_of_true hf (keepsFraming_of_nothing handled (fun _ => hcut) fun h => ?_),
        fun _ => hq⟩
      cases hstate.symm.trans h
    | some cut =>
      rw [← hrest] at hbytes
      exact consume_line_iff handled hf hq hstate hlead hbytes hcut
  | inside l hstate =>
    by_cases hbuf : st.session.io.commandReadBuffer = []
    · rw [consume_no_chunk handled hstate hbuf]
      refine ⟨iff_of_true hf (keepsFraming_of_nothing handled (fun h => ?_) fun _ => hbuf),
        fun _ => hq⟩
      cases hstate.symm.trans h
    · rw [keepsFraming_chunk_iff handled hstate hrest hbuf]
      refine ⟨framedBy_chunk_iff handled hf hq hstate hrest hbuf, fun _ => ?_⟩
      rw [consume_chunk handled hstate hbuf]
      exact quiet_settle (hq.withBuffer []) (.inl hstate) handled

/-- **Receiving bytes.** -/
theorem receive_iff (count : Nat) :
    (FramedBy commands (st.receive count) ↔ KeepsFraming commands st (.receive count)) ∧
    (st.receive count).session.Quiet := by
  refine ⟨?_, { hq with }⟩
  have hs := take_append_drop count st.unsent
  unfold KeepsFraming ImapReading.receive
  by_cases hnil : st.unsent.take count = []
  · -- an empty read
    rw [hnil, st.session.io.readDone_nil hf.isOpen]
    have hsame := sameInput_doAsyncRead { st.session.io with readInProgress := false }
    refine iff_of_true ?_ (fun h => absurd hnil h)
    refine ⟨hsame.closed.trans hf.isOpen, hf.dispatched, hf.position.of_io hsame.state ?_⟩
    rw [hnil, nil_append] at hs
    rw [hsame.buffer, hs]
    rfl
  · by_cases hfits : (st.session.io.commandReadBuffer ++ st.unsent.take count).length ≤
      maxCommandBufferBytes
    · obtain ⟨hbuf, hstate, hcl⟩ := st.session.io.input_readDone hf.isOpen hnil hfits
      refine iff_of_true ?_ (fun _ => hfits)
      refine ⟨hcl, hf.dispatched, hf.position.of_io hstate ?_⟩
      rw [hbuf, append_assoc, hs]
      rfl
    · have hcl := st.session.io.closed_readDone hf.isOpen hnil (Nat.not_le.mp hfits)
      refine iff_of_false (fun h => ?_) (fun h => hfits (h hnil))
      cases hcl.symm.trans h.isOpen

theorem readingStep_iff (input : ReadingInput) :
    (FramedBy commands (readingStep st input) ↔ KeepsFraming commands st input) ∧
    (KeepsFraming commands st input → (readingStep st input).session.Quiet) := by
  unfold readingStep
  rw [hf.isOpen]
  cases input with
  | receive count =>
    obtain ⟨hiff, hkept⟩ := receive_iff hf hq count
    exact ⟨hiff, fun _ => hkept⟩
  | consume handled => exact consume_iff handled hf hq

end Line

end Framed

/-! ## Runs -/

theorem unread_of_unsent {st : ImapReading} (h : st.unsent = []) :
    st.unread = st.session.io.commandReadBuffer := by
  rw [ImapReading.unread, h, append_nil]

/-- **When everything is read, every command has been dispatched.** -/
theorem FramedBy.dispatched_eq {commands : List ClientCommand} {st : ImapReading}
    (h : FramedBy commands st) (hunsent : st.unsent = [])
    (hbuffered : st.session.io.hasBufferedInput = false) :
    st.dispatched = commands.map ClientCommand.reading := by
  have hall : commands.drop st.dispatched.length = [] := by
    have hpos := h.position
    generalize commands.drop st.dispatched.length = left at hpos
    cases hpos with
    | between lead hlead hstate hbytes =>
      cases left with
      | nil => rfl
      | cons c cs =>
        -- the first command would be a line in the buffer
        rw [unread_of_unsent hunsent] at hbytes
        have hcut : cutAt [13, 10] st.session.io.commandReadBuffer = none := by
          simpa [hasBufferedInput, LineProtocol.hasBufferedInput, hstate] using hbuffered
        refine absurd ?_ (cutAt_eq_none_iff.mp hcut (lead ++ c.line) (c.payload ++ clientStream cs))
        rw [hbytes]
        simp [clientStream]
    | inside l hstate htag hcommand hsize hlength hbytes =>
      -- the rest of the literal would be in the buffer
      have hbuf : st.session.io.commandReadBuffer = [] := by
        simpa [hasBufferedInput, LineProtocol.hasBufferedInput, hstate] using hbuffered
      rw [unread_of_unsent hunsent, hbuf, append_nil] at hbytes
      have hlong := congrArg List.length hbytes
      rw [length_append] at hlong
      omega
  rw [h.dispatched, take_of_length_le (drop_eq_nil_iff.mp hall)]

/-- **The commands of a stream are dispatched as they are meant**, in every run of which all steps
keep the reading right, and in no other: in every state that is reached, what was dispatched are the
first commands of the stream with their literals, and what is unread are the others.  When nothing
is left to read, all of them have been dispatched. -/
theorem literalFraming_iff (state : ImapState) (commands : List ClientCommand)
    (inputs : List ReadingInput) :
    (StepsMeet readingStep (KeepsFraming commands) (.start state commands) inputs ↔
      ∀ js, js <+: inputs → FramedBy commands (run readingStep (.start state commands) js)) ∧
    ∀ js, let st := run readingStep (.start state commands) js
      FramedBy commands st → st.unsent = [] → st.session.io.hasBufferedInput = false →
        st.dispatched = commands.map ClientCommand.reading := by
  constructor
  · refine stepsMeet_iff_forall_good (fun st => FramedBy commands st ∧ st.session.Quiet)
      (FramedBy commands) (fun _ h => h.1) ?_ ?_ ?_ inputs
    · intro st input h hkeeps
      obtain ⟨hiff, hq⟩ := readingStep_iff h.1 h.2 input
      exact ⟨hiff.mpr hkeeps, hq hkeeps⟩
    · intro st input h hnot hf
      exact hnot ((readingStep_iff h.1 h.2 input).1.mp hf)
    · -- in the beginning everything is to be read
      exact ⟨⟨rfl, rfl, .between [] (.inl rfl) rfl rfl⟩, ⟨nofun, rfl, rfl⟩⟩
  · intro js st hf hunsent hbuffered
    exact hf.dispatched_eq hunsent hbuffered

/-- APPEND in small letters, with a literal of one byte. -/
def lowerAppend : LiteralLine where
  tag := bytes "a"
  word := bytes "append"
  args := bytes "INBOX"
  tag_ne := by decide
  tagChars := by decide +kernel
  word_ne := by decide
  wordChars := by decide +kernel
  argsChars := by decide +kernel
  argsEnd := by decide +kernel
  gap := 1
  digits := bytes "1"
  literal := bytes "x"
  digits_ne := by decide
  digitChars := by decide +kernel
  announced := by decide
  fits := by decide

/-- It is dispatched without its mailbox. -/
theorem not_forall_literalFramed :
    ¬∀ (state : ImapState) (commands : List ClientCommand) (inputs : List ReadingInput),
      FramedBy commands (run readingStep (.start state commands) inputs) := by
  intro h
  have hf := h .authenticated [.literal lowerAppend] [.receive 100, .consume true]
  have hdisp : (run readingStep (.start .authenticated [.literal lowerAppend])
      [.receive 100, .consume true]).dispatched =
        [.command (bytes "a") .append [] (some (bytes "x"))] := by decide
  have hmeant := hf.dispatched
  exact absurd hmeant (by decide)

end ProtoRelay

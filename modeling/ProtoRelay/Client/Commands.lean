import ProtoRelay.Base.Base64
import ProtoRelay.Client.Outcomes

/-!
# What the client writes

The commands of the client carry what its callers and the server give it.  Whatever that is, a
command is one line, credentials, addresses and message data wait for TLS where the options ask for
it, and what was received before the handshake is not read after it.
-/

namespace ProtoRelay

open List

/-- A string without CR, LF and NUL. -/
def Clean (s : Bytes) : Prop := ∀ b ∈ s, b ≠ 13 ∧ b ≠ 10 ∧ b ≠ 0

/-- One line, ended by CRLF. -/
def IsLine (wire : Bytes) : Prop := ∃ line, wire = line ++ [13, 10] ∧ Clean line

/-- The names and addresses an operation was started with are clean.  A user name is used with a
password only. -/
def ClientCall.Clean : ClientCall → Prop
  | .connect o => ProtoRelay.Clean o.host ∧ ProtoRelay.Clean o.helo ∧
      (o.password.isSome → ProtoRelay.Clean o.authUser)
  | .send m => ProtoRelay.Clean m.sender ∧ ∀ r ∈ m.recipients, ProtoRelay.Clean r
  | .quit => True

/-! ## Lines -/

variable {s : Bytes} {call : ClientCall} {encodeBlock : Bytes → Bytes} {log : List ClientEvent}
  {n : Nat}

theorem Clean.append {t : Bytes} (hs : Clean s) (ht : Clean t) : Clean (s ++ t) := by
  intro b hb
  rcases mem_append.mp hb with hb | hb
  · exact hs b hb
  · exact ht b hb

theorem clean_of_atom (h : atom s = true) : Clean s := by
  intro b hb
  simp only [atom, Bool.and_eq_true, all_eq_true] at h
  have hbyte := h.2 b hb
  refine ⟨?_, ?_, ?_⟩ <;> rintro rfl <;> cases hbyte

theorem clean_of_base64 (h : ∀ b ∈ s, isBase64 b = true) : Clean s := by
  intro b hb
  have hbyte := h b hb
  refine ⟨?_, ?_, ?_⟩ <;> rintro rfl <;> cases hbyte

/-- **What passes the checks is clean.** -/
theorem ClientCall.clean_of_isValid (h : call.isValid = true) : call.Clean := by
  cases call with
  | connect o =>
    simp only [ClientCall.isValid, ConnectOptions.isValid, Bool.and_eq_true] at h
    obtain ⟨⟨⟨⟨hhost, hhelo⟩, -⟩, -⟩, hpw⟩ := h
    refine ⟨clean_of_atom hhost, clean_of_atom hhelo, fun hsome => ?_⟩
    obtain ⟨password, heq⟩ := Option.isSome_iff_exists.mp hsome
    rw [heq] at hpw
    simp only [Bool.and_eq_true] at hpw
    exact clean_of_atom hpw.1.1.1
  | send m =>
    simp only [ClientCall.isValid, ClientMessage.isValid, Bool.and_eq_true, Bool.or_eq_true,
      List.isEmpty_iff, all_eq_true] at h
    obtain ⟨⟨⟨⟨⟨hsender, -⟩, -⟩, -⟩, -⟩, hrecipients⟩ := h
    refine ⟨?_, fun r hr => clean_of_atom (hrecipients r hr)⟩
    rcases hsender with hempty | hatom
    · rw [hempty]
      exact fun _ hb => absurd hb not_mem_nil
    · exact clean_of_atom hatom
  | quit => trivial

theorem Clean.isLine (h : Clean s) : IsLine (s ++ bytes "\r\n") := ⟨s, rfl, h⟩

theorem clean_of_decide (h : s.all (fun b => b != 13 && b != 10 && b != 0) = true) : Clean s := by
  intro b hb
  have hbyte := all_eq_true.mp h b hb
  simpa [and_assoc] using hbyte

/-- **Every command is one line.** -/
theorem Command.isLine (hencode : ∀ text, ∀ b ∈ encodeBlock text, isBase64 b = true)
    {stage : ClientStage} {wire : Bytes} (h : Command encodeBlock call stage wire)
    (hval : call.isValid = true) (hsg : stage ≠ .body) : IsLine wire := by
  have hclean := ClientCall.clean_of_isValid hval
  have hend : bytes ">\r\n" = bytes ">" ++ [13, 10] := by decide
  cases h with
  | ehlo o => exact (Clean.append (clean_of_decide (by decide)) hclean.2.1).isLine
  | starttls o => exact (clean_of_decide (s := bytes "STARTTLS") (by decide)).isLine
  | auth o => exact (clean_of_decide (s := bytes "AUTH PLAIN") (by decide)).isLine
  | credentials o text => exact (clean_of_base64 (hencode text)).isLine
  | mail m =>
    refine ⟨bytes "MAIL FROM:<" ++ m.sender ++ bytes ">", by simp [hend], ?_⟩
    exact ((clean_of_decide (by decide)).append hclean.1).append (clean_of_decide (by decide))
  | recipient m i hi =>
    refine ⟨bytes "RCPT TO:<" ++ m.recipients.getD i [] ++ bytes ">", by simp [hend], ?_⟩
    have hrcpt : Clean (m.recipients.getD i []) := by
      rw [getD_eq_getElem?_getD, getElem?_eq_getElem hi]
      exact hclean.2 _ (getElem_mem hi)
    exact ((clean_of_decide (by decide)).append hrcpt).append (clean_of_decide (by decide))
  | data m => exact (clean_of_decide (s := bytes "DATA") (by decide)).isLine
  | body m => exact absurd rfl hsg
  | quit => exact (clean_of_decide (s := bytes "QUIT") (by decide)).isLine

/-! ## Runs -/

/-- The connection `c`, some time after the handshake on `c₀`: the replies read since are in the
bytes received since. -/
def ReadSince (c₀ c : ClientConnection) (rest : Bytes) : Prop :=
  ∃ history, c.history = c₀.history ++ history ∧
    c.stream = c₀.stream ++ ((history.map (·.2)).flatten ++ rest)

namespace ClientSession

/-- The bytes that belong to no complete reply yet. -/
def unread (s : ClientSession) (c : ClientConnection) : Bytes :=
  (s.current.elim [] (·.reply.raw)) ++ c.replies

/-- **The commands of a session are safe**: with TLS in the options, credentials, addresses and
message data are written after the handshake only; all bytes received before a handshake belong to
replies that were read before it, and the replies read after it to the bytes received after it;
commands are single lines; and an operation with names or addresses that are not clean writes
nothing and fails. -/
structure CommandsSafe (s : ClientSession) : Prop where
  shielded : ∀ later n stage wire earlier, s.log = later ++ .wrote n stage wire :: earlier →
    stage.isProtected = true →
      ∃ o, openedWith earlier = some o ∧ (o.tls ≠ .none → Secured earlier)
  handshake : ∀ n c₀, .secured n c₀ ∈ s.log → c₀.replies = [] ∧ c₀.stream = c₀.read
  since : ∀ n c₀ c, .secured n c₀ ∈ sinceOpened s.log → s.connection = some c →
    ReadSince c₀ c (s.unread c)
  completed : ∀ later n r c earlier, s.log = later ++ .completed n r (some c) :: earlier →
    ∀ n' c₀, .secured n' c₀ ∈ sinceOpened earlier → ∃ rest, ReadSince c₀ c rest
  lines : ∀ n stage wire, .wrote n stage wire ∈ s.log → stage ≠ .body → IsLine wire
  refused : ∀ n call, .started n call ∈ s.log → ¬ call.Clean →
    (∀ stage wire, .wrote n stage wire ∉ s.log) ∧
      ∃ r c, .completed n r c ∈ s.log ∧ (r.outcome = .protocolError ∨ r.outcome = .temporaryFailure)

end ClientSession

section

variable {nextId : Nat} {running : Option Nat} (h : LogOk encodeBlock log nextId running)

include h

theorem LogOk.started_unique {call' : ClientCall}
    (hsta : .started n call ∈ log) (hstarted' : .started n call' ∈ log) : call = call' := by
  have hlt : n < nextId := h.ids _ hsta
  have hone := h.starts n
  rw [if_pos hlt, ProtoRelay.starts, countP_eq_length_filter, length_eq_one_iff] at hone
  obtain ⟨e, he⟩ := hone
  have hmem : ∀ call, .started n call ∈ log → .started n call = e := by
    intro call hcall
    have hstart : (ClientEvent.started n call).isStart n = true := beq_self_eq_true n
    have hfilt : .started n call ∈ log.filter (·.isStart n) := mem_filter.mpr ⟨hcall, hstart⟩
    rw [he] at hfilt
    exact mem_singleton.mp hfilt
  exact (ClientEvent.started.inj ((hmem call hsta).trans (hmem call' hstarted').symm)).2

theorem LogOk.exists_completed (hlt : n < nextId) (hrunning : running ≠ some n) :
    ∃ r c, .completed n r c ∈ log := by
  have hone := h.completions n
  rw [if_pos ⟨hlt, hrunning⟩] at hone
  have hpos : 0 < ProtoRelay.completions n log := by omega
  obtain ⟨e, hmem, he⟩ := countP_pos_iff.mp hpos
  cases e with
  | completed id r c =>
    obtain rfl : id = n := beq_iff_eq.mp he
    exact ⟨r, c, hmem⟩
  | _ => cases he

end

theorem mem_of_mem_sinceOpened {e : ClientEvent} (h : e ∈ sinceOpened log) :
    e ∈ log := (List.takeWhile_prefix _).subset h

/-- The replies come in order, so the bytes of those read after a handshake come behind it. -/
theorem ReadInOrder.readSince {c c₀ : ClientConnection} (h : ReadInOrder log c)
    (hsecured : .secured n c₀ ∈ sinceOpened log) (hread : c₀.stream = c₀.read) {rest : Bytes}
    (hstrm : c.stream = c.read ++ rest) : ReadSince c₀ c rest := by
  obtain ⟨history, hhist⟩ := h.secured n c₀ hsecured
  refine ⟨history, hhist.symm, ?_⟩
  rw [hstrm, hread, ClientConnection.read, ClientConnection.read, ← hhist]
  simp

namespace ClientSession

section

variable {encodeBlock : Bytes → Bytes} {s : ClientSession} {c : ClientConnection}

theorem Ok.stream_eq (h : s.Ok encodeBlock) (hc : s.connection = some c) :
    c.stream = c.read ++ s.unread c := by
  unfold ClientSession.unread
  cases hcur : s.current with
  | none => exact ((h.idle hcur).wire c hc).2
  | some op =>
    obtain ⟨c', hh, ha⟩ := h.running op hcur
    obtain rfl : c' = c := Option.some.inj (hh.connection.symm.trans hc)
    exact ha.unread

/-- What was recorded of an operation that is not clean. -/
theorem Ok.refused (h : s.Ok encodeBlock) {n : Nat} {call : ClientCall}
    (hsta : .started n call ∈ s.log) (hdirty : ¬ call.Clean) :
    (∀ stage wire, .wrote n stage wire ∉ s.log) ∧
      ∃ r c, .completed n r c ∈ s.log ∧
        (r.outcome = .protocolError ∨ r.outcome = .temporaryFailure) := by
  -- whatever passed the checks is clean
  have hinv : ∀ call', .started n call' ∈ s.log → call'.isValid = true → False := by
    intro call' hstarted' hval
    rw [h.log.started_unique hsta hstarted'] at hdirty
    exact hdirty (ClientCall.clean_of_isValid hval)
  constructor
  · intro stage wire hwrote
    obtain ⟨later, earlier, hlog, ⟨call', hstarted', hval, -⟩, -⟩ :=
      h.log.sound.exists_of_mem hwrote
    exact hinv call' (by rw [hlog]; simp [hstarted']) hval
  · have hrunning : s.current.map (·.id) ≠ some n := by
      intro hrunning
      obtain ⟨op, hop, rfl⟩ := Option.map_eq_some_iff.mp hrunning
      obtain ⟨c, hh, -⟩ := h.running op hop
      exact hinv op.call hh.started hh.valid
    have hlt : n < s.nextId := h.log.ids _ hsta
    obtain ⟨r, c, hcompl⟩ := h.log.exists_completed hlt hrunning
    refine ⟨r, c, hcompl, ?_⟩
    obtain ⟨later, earlier, hlog, hjust⟩ := h.log.sound.exists_of_mem hcompl
    obtain ⟨call', hstarted', hcases⟩ := Justified.started hjust
    rcases hcases with hval | hout
    · exact (hinv call' (by rw [hlog]; simp [hstarted']) hval).elim
    · exact hout

theorem Ok.commandsSafe (hencode : ∀ text, ∀ b ∈ encodeBlock text, isBase64 b = true)
    (h : s.Ok encodeBlock) : s.CommandsSafe := by
  have hshake : ∀ n c₀, .secured n c₀ ∈ s.log → c₀.replies = [] ∧ c₀.stream = c₀.read := by
    intro n c₀ hmem
    obtain ⟨later, earlier, -, hsound⟩ := h.log.sound.exists_of_mem hmem
    exact hsound
  refine ⟨?_, hshake, ?_, ?_, ?_, fun n call => h.refused⟩
  · intro later n stage wire earlier hlog hprotected
    obtain ⟨-, o, ho, hsecured⟩ := h.log.sound later _ earlier hlog
    exact ⟨o, ho, hsecured hprotected⟩
  · intro n c₀ c hmem hc
    exact (h.wire hc).inOrder.readSince hmem (hshake n c₀ (mem_of_mem_sinceOpened hmem)).2
      (h.stream_eq hc)
  · intro later n r c earlier hlog n' c₀ hmem
    have hinOrder := Justified.inOrder (h.log.sound later _ earlier hlog) c rfl
    obtain ⟨rest, hrest⟩ := hinOrder.stream
    have hmem' : .secured n' c₀ ∈ s.log := by
      rw [hlog]
      exact mem_append_right _ (.tail _ (mem_of_mem_sinceOpened hmem))
    exact ⟨rest, hinOrder.readSince hmem (hshake n' c₀ hmem').2 hrest.symm⟩
  · intro n stage wire hwrote hsg
    obtain ⟨-, -, -, ⟨call, -, hval, hcmd⟩, -⟩ := h.log.sound.exists_of_mem hwrote
    exact hcmd.isLine hencode hval hsg

end

/-- **TLS and command safety**: the commands are safe in every run, with every encoder whose output
is base64. -/
theorem commandsSafe_run {encodeBlock : Bytes → Bytes}
    (hencode : ∀ text, ∀ b ∈ encodeBlock text, isBase64 b = true) (is : List Input) :
    (run (step encodeBlock) {} is).CommandsSafe :=
  (ok_run encodeBlock is).commandsSafe hencode

/-- A connection with STARTTLS and credentials. -/
def securedConnect : List Input :=
  [.connect { host := bytes "mx.example.org", tls := .startTlsRequired, authUser := bytes "alice",
              password := some (bytes "secret") },
    .connected none, .received (bytes "220 mx\r\n"), .written none,
    .received (bytes "250-mx\r\n250 STARTTLS\r\n"), .written none, .received (bytes "220 go\r\n"),
    .handshaken none, .written none, .received (bytes "250-mx\r\n250 AUTH PLAIN\r\n"),
      .written none,
    .received (bytes "334 \r\n"), .written none, .received (bytes "235 ok\r\n")]

theorem commandsSafe_securedConnect :
    (∃ n wire, .wrote n .credentials wire ∈ (run (step base64) {} securedConnect).log) ∧
      (run (step base64) {} securedConnect).CommandsSafe := by
  refine ⟨⟨0, base64 (plainText (bytes "alice") (bytes "secret")) ++ bytes "\r\n", ?_⟩,
    commandsSafe_run (fun _ _ hb => isBase64_of_mem_base64 hb) securedConnect⟩
  decide

end ClientSession

end ProtoRelay

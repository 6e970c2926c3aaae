import ProtoRelay.Imap.Starttls
import ProtoRelay.Smtp.Isolation
import ProtoRelay.Smtp.Starttls

/-!
# STARTTLS

Both protocols hand a connection over in the same way, and the session that receives it begins with
nothing of the old one.  A client that sends anything behind its STARTTLS line in the same segment
breaks the handover: the reply is held back for the input that is already there, but the callback
that gives the connection away is not.
-/

namespace ProtoRelay

open ImapSession Session

open SessionBase (SafeHandover)

/-- **STARTTLS hands over safely when nothing else goes on**, in SMTP and in IMAP, and the TLS
session begins with no input and unauthenticated. -/
theorem starttls_handover (smtp : SmtpEnv) (imap : ImapEnv) (listener : ListenerConfig) :
    (∀ (s s₀ : Session) (is js : List (ServerConfig × Session.Input))
        (i : ServerConfig × Session.Input), Session.IsStart smtp s →
      StepsMeet (step smtp) (Session.Undisturbed smtp) s (is ++ i :: js) →
      acceptsStarttls smtp (run (step smtp) s is) i = some s₀ →
      SafeHandover readyToStartTls s₀.startingTls (run (step smtp) s (is ++ i :: js)).io) ∧
    (∀ (s s₀ : ImapSession) (is js : List (ServerConfig × ImapSession.Input))
        (i : ServerConfig × ImapSession.Input),
      StepsMeet (step imap) (ImapSession.Undisturbed imap) s (is ++ i :: js) →
      acceptsStarttls imap (run (step imap) s is) i = some s₀ →
      SafeHandover (beginTlsNegotiation s₀.currentTag) s₀.startingTls
        (run (step imap) s (is ++ i :: js)).io) ∧
    (startAfterStarttls listener).io.commandReadBuffer = [] ∧
    (startAfterStarttls listener).ctx.isAuthenticated = false ∧
    startAfterStarttls.io.commandReadBuffer = [] ∧
    startAfterStarttls.ctx.isAuthenticated = false :=
  ⟨fun _ _ _ _ _ hs his haccept => safeHandover_run hs his haccept,
    fun _ _ _ _ _ his haccept => safeHandover_run his haccept, rfl, rfl, rfl, rfl⟩

/-! ## With and without input behind STARTTLS -/

open Session (twoAccounts exampleConfig exampleListener ehloDialog)

def plainImap : ImapEnv := ⟨false, true, fun _ => none⟩

def afterEhlo (segment : Bytes) : List (ServerConfig × Session.Input) :=
  ehloDialog ++ [(exampleConfig, .readDone (some segment))]

def afterBanner (segment : Bytes) : List (ServerConfig × ImapSession.Input) :=
  [.runTask, .runTask, .writeDone 0 true, .runTask, .readDone (some segment)].map (exampleConfig, ·)

/-- The loop over the input goes on, and executor and network do what is outstanding. -/
def finishImap : List (ServerConfig × ImapSession.Input) :=
  [.consume fresh, .loopEnd, .runTask, .writeDone 0 true].map (exampleConfig, ·)

/-- STARTTLS alone in its segment is accepted and handed over safely, in both protocols. -/
theorem starttls_handover_alone : (∃ s₀ : Session, SafeHandover readyToStartTls s₀.startingTls
        (run (step twoAccounts) (start twoAccounts exampleConfig exampleListener)
          (afterEhlo (bytes "STARTTLS\r\n") ++
            (exampleConfig, .consume {}) :: quiesce.map (exampleConfig, ·))).io) ∧
      ∃ s₀ : ImapSession, SafeHandover (beginTlsNegotiation s₀.currentTag) s₀.startingTls
          (run (step plainImap) (start plainImap exampleConfig)
            (afterBanner (bytes "a STARTTLS\r\n") ++
              (exampleConfig, .consume fresh) :: finishImap)).io := by
  constructor
  · have hacc : (acceptsStarttls twoAccounts
        (run (step twoAccounts) (start twoAccounts exampleConfig exampleListener)
          (afterEhlo (bytes "STARTTLS\r\n"))) (exampleConfig, .consume {})).isSome = true := by
      decide +kernel
    obtain ⟨s₀, haccept⟩ := Option.isSome_iff_exists.mp hacc
    exact ⟨s₀, (starttls_handover _ plainImap exampleListener).1 _ _ _ _ _
      (.inl ⟨exampleConfig, exampleListener, rfl⟩) (by decide +kernel) haccept⟩
  · have hacc : (acceptsStarttls plainImap (run (step plainImap) (start plainImap exampleConfig)
          (afterBanner (bytes "a STARTTLS\r\n"))) (exampleConfig, .consume fresh)).isSome =
            true := by
      decide
    obtain ⟨s₀, haccept⟩ := Option.isSome_iff_exists.mp hacc
    exact ⟨s₀, (starttls_handover twoAccounts _ exampleListener).2.1 _ _ _ _ _ (by decide) haccept⟩

/-- **A command behind STARTTLS in the same segment breaks the handover**: the connection is given
away, the reply is still held back, and the old session dispatches the command. -/
theorem not_forall_safeHandover :
    (¬ ∀ (env : SmtpEnv) (s s₀ : Session) (is js : List (ServerConfig × Session.Input))
        (i : ServerConfig × Session.Input), Session.IsStart env s →
      acceptsStarttls env (run (step env) s is) i = some s₀ →
      SafeHandover readyToStartTls s₀.startingTls (run (step env) s (is ++ i :: js)).io) ∧
    ¬ ∀ (env : ImapEnv) (s₀ : ImapSession) (is js : List (ServerConfig × ImapSession.Input))
        (i : ServerConfig × ImapSession.Input), acceptsStarttls env
        (run (step env) (start env exampleConfig) is) i = some s₀ →
      SafeHandover (beginTlsNegotiation s₀.currentTag) s₀.startingTls
        (run (step env) (start env exampleConfig) (is ++ i :: js)).io := by
  constructor
  · intro hall
    have hrep : (acceptsStarttls twoAccounts
        (run (step twoAccounts) (start twoAccounts exampleConfig exampleListener)
          (afterEhlo (bytes "STARTTLS\r\nEHLO client\r\n"))) (exampleConfig, .consume {})).any
            (fun s₀ => s₀.startingTls.view.reported ≠ (run (step twoAccounts)
                (start twoAccounts exampleConfig exampleListener)
                (afterEhlo (bytes "STARTTLS\r\nEHLO client\r\n") ++
                  [(exampleConfig, .consume {}), (exampleConfig, .consume {})])).io.view.reported) =
              true := by
      decide +kernel
    obtain ⟨s₀, haccept, hne⟩ := (Option.any_eq_true _ _).mp hrep
    have hsafe := hall _ _ _ _ [(exampleConfig, .consume {})] _
      (.inl ⟨exampleConfig, exampleListener, rfl⟩) haccept
    exact of_decide_eq_true hne hsafe.reported_eq.symm
  · intro hall
    have hrep : (acceptsStarttls plainImap (run (step plainImap) (start plainImap exampleConfig)
          (afterBanner (bytes "a STARTTLS\r\nb LOGIN u p\r\n"))) (exampleConfig,
          .consume fresh)).any
          (fun s₀ => s₀.startingTls.view.reported ≠
            (run (step plainImap) (start plainImap exampleConfig)
              (afterBanner (bytes "a STARTTLS\r\nb LOGIN u p\r\n") ++
                (exampleConfig, .consume fresh) :: finishImap)).io.view.reported) =
            true := by
      decide
    obtain ⟨s₀, haccept, hne⟩ := (Option.any_eq_true _ _).mp hrep
    have hsafe := hall _ _ _ finishImap _ haccept
    exact of_decide_eq_true hne hsafe.reported_eq.symm

end ProtoRelay

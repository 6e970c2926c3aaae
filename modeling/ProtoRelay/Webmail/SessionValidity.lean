import ProtoRelay.Base.Slots
import ProtoRelay.Webmail.Sessions

/-!
# Validity of web sessions

The stamp of a session always is that of a hash against which its login has verified the password,
and the table always has the sessions that are in force: stored, not erased, not replaced by a later
login of the account.  But a lookup reads the session first and the account later.  What it reports
is right if and only if the session it has read is still in the table, and has not expired, when it
reads the account.
-/

namespace ProtoRelay

open List

/-- A session is ended by a logout with its token, or by a later login of its account. -/
def WebEvent.Revokes : WebEvent → WebEvent → Prop
  | .erased tokenHash, .stored _ _ row => tokenHash = row.tokenHash
  | .stored _ _ row', .stored _ _ row => row'.sameAccount row = true
  | _, _ => False

/-- **The session of a token is valid**: it was stored by a login and not erased since, no later
login of the account has completed, it has not expired, and the account is active with a password
hash against which that login has verified the password. -/
def WebCrypto.Valid (c : WebCrypto) (accounts : List WebAccount) (now : Nat) (log : List WebEvent)
    (token : Bytes) (shard userId : Nat) : Prop :=
  ∃ j login row, InForce WebEvent.Revokes (.stored j login row) log ∧ token = c.token j ∧
    row.tokenHash = c.stamp token ∧ row.shard = shard ∧ row.userId = userId ∧ now < row.expiresAt ∧
    ∃ a ∈ accounts, a.shard = shard ∧ a.id = userId ∧ a.status = 1 ∧ a.password ∈ login.checked ∧
      c.verify login.password a.password = true

/-- What a report says was true at its moment. -/
def WebCrypto.Justified (c : WebCrypto) : WebEvent → List WebEvent → Prop
  | .found token row accounts now, earlier =>
    c.Valid accounts now earlier token row.shard row.userId
  | _, _ => True

namespace WebSystem

variable (c : WebCrypto) (shardCount : Nat)

/-- **Lookups are sound**: each session that was reported was valid at that moment. -/
def LookupsSound (s : WebSystem) : Prop := Grounded c.Justified s.log

/-- When a lookup reads the account and finds it as the session says, the session is still in the
table and has not expired. -/
def Undisturbed (s : WebSystem) : Input → Prop
  | .confirm k ok => ∀ l, s.lookups[k]? = some (some l) → ok = true →
    c.confirms l.row (findAccount s.accounts l.row.shard l.row.address) = true →
      l.row ∈ s.sessions ∧ s.now < l.row.expiresAt
  | _ => True

end WebSystem

/-! ## Tables -/

theorem mem_putSession {row r : WebSessionRow} {sessions sessions' : List WebSessionRow}
    (h : putSession row sessions = some sessions') :
    r ∈ sessions' ↔ r = row ∨ (r ∈ sessions ∧ r.sameAccount row = false) := by
  unfold putSession at h
  split at h
  · cases h
  · split at h
    · rename_i hany
      cases h
      obtain ⟨r₀, hr₀, hsame₀⟩ := any_eq_true.mp hany
      rw [mem_updateWhere]
      constructor
      · rintro ⟨r', hr', rfl⟩
        split
        · exact .inl rfl
        · rename_i hnot
          exact .inr ⟨hr', eq_false_of_ne_true hnot⟩
      · rintro (rfl | ⟨hr, hoth⟩)
        · exact ⟨r₀, hr₀, by rw [if_pos hsame₀]⟩
        · exact ⟨r, hr, by rw [hoth]; rfl⟩
    · rename_i hnone
      cases h
      rw [mem_append, mem_singleton, or_comm]
      refine or_congr_right (and_iff_left_of_imp fun hr => ?_).symm
      by_contra hsame
      exact hnone (any_eq_true.mpr ⟨r, hr, by simpa using hsame⟩)

theorem sameAccount_comm (r r' : WebSessionRow) : r.sameAccount r' = r'.sameAccount r :=
  decide_eq_decide.mpr (and_congr eq_comm eq_comm)

/-! ## Logins -/

namespace WebLogin

variable (c : WebCrypto)

/-- The password was verified against the hashes that are recorded, and the stamp is that of one of
them once there is a stamp to be stored. -/
structure Ok (l : WebLogin) : Prop where
  verified : ∀ h ∈ l.checked, c.verify l.password h = true
  stamped : l.stage ≠ .first → l.stage ≠ .over → ∃ h ∈ l.checked, l.stamp = c.stamp h

variable {c} {l : WebLogin}

theorem Ok.over (h : l.Ok c) : Ok c { l with stage := .over } :=
  ⟨h.verified, fun _ hover => absurd rfl hover⟩

theorem Ok.firstRead (h : l.Ok c) (a : Option WebAccount) : (l.firstRead c a).Ok c := by
  unfold WebLogin.firstRead
  split
  · exact h.over
  · rename_i a
    split
    · exact h.over
    · split
      · exact h.over
      · rename_i hver
        have hver : c.verify l.password a.password = true := by simpa using hver
        exact ⟨forall_mem_cons.mpr ⟨hver, h.verified⟩, fun _ _ => ⟨a.password, mem_cons_self, rfl⟩⟩

theorem Ok.secondRead (h : l.Ok c) (hs : l.stage = .second) (a : Option WebAccount) :
    (l.secondRead c a).Ok c := by
  unfold WebLogin.secondRead
  split
  · exact h.over
  · rename_i a
    split
    · exact h.over
    · split
      · -- the hash that was verified before
        exact ⟨h.verified, fun _ _ => h.stamped (by rw [hs]; nofun) (by rw [hs]; nofun)⟩
      · split
        · exact h.over
        · rename_i hver
          have hver : c.verify l.password a.password = true := by simpa using hver
          exact ⟨forall_mem_cons.mpr ⟨hver, h.verified⟩,
            fun _ _ => ⟨a.password, mem_cons_self, rfl⟩⟩

end WebLogin

/-! ## The invariant -/

namespace WebSystem

/-- What the log says of a session that was stored. -/
structure Stored (c : WebCrypto) (s : WebSystem) (j : Nat) (login : WebLogin)
    (row : WebSessionRow) :
    Prop where
  token : row.tokenHash = c.stamp (c.token j)
  stamped : ∃ h ∈ login.checked, row.stamp = c.stamp h
  verified : ∀ h ∈ login.checked, c.verify login.password h = true
  done : ∃ l, s.logins[j]? = some l ∧ l.stage = .over

/-- The sessions in the table are those in force, the expired ones apart. -/
structure Ok (c : WebCrypto) (s : WebSystem) : Prop where
  sound : LookupsSound c s
  inForce : ∀ r ∈ s.sessions, ∃ j login, InForce WebEvent.Revokes (.stored j login r) s.log
  kept : ∀ j login r, InForce WebEvent.Revokes (.stored j login r) s.log → s.now < r.expiresAt →
    r ∈ s.sessions
  stored : ∀ j login r, WebEvent.stored j login r ∈ s.log → Stored c s j login r
  once : ∀ j login r login' r', WebEvent.stored j login r ∈ s.log →
    WebEvent.stored j login' r' ∈ s.log → r = r'
  lookups : ∀ l, some l ∈ s.lookups →
    l.row.tokenHash = c.stamp l.token ∧ ∃ j login, WebEvent.stored j login l.row ∈ s.log
  logins : ∀ l ∈ s.logins, l.Ok c

variable {c : WebCrypto} {shardCount : Nat} {s : WebSystem}

section

variable (h : s.Ok c)

include h

/-- Accounts and time change, and lookups begin and end. -/
theorem Ok.frame {accounts : List WebAccount} {now : Nat} {lookups : List (Option WebLookup)}
    (hnow : s.now ≤ now) (hlookups : ∀ l, some l ∈ lookups →
      l.row.tokenHash = c.stamp l.token ∧ ∃ j login, WebEvent.stored j login l.row ∈ s.log) :
    Ok c { s with accounts, now, lookups } :=
  { h with
    kept := fun j login r hr hlt => h.kept j login r hr (hnow.trans_lt hlt)
    stored := fun j login r hr => { h.stored j login r hr with }
    lookups := hlookups }

theorem Ok.accounts (accounts : List WebAccount) : Ok c { s with accounts := accounts } :=
  h.frame le_rfl h.lookups

theorem Ok.begin (l : WebLogin) (hl : l.Ok c) : Ok c { s with logins := s.logins ++ [l] } := by
  refine { h with stored := fun k login r hr => ?_, logins := fun l' hl' => ?_ }
  · obtain ⟨htok, hstamped, hverified, l', hl', hover⟩ := h.stored k login r hr
    have hlt : k < s.logins.length := (List.getElem?_eq_some_iff.mp hl').1
    exact ⟨htok, hstamped, hverified, l', (getElem?_append_left hlt).trans hl', hover⟩
  · rcases mem_append.mp hl' with hl' | hl'
    · exact h.logins l' hl'
    · rw [mem_singleton.mp hl']
      exact hl

/-- A login that is not over goes on. -/
theorem Ok.advance {j : Nat} {l : WebLogin} (hl : s.logins[j]? = some l) (hs : l.stage ≠ .over)
    {f : WebLogin → WebLogin} (hf : (f l).Ok c) : (s.advance j f).Ok c := by
  refine { h with stored := fun k login r hr => ?_, logins := fun l' hl' => ?_ }
  · obtain ⟨htok, hstamped, hverified, l', hl', hover⟩ := h.stored k login r hr
    refine ⟨htok, hstamped, hverified, l', ?_, hover⟩
    have hne : j ≠ k := by
      rintro rfl
      rw [hl] at hl'
      exact hs (Option.some.inj hl' ▸ hover)
    exact (getElem?_modify_of_ne hne).trans hl'
  · obtain ⟨k, hk⟩ := mem_iff_getElem?.mp hl'
    by_cases hjk : j = k
    · subst hjk
      have hself : (s.logins.modify j f)[j]? = some (f l) := getElem?_modify_self hl
      rw [WebSystem.advance, hself] at hk
      exact Option.some.inj hk ▸ hf
    · rw [WebSystem.advance, getElem?_modify_of_ne hjk] at hk
      exact h.logins l' (mem_of_getElem? hk)

/-- An entry of the log, with the table it leaves: the sessions it does not revoke, and the one it
stores. -/
theorem Ok.logged {e : WebEvent} (he : c.Justified e s.log) {sessions : List WebSessionRow}
    (honly : ∀ r ∈ sessions, (∃ j login, e = .stored j login r) ∨
      r ∈ s.sessions ∧ ∀ j login, ¬ e.Revokes (.stored j login r))
    (hkept : ∀ j login, ∀ r ∈ s.sessions, ¬ e.Revokes (.stored j login r) → r ∈ sessions)
    (hnew : ∀ j login r, e = .stored j login r →
      r ∈ sessions ∧ Stored c s j login r ∧ ∀ login' r', .stored j login' r' ∉ s.log) :
    Ok c { s with sessions := sessions, log := e :: s.log } := by
  refine ⟨h.sound.cons he, fun r hr => ?_, fun k login r hr hlt => ?_, fun k login r hr => ?_,
    fun k login r login' r' hr hr' => ?_, fun lookup hlook => ?_, h.logins⟩
  · rcases honly r hr with ⟨j, login, rfl⟩ | ⟨hr, hnot⟩
    · exact ⟨j, login, inForce_cons.mpr (.inl rfl)⟩
    · obtain ⟨k, login, hforce⟩ := h.inForce r hr
      exact ⟨k, login, inForce_cons.mpr (.inr ⟨hforce, hnot k login⟩)⟩
  · rcases inForce_cons.mp hr with heq | ⟨hforce, hnot⟩
    · exact (hnew k login r heq).1
    · exact hkept k login r (h.kept k login r hforce hlt) hnot
  · rcases mem_cons.mp hr with rfl | hr
    · exact { (hnew k login r rfl).2.1 with }
    · exact { h.stored k login r hr with }
  · rcases mem_cons.mp hr with rfl | hr
    · rcases mem_cons.mp hr' with heq | hr'
      · cases heq
        rfl
      · exact absurd hr' ((hnew k login r rfl).2.2 login' r')
    · rcases mem_cons.mp hr' with heq | hr'
      · exact absurd hr ((hnew k login' r' heq.symm).2.2 login r)
      · exact h.once k login r login' r' hr hr'
  · obtain ⟨htok, k, login, hsto⟩ := h.lookups lookup hlook
    exact ⟨htok, k, login, .tail _ hsto⟩

/-- **A login completes**: its session replaces the one of the account. -/
theorem Ok.store {j : Nat} {l : WebLogin} (hl : l.Ok c) (hs : l.stage = .put)
    (hover : ∃ l', s.logins[j]? = some l' ∧ l'.stage = .over)
    (hfst : ∀ login r, WebEvent.stored j login r ∉ s.log) (ttl : Nat) :
    (s.store c j l ttl).Ok c := by
  unfold WebSystem.store
  dsimp only
  split
  · exact h
  · rename_i sessions hput
    have hmem := fun r => mem_putSession (r := r) hput
    refine h.logged (by trivial) (fun r hr => ?_) (fun k login r hr hnot => ?_) fun k login r heq =>
      ?_
    · rcases (hmem r).mp hr with rfl | ⟨hr, hoth⟩
      · exact .inl ⟨j, l, rfl⟩
      · refine .inr ⟨hr, fun _ _ hrevokes => ?_⟩
        rw [sameAccount_comm] at hoth
        exact absurd (hoth.symm.trans hrevokes) nofun
    · rw [hmem, sameAccount_comm]
      exact .inr ⟨hr, eq_false_of_ne_true hnot⟩
    · cases heq
      have hstamped := hl.stamped (by rw [hs]; nofun) (by rw [hs]; nofun)
      exact ⟨(hmem _).mpr (.inl rfl), ⟨rfl, hstamped, hl.verified, hover⟩, hfst⟩

/-- Expired sessions are deleted. -/
theorem Ok.clean (chosen : List Bytes) :
    Ok c { s with sessions := cleanSessions chosen s.now s.sessions } := by
  refine { h with
    inForce := fun r hr => h.inForce r (mem_of_mem_filter hr)
    kept := fun k login r hr hlt => mem_filter.mpr ⟨h.kept k login r hr hlt, ?_⟩
    stored := fun k login r hr => { h.stored k login r hr with } }
  have hnot : ¬ r.expiresAt ≤ s.now := Nat.not_le.mpr hlt
  simp [hnot]

/-- **What a lookup reports is valid** if and only if the session it has read is still there. -/
theorem Ok.valid_iff {l : WebLookup} (hl : some l ∈ s.lookups)
    (hconfirms : c.confirms l.row (findAccount s.accounts l.row.shard l.row.address) = true) :
    c.Valid s.accounts s.now s.log l.token l.row.shard l.row.userId ↔
      l.row ∈ s.sessions ∧ s.now < l.row.expiresAt := by
  obtain ⟨htok, j₀, login₀, hstored₀⟩ := h.lookups l hl
  constructor
  · rintro ⟨j, login, row, hforce, hj, hhash, -, -, hlt, -⟩
    -- the token was given to one login, which has stored one session
    have hnumber : j₀ = j := by
      apply c.token_injective
      apply c.stamp_injective
      rw [← (h.stored j₀ login₀ l.row hstored₀).token, htok, hj]
    subst hnumber
    have hrow : l.row = row := h.once j₀ login₀ l.row login row hstored₀ hforce.mem
    rw [hrow]
    exact ⟨h.kept j₀ login row hforce hlt, hlt⟩
  · rintro ⟨hmem, hlt⟩
    obtain ⟨j, login, hforce⟩ := h.inForce l.row hmem
    obtain ⟨hhash, ⟨hash, hchecked, hstamp⟩, hverified, -⟩ := h.stored j login l.row hforce.mem
    have hj : l.token = c.token j := c.stamp_injective (htok.symm.trans hhash)
    refine ⟨j, login, l.row, hforce, hj, htok, rfl, rfl, hlt, ?_⟩
    cases hfind : findAccount s.accounts l.row.shard l.row.address with
    | none =>
      rw [hfind] at hconfirms
      cases hconfirms
    | some a =>
      rw [hfind] at hconfirms
      simp only [WebCrypto.confirms, Bool.and_eq_true, beq_iff_eq] at hconfirms
      obtain ⟨⟨hid, hactive⟩, hmatch⟩ := hconfirms
      have hsel : a.shard = l.row.shard ∧ a.address = l.row.address := by
        simpa using find?_some hfind
      have hpw : a.password = hash := c.stamp_injective (hmatch.trans hstamp)
      rw [← hpw] at hchecked
      exact ⟨a, mem_of_find?_eq_some hfind, hsel.1, hid, hactive, hchecked, hverified _ hchecked⟩

theorem Ok.ended (k : Nat) : Ok c { s with lookups := s.lookups.set k none } := by
  refine h.frame le_rfl fun l hl => ?_
  rcases mem_or_eq_of_mem_set hl with hl | hl
  · exact h.lookups l hl
  · cases hl

/-- **One step** keeps lookups sound if they are not disturbed. -/
theorem Ok.step {i : Input} (hi : s.Undisturbed c i) : (s.step c shardCount i).Ok c := by
  cases i with
  | login address password shard => exact h.begin _ ⟨nofun, fun hfst => absurd rfl hfst⟩
  | first j ok =>
    simp only [WebSystem.step]
    split
    · rename_i l hl
      split
      · rename_i hs
        exact h.advance hl (by rw [hs]; nofun) ((h.logins l (mem_of_getElem? hl)).firstRead _)
      · exact h
    · exact h
  | rehash j hash o =>
    simp only [WebSystem.step]
    split
    · rename_i l hl
      split
      · rename_i stored hs
        have hlogin := h.logins l (mem_of_getElem? hl)
        have hnext := h.advance hl (by rw [hs]; nofun) (f := fun l => { l with stage := .second })
          ⟨hlogin.verified, fun _ _ => hlogin.stamped (by rw [hs]; nofun) (by rw [hs]; nofun)⟩
        split
        · exact hnext.accounts _
        · exact hnext
      · exact h
    · exact h
  | second j ok =>
    simp only [WebSystem.step]
    split
    · rename_i l hl
      split
      · rename_i hs
        exact h.advance hl (by rw [hs]; nofun) ((h.logins l (mem_of_getElem? hl)).secondRead hs _)
      · exact h
    · exact h
  | put j generated ttl o =>
    simp only [WebSystem.step]
    split
    · rename_i l hl
      split
      · rename_i hs
        have hlogin := h.logins l (mem_of_getElem? hl)
        have hopen : l.stage ≠ .over := by rw [hs]; nofun
        have hnext := h.advance hl hopen (f := fun l => { l with stage := .over }) hlogin.over
        split
        · refine hnext.store hlogin hs ⟨_, getElem?_modify_self hl, rfl⟩ (fun login r hr => ?_) ttl
          obtain ⟨l', hl', hover⟩ := (h.stored j login r hr).done
          rw [hl] at hl'
          exact hopen (Option.some.inj hl' ▸ hover)
        · exact hnext
      · exact h
    · exact h
  | lookup token ok =>
    simp only [WebSystem.step]
    split
    · split
      · exact h
      · rename_i row hread
        split
        · exact h
        · refine h.frame le_rfl fun l hl => ?_
          rcases mem_append.mp hl with hl | hl
          · exact h.lookups l hl
          · cases mem_singleton.mp hl
            have hsel : row.tokenHash = c.stamp token ∧ s.now < row.expiresAt := by
              simpa using find?_some hread
            obtain ⟨j, login, hforce⟩ := h.inForce row (mem_of_find?_eq_some hread)
            exact ⟨hsel.1, j, login, hforce.mem⟩
    · exact h
  | confirm k ok =>
    simp only [WebSystem.step]
    split
    · rename_i l hl
      split
      · rename_i hfound
        have hval := (h.valid_iff (mem_of_getElem? hl) hfound.2).mpr (hi l hl hfound.1 hfound.2)
        exact (h.ended k).logged (e := .found l.token l.row s.accounts s.now) hval
          (fun _ hr => .inr ⟨hr, fun _ _ => id⟩) (fun _ _ _ hr _ => hr) (fun _ _ _ => nofun)
      · exact h.ended k
    · exact h
  | erase token o =>
    simp only [WebSystem.step]
    split
    · refine h.logged (e := .erased (c.stamp token)) trivial (fun r hr => .inr ?_)
        (fun _ _ r hr hnot => ?_)
        (fun _ _ _ => nofun)
      · obtain ⟨hr, hne⟩ := mem_filter.mp hr
        exact ⟨hr, fun _ _ heq => of_decide_eq_true hne heq.symm⟩
      · exact mem_filter.mpr ⟨hr, decide_eq_true fun heq => hnot heq.symm⟩
    · exact h
  | clean chosen => exact h.clean chosen
  | reset | setStatus | upgrade => exact h.accounts _
  | tick seconds => exact h.frame (Nat.le_add_right _ _) h.lookups

/-- **A lookup that is disturbed** reports a session that is not valid. -/
theorem Ok.not_lookupsSound_step {i : Input} (hi : ¬ s.Undisturbed c i) :
    ¬ (s.step c shardCount i).LookupsSound c := by
  intro hsound
  cases i with
  | confirm k ok =>
    simp only [Undisturbed, not_forall] at hi
    obtain ⟨l, hl, hok, hconfirms, hnot⟩ := hi
    have hlog : (s.step c shardCount (.confirm k ok)).log =
        .found l.token l.row s.accounts s.now :: s.log := by
      simp only [WebSystem.step, hl, hok, hconfirms, and_self, if_true]
    rw [LookupsSound, hlog, grounded_cons] at hsound
    exact hnot ((h.valid_iff (mem_of_getElem? hl) hconfirms).mp hsound.1)
  | _ => exact hi trivial

end

theorem ok_start (c : WebCrypto) (accounts : List WebAccount) (now : Nat) :
    (start accounts now).Ok c := by
  refine ⟨grounded_nil, fun r hr => absurd hr not_mem_nil,
    fun j login r hr => absurd hr (not_inForce_nil _), fun j login r hr => absurd hr not_mem_nil,
    fun j login r login' r' hr => absurd hr not_mem_nil, fun l hl => absurd hl not_mem_nil,
    fun l hl => absurd hl not_mem_nil⟩

/-- **Validity of web sessions**: from any accounts, in any interleaving of logins, upgrades of
hashes, resets, disabling, logouts and expiry, lookups are sound in all states of a run if and only
if, whenever a lookup finds the account as its session says, that session is still in the table and
has not expired. -/
theorem lookupsSound_iff (c : WebCrypto) (shardCount : Nat) (accounts : List WebAccount) (now : Nat)
    (is : List Input) : StepsMeet (step c shardCount) (Undisturbed c) (start accounts now) is ↔
      ∀ js, js <+: is → (run (step c shardCount) (start accounts now) js).LookupsSound c :=
  stepsMeet_iff_forall_good (Ok c) (LookupsSound c) (fun _ h => h.sound) (fun _ _ h hi => h.step hi)
    (fun _ _ h hi => h.not_lookupsSound_step hi) (ok_start c accounts now) is

/-! ## A logout during a lookup -/

/-- Passwords in the clear, stamps that are what they stamp, and one token that is valid. -/
def plainCrypto : WebCrypto where
  stamp := id
  stamp_injective := Function.injective_id
  verify password hash := password == hash
  needsRehash _ := false
  token j := List.replicate (64 + j) 48
  token_injective j k h := by
    have hlen := congrArg List.length h
    rw [length_replicate, length_replicate] at hlen
    exact Nat.add_left_cancel hlen

/-- A client logs in; it logs out while a lookup of its session is between its two statements. -/
def logoutDuringLookup : List Input :=
  [.login (bytes "a@x") (bytes "pw") 0, .first 0 true, .second 0 true, .put 0 true 60 .done,
    .lookup (plainCrypto.token 0) true, .erase (plainCrypto.token 0) .done, .confirm 0 true]

/-- **Not every lookup is sound**: a session is reported after it was erased. -/
theorem not_forall_lookupsSound :
    ¬ ∀ (c : WebCrypto) (shardCount : Nat) (accounts : List WebAccount)
    (now : Nat) (is : List Input),
    (run (step c shardCount) (start accounts now) is).LookupsSound c := by
  intro h
  have hsound := h plainCrypto 1 [⟨0, 7, bytes "a@x", bytes "pw", 1⟩] 0 logoutDuringLookup
  obtain ⟨row, login, hlog⟩ : ∃ row login,
      (run (step plainCrypto 1) (start [⟨0, 7, bytes "a@x", bytes "pw", 1⟩] 0)
        logoutDuringLookup).log =
        [.found (plainCrypto.token 0) row [⟨0, 7, bytes "a@x", bytes "pw", 1⟩] 0,
          .erased (plainCrypto.token 0), .stored 0 login row] ∧
            row.tokenHash = plainCrypto.token 0 :=
    ⟨⟨plainCrypto.token 0, 7, bytes "a@x", 0, bytes "pw", 60⟩,
      ⟨bytes "a@x", bytes "pw", 0, .put, 7, bytes "pw", [bytes "pw"]⟩, by decide, rfl⟩
  rw [LookupsSound, hlog.1, grounded_cons] at hsound
  obtain ⟨j, login', row', hforce, -⟩ := hsound.1
  -- the logout came later than the login
  rcases inForce_cons.mp hforce with heq | ⟨hforce, hnot⟩
  · cases heq
  · rcases inForce_cons.mp hforce with heq | ⟨hforce, -⟩
    · cases heq
      exact hnot hlog.2.symm
    · exact not_inForce_nil _ hforce

end WebSystem

end ProtoRelay

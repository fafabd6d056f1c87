import Maais.Security.SessionRuns
import Maais.Security.Throttle

/-!
# Logins

A login locks the throttle row for its whole transaction, but it took its time before that: a later
one may already have written the row, and an open session may already have been seen later.

* `LoginAct`, `step`  logins and session calls in any order;
* `Timely`  neither the row nor, for a right password, an open session is ahead of the request;
* `Sound.outcome`, `Sound.endsWell_iff`  a login returns exactly then, and raises `ValueError`
  otherwise;
* `logins_end_iff`  the same for every interleaving;
* `one_open_session`  only logins open sessions, and no two are ever open.
-/

namespace Maais
open Lib

/-- a login request: its time, what the password check finds, and the tokens it would be issued -/
structure LoginRequest where
  observedAt : Time
  valid : Bool
  sessionId : UUID
  tokenHash : Digest
  csrfHash : Digest

/-- `issue_session_tokens(...).to_request()` -/
def LoginRequest.toRequest (r : LoginRequest) : NewSessionRequest :=
  ⟨r.sessionId, r.tokenHash, r.csrfHash, "sole_operator", r.observedAt,
    r.observedAt + sessionAbsoluteTtl⟩

inductive LoginResponse
  | rejected
  | issued (session : OperatorSession)

structure LoginTables where
  auth : AuthRow
  sessions : SessionTable

namespace LoginTables

variable (db : LoginTables) (r : LoginRequest)

/-- `login`; the events it appends to the audit carry new ids -/
def login : Py (LoginTables × LoginResponse) := do
  let (found, updated) ← db.auth.check r.observedAt r.valid
  if found = .right then
    let revoked ← db.sessions.revokeAllActive r.observedAt
    let (sessions, session) ← revoked.issue r.toRequest
    return (⟨some updated, sessions⟩, .issued session)
  else return ({ db with auth := some updated }, .rejected)

end LoginTables

inductive LoginAct
  | login (request : LoginRequest)
  | session (act : SessionAct)

def LoginTables.step (db : LoginTables) : LoginAct → LoginTables
  | .login r => match db.login r with
    | .ok (db', _) => db'
    | .error _ => db
  | .session act => { db with sessions := db.sessions.step act }

namespace SessionTable

variable {table table' : SessionTable} {id : UUID} {t : Time}

/-! ## revoking every open session -/

theorem Sound.revoke_returns_iff (h : table.Sound) : (∃ r, table.revoke id t = .ok r) ↔
    ∃ s, table.get? id = some s ∧ (s.active → s.lastSeenAt ≤ t) := by
  simp only [h.revoke_eq_ok]
  constructor
  · rintro ⟨r, s, hs, ⟨hgone, -⟩ | ⟨-, hle, -⟩⟩
    · exact ⟨s, hs, fun hactive => absurd hactive hgone⟩
    · exact ⟨s, hs, fun _ => hle⟩
  · rintro ⟨s, hs, hle⟩
    by_cases hactive : s.active
    · exact ⟨_, s, hs, .inr ⟨hactive, hle hactive, rfl⟩⟩
    · exact ⟨_, s, hs, .inl ⟨hactive, rfl⟩⟩

theorem Sound.revoke_get?_ne (h : table.Sound) {r : SessionTable × OperatorSession}
    (hr : table.revoke id t = .ok r) {id' : UUID} (hne : id' ≠ id) :
    r.1.get? id' = table.get? id' := by
  obtain ⟨s, -, ⟨-, rfl⟩ | ⟨-, -, rfl⟩⟩ := h.revoke_eq_ok.mp hr
  · rfl
  · exact Dict.get?_set_of_ne table hne _

theorem Sound.revokeEach_returns_iff (h : table.Sound) {ids : List UUID} :
    (∃ table', revokeEach t table ids = .ok table') ↔ ∀ id ∈ ids, ∃ s, table.get? id = some s ∧
    (s.active → s.lastSeenAt ≤ t) := by
  induction ids generalizing table with
  | nil => exact iff_of_true ⟨table, rfl⟩ (List.forall_mem_nil _)
  | cons id ids ih =>
    simp only [revokeEach, List.foldlM_cons, bind_eq_ok, pure_ok_iff]
    constructor
    · rintro ⟨table', _, ⟨r, hr, rfl⟩, hrest⟩ id' hid'
      by_cases heq : id' = id
      · rw [heq]
        exact h.revoke_returns_iff.mp ⟨r, hr⟩
      · have hmem := (List.mem_cons.mp hid').resolve_left heq
        rw [← h.revoke_get?_ne hr heq]
        exact (ih (h.revoke_ends hr).1).mp ⟨table', hrest⟩ id' hmem
    · intro hall
      obtain ⟨r, hr⟩ := h.revoke_returns_iff.mpr (hall id List.mem_cons_self)
      have hrest : ∀ id' ∈ ids, ∃ s, r.1.get? id' = some s ∧ (s.active → s.lastSeenAt ≤ t) := by
        intro id' hid'
        obtain ⟨s, hs, hle⟩ := hall id' (List.mem_cons_of_mem id hid')
        obtain ⟨s', hs', rfl | ⟨-, u, -, rfl⟩⟩ := (h.revoke_ends hr).2.rows id' s hs
        · exact ⟨s', hs', hle⟩
        · exact ⟨_, hs', fun ha => by cases ha⟩
      obtain ⟨table', htable⟩ := (ih (h.revoke_ends hr).1).mpr hrest
      exact ⟨table', r.1, ⟨r, hr, rfl⟩, htable⟩

theorem Sound.revokeAllActive_returns_iff (h : table.Sound) :
    (∃ table', table.revokeAllActive t = .ok table') ↔ ∀ s ∈ table.values, s.active →
    s.lastSeenAt ≤ t := by
  rw [revokeAllActive, h.revokeEach_returns_iff]
  simp only [activeIds, List.mem_map, List.mem_filter, decide_eq_true_eq]
  constructor
  · intro hall s hs hactive
    obtain ⟨s', hs', hle⟩ := hall s.id ⟨s, ⟨hs, hactive⟩, rfl⟩
    rw [(h.get?_of_mem hs).1, Option.some.injEq] at hs'
    exact hs' ▸ hle (hs' ▸ hactive)
  · rintro hall _ ⟨s, ⟨hs, -⟩, rfl⟩
    exact ⟨s, (h.get?_of_mem hs).1, hall s hs⟩

theorem Sound.revokeEach_raises (h : table.Sound) {ids : List UUID}
    (hids : ∀ id ∈ ids, ∃ s, table.get? id = some s) {e : PyError}
    (he : revokeEach t table ids = .error e) :
    e = .valueError "session revocation cannot precede last activity" := by
  induction ids generalizing table with
  | nil => cases he
  | cons id ids ih =>
    obtain ⟨s, hs⟩ := hids id List.mem_cons_self
    by_cases hle : s.active → s.lastSeenAt ≤ t
    · obtain ⟨r, hr⟩ := h.revoke_returns_iff.mpr ⟨s, hs, hle⟩
      simp only [revokeEach, List.foldlM_cons, hr, ok_bind] at he
      refine ih (h.revoke_ends hr).1 (fun id' hid' => ?_) he
      obtain ⟨s', hs'⟩ := hids id' (List.mem_cons_of_mem id hid')
      obtain ⟨s'', hs'', -⟩ := (h.revoke_ends hr).2.rows id' s' hs'
      exact ⟨s'', hs''⟩
    · push Not at hle
      have hlocked := h.lockedSession.mpr hs
      have hrevoke : s.revoke t =
          .error (.valueError "session revocation cannot precede last activity") := by
        have hnone : s.revokedAt = none := hle.1
        rw [OperatorSession.revoke, if_neg (not_not.mpr hnone), raiseIf_bind_pos hle.2]
      simp only [revokeEach, List.foldlM_cons, revoke, hlocked, ok_bind, hrevoke] at he
      cases he
      rfl

end SessionTable

/-! ## one login -/

namespace LoginTables

variable {db db' : LoginTables} {r : LoginRequest}

def Sound (db : LoginTables) : Prop := db.auth.Sound ∧ db.sessions.Sound

/-- the tokens of a login are new: they come from the system's random source -/
structure Fresh (db : LoginTables) (r : LoginRequest) : Prop where
  hashes_ne : r.tokenHash ≠ r.csrfHash
  unused : ∀ s ∈ db.sessions.values, s.id ≠ r.sessionId ∧ s.tokenHash ≠ r.tokenHash ∧
    s.csrfHash ≠ r.csrfHash

def Timely (db : LoginTables) (r : LoginRequest) : Prop :=
  (db.auth.current r.observedAt).locked r.observedAt ∨
    (db.auth.current r.observedAt).updatedAt ≤ r.observedAt ∧
      (r.valid = true → ∀ s ∈ db.sessions.values, s.active → s.lastSeenAt ≤ r.observedAt)

instance Timely.decidable (db : LoginTables) (r : LoginRequest) : Decidable (db.Timely r) := by
  unfold Timely
  infer_instance

def issuedSession (r : LoginRequest) : OperatorSession :=
  ⟨r.sessionId, r.tokenHash, r.csrfHash, "sole_operator", r.observedAt, r.observedAt,
    r.observedAt + sessionAbsoluteTtl, none, 1⟩

theorem issuedSession_valid (h : r.tokenHash ≠ r.csrfHash) : (issuedSession r).Valid where
  hashes_ne := h
  actor_ok := by
    show ¬ (¬ isAscii "sole_operator" ∨ "sole_operator" ≠ strip "sole_operator" ∨
      ¬ (1 ≤ "sole_operator".length ∧ "sole_operator".length ≤ 64))
    decide +kernel
  ordered := ⟨le_rfl, by
    show r.observedAt ≤ r.observedAt + sessionAbsoluteTtl
    have : (0 : Time) ≤ sessionAbsoluteTtl := by decide
    linarith⟩
  ttl := rfl
  revoked_ge := nofun
  version_pos := le_rfl

theorem Fresh.issue {table : SessionTable} (hf : Fresh db r) (ht : table.Sound)
    (he : SessionTable.Ends db.sessions table) :
    table.issue r.toRequest = .ok (table.set r.sessionId (issuedSession r), issuedSession r) := by
  have hfree :
      table.values.find? (fun s => s.id = (issuedSession r).id ∨
      s.tokenHash = (issuedSession r).tokenHash ∨ s.csrfHash = (issuedSession r).csrfHash) =
      none := by
    refine List.find?_eq_none.mpr fun s hmem => ?_
    obtain ⟨hget, -⟩ := ht.get?_of_mem hmem
    have hold : ∃ s₀ ∈ db.sessions.values, s.id = s₀.id ∧ s.tokenHash = s₀.tokenHash ∧
        s.csrfHash = s₀.csrfHash := by
      cases h₀ : db.sessions.get? s.id with
      | none =>
        rw [he.none _ h₀] at hget
        cases hget
      | some s₀ =>
        obtain ⟨s', hs', heq⟩ := he.rows _ s₀ h₀
        rw [hget, Option.some.injEq] at hs'
        refine ⟨s₀, (Dict.mem_values_iff _).mpr ⟨_, h₀⟩, ?_⟩
        rcases heq with rfl | ⟨-, t, -, rfl⟩
        · rw [hs']
          exact ⟨rfl, rfl, rfl⟩
        · rw [hs']
          exact ⟨rfl, rfl, rfl⟩
    obtain ⟨s₀, hmem₀, hid, htoken, hcsrf⟩ := hold
    obtain ⟨h1, h2, h3⟩ := hf.unused s₀ hmem₀
    rw [decide_eq_true_iff, hid, htoken, hcsrf]
    rintro (h | h | h)
    · exact h1 h
    · exact h2 h
    · exact h3 h
  have hsession : r.toRequest.toSession = .ok (issuedSession r) :=
    (issuedSession_valid hf.hashes_ne).postInit
  rw [SessionTable.issue, hsession, ok_bind, hfree]
  rfl

inductive Outcome (db : LoginTables) (r : LoginRequest) : Prop
  | locked (hlock : (db.auth.current r.observedAt).locked r.observedAt)
    (heq : db.login r = .ok (db, .rejected))
  | counted (hopen : ¬ (db.auth.current r.observedAt).locked r.observedAt) (htimely : db.Timely r)
      (hwrong : r.valid = false)
      (heq : db.login r = .ok
        ({ db with auth := some (AuthRow.failed r.observedAt (db.auth.current r.observedAt)) },
        .rejected))
  | issued (hopen : ¬ (db.auth.current r.observedAt).locked r.observedAt) (htimely : db.Timely r)
      (hright : r.valid = true) (db' : LoginTables) (hsound : db'.Sound)
      (hget : db'.sessions.get? r.sessionId = some (issuedSession r))
      (heq : db.login r = .ok (db', .issued (issuedSession r)))
  | raised (huntimely : ¬ db.Timely r) (message : String)
    (heq : db.login r = .error (.valueError message))

theorem Sound.outcome (h : db.Sound) (hf : Fresh db r) : Outcome db r := by
  by_cases hlock : (db.auth.current r.observedAt).locked r.observedAt
  · refine .locked hlock ?_
    rw [login, AuthRow.check_blocked h.1 hlock, ok_bind]
    simp only [← AuthRow.locked_eq_some hlock]
    rfl
  have hcheck := AuthRow.check_open h.1 hlock r.valid
  by_cases hearly : r.observedAt < (db.auth.current r.observedAt).updatedAt
  · -- a later login already wrote the row
    refine .raised ?_ "login observation cannot precede durable throttle state" ?_
    · rintro (hlocked | ⟨hle, -⟩)
      · exact hlock hlocked
      · exact absurd hle (not_le.mpr hearly)
    · rw [login, hcheck, if_pos hearly]
      rfl
  have hle := not_lt.mp hearly
  rw [if_neg hearly] at hcheck
  cases hright : r.valid with
  | false =>
    refine .counted hlock (.inr ⟨hle, fun h => by rw [hright] at h; cases h⟩) hright ?_
    rw [login, hcheck, hright]
    rfl
  | true =>
    rw [hright, if_pos rfl] at hcheck
    have hlogin : db.login r = do
        let revoked ← db.sessions.revokeAllActive r.observedAt
        let (sessions, session) ← revoked.issue r.toRequest
        return (⟨some ⟨0, none, none, r.observedAt, (db.auth.current r.observedAt).version + 1⟩,
          sessions⟩, .issued session) := by
      rw [login, hright, hcheck]
      rfl
    cases hrevoke : db.sessions.revokeAllActive r.observedAt with
    | error e =>
      refine .raised ?_ "session revocation cannot precede last activity" ?_
      · rintro (hlocked | ⟨-, hall⟩)
        · exact hlock hlocked
        · obtain ⟨table, htable⟩ := h.2.revokeAllActive_returns_iff.mpr (hall hright)
          rw [htable] at hrevoke
          cases hrevoke
      · have hids : ∀ id ∈ db.sessions.activeIds, ∃ s, db.sessions.get? id = some s := by
          intro id hid
          obtain ⟨s, hs, rfl⟩ := List.mem_map.mp hid
          exact ⟨s, (h.2.get?_of_mem (List.mem_filter.mp hs).1).1⟩
        rw [hlogin, hrevoke, h.2.revokeEach_raises hids hrevoke]
        rfl
    | ok table =>
      obtain ⟨ht, he⟩ := h.2.revokeEach_ends db.sessions.activeIds hrevoke
      have hissue := hf.issue ht he
      have hv := issuedSession_valid hf.hashes_ne
      refine .issued hlock
        (.inr ⟨hle, fun _ => h.2.revokeAllActive_returns_iff.mp ⟨table, hrevoke⟩⟩) hright
          ⟨some ⟨0, none, none, r.observedAt, (db.auth.current r.observedAt).version + 1⟩,
          table.set r.sessionId (issuedSession r)⟩ ⟨?_, ht.set (s := issuedSession r) hv⟩
        (Dict.get?_set_self table _ _) ?_
      · intro s hs
        cases hs
        exact OperatorAuthState.cleared_valid _ _
      · rw [hlogin, hrevoke, ok_bind, hissue]
        rfl

/-! ## every interleaving -/

/-- the login ends with a refusal or with a new open session, and a wrong password that was looked
at is one failure more than before; the count starts again at one only when the stored window is
over -/
def EndsWell (db : LoginTables) : LoginAct → Prop
  | .login r => ∃ db' response, db.login r = .ok (db', response) ∧
      (response = .rejected ∨ ∃ s, response = .issued s ∧ db.sessions.get? s.id = none ∧
        db'.sessions.get? s.id = some s ∧ s.active) ∧
      (r.valid = false → ¬ (db.auth.current r.observedAt).locked r.observedAt →
        ∃ u, db'.auth = some u ∧ u.version = (db.auth.current r.observedAt).version + 1 ∧
        (u.failedAttempts = (db.auth.current r.observedAt).failedAttempts + 1 ∨
          u.failedAttempts = 1 ∧
            ∃ started ∈ (db.auth.current r.observedAt).windowStartedAt,
            started + loginWindow ≤ r.observedAt))
  | .session _ => True

def FreshAct (db : LoginTables) : LoginAct → Prop
  | .login r => db.Fresh r
  | .session _ => True

def TimelyAct (db : LoginTables) : LoginAct → Prop
  | .login r => db.Timely r
  | .session _ => True

instance TimelyAct.decidable (db : LoginTables) : ∀ act, Decidable (db.TimelyAct act)
  | .login r => inferInstanceAs (Decidable (db.Timely r))
  | .session _ => .isTrue trivial

theorem Fresh.get?_eq_none (hf : Fresh db r) (h : db.sessions.Sound) :
    db.sessions.get? r.sessionId = none := by
  cases hget : db.sessions.get? r.sessionId with
  | none => rfl
  | some s =>
    have hmem : s ∈ db.sessions.values := (Dict.mem_values_iff _).mpr ⟨_, hget⟩
    exact absurd (h _ s hget).1 (hf.unused s hmem).1

theorem Sound.endsWell_iff (h : db.Sound) (hf : Fresh db r) : EndsWell db (.login r) ↔
    db.Timely r := by
  cases h.outcome hf with
  | locked hlock heq =>
    exact iff_of_true ⟨db, .rejected, heq, .inl rfl, fun _ hopen => absurd hlock hopen⟩ (.inl hlock)
  | counted hopen htimely hwrong heq =>
    exact iff_of_true ⟨_, .rejected, heq, .inl rfl, fun _ _ =>
      ⟨_, rfl, rfl, AuthRow.failed_counts (h.1.current r.observedAt) r.observedAt⟩⟩ htimely
  | issued hopen htimely hright db' hsound hget heq =>
    refine iff_of_true ⟨db', _, heq, .inr ⟨_, rfl, hf.get?_eq_none h.2, hget, rfl⟩,
      fun hwrong => ?_⟩ htimely
    rw [hright] at hwrong
    cases hwrong
  | raised huntimely message heq =>
    refine iff_of_false ?_ huntimely
    rintro ⟨db', response, hok, -⟩
    rw [heq] at hok
    cases hok

theorem Sound.step (h : db.Sound) (act : LoginAct) (hf : FreshAct db act) :
    Sound (db.step act) := by
  cases act with
  | session act => exact ⟨h.1, h.2.step act⟩
  | login r =>
    show Sound (match db.login r with | .ok (db', _) => db' | .error _ => db)
    cases h.outcome hf with
    | locked hlock heq => rwa [heq]
    | counted hopen htimely hwrong heq =>
      rw [heq]
      refine ⟨fun s hs => ?_, h.2⟩
      cases hs
      rcases htimely with hlock | ⟨hle, -⟩
      · exact absurd hlock hopen
      · exact AuthRow.failed_valid (h.1.current _) hle hopen
    | issued hopen htimely hright db' hsound hget heq => rwa [heq]
    | raised huntimely message heq => rwa [heq]

def start : LoginTables := ⟨none, .empty⟩

theorem start_sound : Sound start := ⟨nofun, SessionTable.sound_empty⟩

/-- **in every interleaving of logins and session calls the logins end well exactly when each of
them reaches the row before a later one wrote it, and before an open session was seen later** -/
theorem logins_end_iff (acts : List LoginAct) (hfresh : AllSteps step FreshAct start acts) :
    AllSteps step EndsWell start acts ↔ AllSteps step TimelyAct start acts := by
  refine AllSteps.congr step (I := Sound) (fun db act h hf => h.step act hf) ?_ start_sound hfresh
  intro db act h hf
  cases act with
  | login r => exact h.endsWell_iff hf
  | session act => exact Iff.rfl

end LoginTables

/-! ## one open session -/

namespace SessionTable

variable {table table' : SessionTable} {id : UUID} {t : Time}

def OneOpen (table : SessionTable) : Prop :=
  ∀ id id' s s', table.get? id = some s → table.get? id' = some s' → s.active → s'.active → id = id'

theorem OneOpen.of_rows (h : table.OneOpen)
    (hrows : ∀ id s', table'.get? id = some s' → s'.active →
    ∃ s, table.get? id = some s ∧ s.active) :
    table'.OneOpen := by
  intro id id' s s' hs hs' ha ha'
  obtain ⟨r, hr, hopen⟩ := hrows id s hs ha
  obtain ⟨r', hr', hopen'⟩ := hrows id' s' hs' ha'
  exact h id id' r r' hr hr' hopen hopen'

theorem Ends.open_before (h : Ends table table') {s : OperatorSession}
    (hs : table'.get? id = some s) (ha : s.active) : table.get? id = some s := by
  cases hold : table.get? id with
  | none =>
    rw [h.none id hold] at hs
    cases hs
  | some r =>
    obtain ⟨r', hr', rfl | ⟨-, u, -, rfl⟩⟩ := h.rows id r hold
    · rw [← hr', hs]
    · rw [hr', Option.some.injEq] at hs
      subst hs
      cases ha

theorem Sound.revokeEach_closes (h : table.Sound) {ids : List UUID}
    (hr : revokeEach t table ids = .ok table') {s : OperatorSession} (hid : id ∈ ids)
    (hs : table'.get? id = some s) : ¬ s.active := by
  induction ids generalizing table with
  | nil => cases hid
  | cons id₀ ids ih =>
    simp only [revokeEach, List.foldlM_cons, bind_eq_ok, pure_ok_iff] at hr
    obtain ⟨_, ⟨r, hr₀, rfl⟩, hrest⟩ := hr
    obtain ⟨hsound, -⟩ := h.revoke_ends hr₀
    rcases List.mem_cons.mp hid with rfl | hid
    · intro ha
      have hback := (hsound.revokeEach_ends ids hrest).2.open_before hs ha
      obtain ⟨s₀, hs₀, ⟨hgone, rfl⟩ | ⟨-, -, rfl⟩⟩ := h.revoke_eq_ok.mp hr₀
      · rw [hs₀, Option.some.injEq] at hback
        exact hgone (hback ▸ ha)
      · rw [Dict.get?_set_self, Option.some.injEq] at hback
        subst hback
        cases ha
    · exact ih hsound hrest hid

theorem Sound.revokeAllActive_closes (h : table.Sound) (hr : table.revokeAllActive t = .ok table')
    {s : OperatorSession} (hs : table'.get? id = some s) : ¬ s.active := by
  intro ha
  have hback := (h.revokeEach_ends table.activeIds hr).2.open_before hs ha
  refine h.revokeEach_closes hr ?_ hs ha
  rw [activeIds, List.mem_map]
  refine ⟨s, List.mem_filter.mpr ⟨table.mem_values_iff.mpr ⟨id, hback⟩, decide_eq_true ha⟩, ?_⟩
  exact (h id s hback).1

theorem Sound.oneOpen_step (h : table.Sound) (hone : table.OneOpen) (act : SessionAct)
    (hissue : ∀ request, act = .issue request → ∀ id s, table.get? id = some s → ¬ s.active) :
    OneOpen (table.step act) := by
  cases effect h act with
  | idle heq => rwa [heq]
  | issued request s₀ hact _ _ _ _ heq =>
    have honly : ∀ id s, (table.step act).get? id = some s → s.active → id = s₀.id := by
      intro id s hs ha
      by_contra hne
      rw [heq, Dict.get?_set_of_ne table hne] at hs
      exact hissue request hact id s hs ha
    intro id id' s s' hs hs' ha ha'
    rw [honly id s hs ha, honly id' s' hs' ha']
  | request s s' t hs hacc _ heq =>
    refine hone.of_rows fun id r hr ha => ?_
    rw [heq, Dict.get?_set] at hr
    split at hr
    · rename_i hid
      exact ⟨s, hid ▸ hs, hacc.active⟩
    · exact ⟨r, hr, ha⟩
  | revoked hends => exact hone.of_rows fun id r hr ha => ⟨r, hends.open_before hr ha, ha⟩

end SessionTable

namespace LoginTables

variable {db : LoginTables} {r : LoginRequest}

theorem login_sessions {out : LoginTables × LoginResponse} (h : db.login r = .ok out) :
    out.1.sessions = db.sessions ∨ ∃ revoked session, db.sessions.revokeAllActive r.observedAt =
      .ok revoked ∧ revoked.issue r.toRequest = .ok (out.1.sessions, session) := by
  simp only [login, bind_eq_ok] at h
  obtain ⟨found, _, h⟩ := h
  split at h
  · simp only [bind_eq_ok, pure_ok_iff] at h
    obtain ⟨revoked, hr, issued, hi, rfl⟩ := h
    exact Or.inr ⟨revoked, issued.2, hr, hi⟩
  · simp only [pure_ok_iff] at h
    cases h
    exact Or.inl rfl

theorem oneOpen_step (h : db.sessions.Sound ∧ db.sessions.OneOpen) (act : LoginAct)
    (hissue : ∀ request, act ≠ .session (.issue request)) :
    (db.step act).sessions.Sound ∧ (db.step act).sessions.OneOpen := by
  cases act with
  | session act =>
    refine ⟨h.1.step act, h.1.oneOpen_step h.2 act fun request hact => ?_⟩
    exact absurd (congrArg LoginAct.session hact) (hissue request)
  | login r =>
    cases hlogin : db.login r with
    | error e =>
      have hstep : db.step (.login r) = db := by rw [LoginTables.step, hlogin]
      rwa [hstep]
    | ok out =>
      have hstep : db.step (.login r) = out.1 := by rw [LoginTables.step, hlogin]
      rw [hstep]
      obtain heq | ⟨revoked, session, hr, hi⟩ := login_sessions hlogin
      · rwa [heq]
      · obtain ⟨hsound, hends⟩ := h.1.revokeEach_ends db.sessions.activeIds hr
        have hissued : revoked.step (.issue r.toRequest) = out.1.sessions := by
          apply SessionTable.step_ok
          rw [SessionTable.call, hi]
          rfl
        rw [← hissued]
        refine ⟨hsound.step _, hsound.oneOpen_step ?_ _ fun _ _ id s hs =>
          h.1.revokeAllActive_closes hr hs⟩
        exact h.2.of_rows fun id s hs ha => ⟨s, hends.open_before hs ha, ha⟩

/-- **there is never a second open session**: sessions are opened by logins only, and each closes
the one before -/
theorem one_open_session (acts : List LoginAct)
    (hissue : AllSteps step (fun _ act => ∀ request, act ≠ .session (.issue request)) start acts) :
    (Lib.run step start acts).sessions.OneOpen :=
  (run_inv_of step (I := fun db => db.sessions.Sound ∧ db.sessions.OneOpen)
    (fun _ act h hact => oneOpen_step h act hact)
    ⟨SessionTable.sound_empty, fun _ _ _ _ h => by cases h⟩ hissue).2

end LoginTables

namespace Demo

def loginRequest (n : Nat) (observedAt : Time) (valid : Bool) : LoginRequest :=
  ⟨observedAt, valid, ⟨"session-" ++ toString n⟩, ⟨"token-" ++ toString n⟩, ⟨"csrf-" ++ toString n⟩⟩

open LoginTables

/-- two wrong passwords, the earlier one second to lock the row -/
def lateWrong : List LoginAct :=
  [.login (loginRequest 1 2000000 false), .login (loginRequest 2 1000000 false)]

/-- the second raises out of its transaction and is not counted -/
theorem lateWrong_uncounted :
    ¬ AllSteps step EndsWell start lateWrong ∧
    (Lib.run step start (lateWrong.take 1)).login (loginRequest 2 1000000 false) =
      .error (.valueError "login observation cannot precede durable throttle state") ∧
    (Lib.run step start lateWrong).auth.map (·.failedAttempts) = some 1 := by
  have hraised : (Lib.run step start (lateWrong.take 1)).login (loginRequest 2 1000000 false) =
      .error (.valueError "login observation cannot precede durable throttle state") := rfl
  refine ⟨?_, hraised, rfl⟩
  rintro ⟨-, ⟨db', response, hok, -⟩, -⟩
  have hboth := hraised.symm.trans hok
  cases hboth

def inOrderLogins : List LoginAct :=
  [.login (loginRequest 1 1000000 false), .login (loginRequest 2 2000000 true)]

theorem inOrderLogins_end : AllSteps step EndsWell start inOrderLogins :=
  (logins_end_iff inOrderLogins ⟨⟨by decide, nofun⟩, ⟨by decide, nofun⟩, trivial⟩).mpr
    ⟨by decide +kernel, by decide +kernel, trivial⟩

def twoLogins : List LoginAct :=
  [.login (loginRequest 1 1000000 true), .session (.authenticate ⟨"token-1"⟩ 2000000),
    .login (loginRequest 2 3000000 true)]

theorem twoLogins_one_open :
    (Lib.run step start twoLogins).sessions.keys = [⟨"session-1"⟩, ⟨"session-2"⟩] ∧
      (Lib.run step start twoLogins).sessions.OneOpen := by
  refine ⟨by decide +kernel, one_open_session twoLogins ⟨?_, ?_, ?_, trivial⟩⟩ <;>
    intro request h <;> cases h

end Demo

end Maais

import Maais.Domain
import Maais.Lib.Dict
import Maais.Lib.Run

/-!
# Operator sessions

A session lives for twelve hours and for thirty minutes after its last activity. Every call takes
its time before it locks its row, so that the times may reach a row out of order.

* `SessionAct`, `step`  a call as one transaction, rolled back when it raises;
* `Sound`, `authenticate_eq_ok`, `rotate_ok`, `revoke_eq_ok`  what each call does to a sound table.
-/

namespace Maais
open Lib

def sessionAbsoluteTtl : Time := 43200000000
def sessionIdleTtl : Time := 1800000000

structure OperatorSession where
  id : UUID
  tokenHash : Digest
  csrfHash : Digest
  actor : String
  createdAt : Time
  lastSeenAt : Time
  expiresAt : Time
  revokedAt : Option Time
  version : Nat
deriving DecidableEq

namespace OperatorSession

variable (s : OperatorSession)

/-- `__post_init__`; the hashes are digests by their type -/
def postInit : Py OperatorSession := do
  raiseIf (s.tokenHash = s.csrfHash)
    (.valueError "session and CSRF token hashes must be independent")
  raiseIf (¬ isAscii s.actor ∨ s.actor ≠ strip s.actor ∨
    ¬ (1 ≤ s.actor.length ∧ s.actor.length ≤ 64))
    (.valueError "session actor must be 1-64 trimmed ASCII characters")
  raiseIf (¬ (s.createdAt ≤ s.lastSeenAt ∧ s.lastSeenAt ≤ s.expiresAt))
    (.valueError "session timestamps are out of order")
  raiseIf (s.expiresAt ≠ s.createdAt + sessionAbsoluteTtl)
    (.valueError "session absolute TTL must remain fixed at 12 hours")
  raiseIf (∃ t ∈ s.revokedAt, t < s.lastSeenAt)
    (.valueError "session revocation cannot precede last activity")
  raiseIf (s.version < 1) (.valueError "session version must be positive")
  return s

def active : Prop := s.revokedAt = none

instance active.decidable : Decidable s.active := inferInstanceAs (Decidable (s.revokedAt = none))

def revoke (revokedAt : Time) : Py OperatorSession :=
  if s.revokedAt ≠ none then return s
  else do
    raiseIf (revokedAt < s.lastSeenAt)
      (.valueError "session revocation cannot precede last activity")
    postInit { s with revokedAt := some revokedAt, version := s.version + 1 }

def terminalAt : Time := min s.expiresAt (s.lastSeenAt + sessionIdleTtl)

def seen (observedAt : Time) : OperatorSession :=
  { s with lastSeenAt := observedAt, version := s.version + 1 }

end OperatorSession

/-- `require_authenticatable_session` -/
def requireAuthenticatable (session : Option OperatorSession) (observedAt : Time) :
    Py OperatorSession :=
  match session with
  | none => .error (.sessionAuthenticationError "invalid_session" none none)
  | some s => do
    raiseIf (¬ s.active) (.sessionAuthenticationError "session_revoked" (some s.id) s.revokedAt)
    raiseIf (observedAt ≥ s.terminalAt)
      (.sessionAuthenticationError "session_expired" (some s.id) (some s.terminalAt))
    return s

structure NewSessionRequest where
  id : UUID
  tokenHash : Digest
  csrfHash : Digest
  actor : String
  createdAt : Time
  expiresAt : Time

def NewSessionRequest.toSession (r : NewSessionRequest) : Py OperatorSession :=
  OperatorSession.postInit
    { id := r.id, tokenHash := r.tokenHash, csrfHash := r.csrfHash, actor := r.actor,
      createdAt := r.createdAt
      lastSeenAt := r.createdAt, expiresAt := r.expiresAt, revokedAt := none, version := 1 }

/-! ## the repository -/

/-- `operator_sessions` -/
abbrev SessionTable := Dict UUID OperatorSession

namespace SessionTable

variable (table : SessionTable)

/-- the row of a token hash, a unique column -/
def byToken (tokenHash : Digest) : Option OperatorSession :=
  table.values.find? (fun s => s.tokenHash = tokenHash)

/-- `_locked_session` and `_session_from_row` -/
def lockedSession (id : UUID) : Py OperatorSession := do
  let row ← orRaise (table.get? id) (.sessionAuthenticationError "invalid_session" none none)
  row.postInit

def issue (request : NewSessionRequest) : Py (SessionTable × OperatorSession) := do
  let candidate ← request.toSession
  match table.values.find? (fun s => s.id = candidate.id ∨ s.tokenHash = candidate.tokenHash ∨
      s.csrfHash = candidate.csrfHash) with
  | none => return (table.set candidate.id candidate, candidate)
  | some row => do
    let restored ← row.postInit
    raiseIf (restored ≠ candidate)
      (.sessionConflict "operator session identifier or token hash conflicts")
    return (table, candidate)

def presented (tokenHash : Digest) : Py (Option OperatorSession) :=
  match table.byToken tokenHash with
  | none => return none
  | some row => do
    let current ← row.postInit
    return some current

def authenticate (tokenHash : Digest)
    (observedAt : Time) : Py (SessionTable × OperatorSession) := do
  let current ← table.presented tokenHash
  let authenticated ← requireAuthenticatable current observedAt
  let updated ← (authenticated.seen observedAt).postInit
  return (table.set updated.id updated, updated)

/-- the stored session a rotation was prepared from is not this one any more -/
def staleRotation (candidate current : OperatorSession) : Prop :=
  candidate.actor ≠ current.actor ∨ candidate.createdAt ≠ current.createdAt ∨
    candidate.expiresAt ≠ current.expiresAt ∨ candidate.revokedAt ≠ none ∨
    candidate.version ≠ current.version + 1 ∨ candidate.lastSeenAt < current.lastSeenAt

instance staleRotation.decidable (candidate current : OperatorSession) :
    Decidable (staleRotation candidate current) := by
  unfold staleRotation
  infer_instance

def rotate (candidate : OperatorSession) : Py (SessionTable × OperatorSession) := do
  let current ← table.lockedSession candidate.id
  let _ ← requireAuthenticatable (some current) candidate.lastSeenAt
  raiseIf (staleRotation candidate current ∨ candidate.tokenHash = current.tokenHash ∨
      candidate.csrfHash = current.csrfHash)
    (.sessionConflict "session rotation evidence is stale or invalid")
  raiseIf (∃ s ∈ table.values, s.id ≠ candidate.id ∧
      (s.tokenHash = candidate.tokenHash ∨ s.csrfHash = candidate.csrfHash))
    (.sessionConflict "session rotation token hash conflicts")
  return (table.set candidate.id { current with
    tokenHash := candidate.tokenHash, csrfHash := candidate.csrfHash,
      lastSeenAt := candidate.lastSeenAt
    version := candidate.version }, candidate)

def rotateCsrf (candidate : OperatorSession) : Py (SessionTable × OperatorSession) := do
  let current ← table.lockedSession candidate.id
  let _ ← requireAuthenticatable (some current) candidate.lastSeenAt
  raiseIf (staleRotation candidate current ∨ candidate.tokenHash ≠ current.tokenHash ∨
      candidate.csrfHash = current.csrfHash)
    (.sessionConflict "CSRF rotation evidence is stale or invalid")
  raiseIf (∃ s ∈ table.values, s.id ≠ candidate.id ∧ s.csrfHash = candidate.csrfHash)
    (.sessionConflict "CSRF rotation token hash conflicts")
  return (table.set candidate.id { current with
    csrfHash := candidate.csrfHash, lastSeenAt := candidate.lastSeenAt,
      version := candidate.version }, candidate)

def revoke (id : UUID) (revokedAt : Time) : Py (SessionTable × OperatorSession) := do
  let current ← table.lockedSession id
  let updated ← current.revoke revokedAt
  return (table.set id updated, updated)

/-- the loop of `revoke_all_active` over the ids of the active rows -/
def revokeEach (revokedAt : Time) (table : SessionTable) (ids : List UUID) : Py SessionTable :=
  ids.foldlM (fun table id => return (← table.revoke id revokedAt).1) table

def activeIds : List UUID := (table.values.filter (fun s => s.active)).map (·.id)

def revokeAllActive (revokedAt : Time) : Py SessionTable :=
  revokeEach revokedAt table table.activeIds

end SessionTable

/-! ## calls -/

inductive SessionAct
  | issue (request : NewSessionRequest)
  | authenticate (tokenHash : Digest) (observedAt : Time)
  /-- with the session the caller prepared from an earlier read -/
  | rotate (candidate : OperatorSession)
  | rotateCsrf (candidate : OperatorSession)
  | revoke (id : UUID) (revokedAt : Time)
  | revokeAllActive (revokedAt : Time)

namespace SessionTable

variable (table : SessionTable)

def call : SessionAct → Py SessionTable
  | .issue request => return (← table.issue request).1
  | .authenticate tokenHash observedAt => return (← table.authenticate tokenHash observedAt).1
  | .rotate candidate => do
    let candidate ← candidate.postInit
    return (← table.rotate candidate).1
  | .rotateCsrf candidate => do
    let candidate ← candidate.postInit
    return (← table.rotateCsrf candidate).1
  | .revoke id revokedAt => return (← table.revoke id revokedAt).1
  | .revokeAllActive revokedAt => table.revokeAllActive revokedAt

def step (act : SessionAct) : SessionTable :=
  match table.call act with
  | .ok table' => table'
  | .error _ => table

end SessionTable

/-! ## valid sessions -/

namespace OperatorSession

structure Valid (s : OperatorSession) : Prop where
  hashes_ne : s.tokenHash ≠ s.csrfHash
  actor_ok :
    ¬ (¬ isAscii s.actor ∨ s.actor ≠ strip s.actor ∨ ¬ (1 ≤ s.actor.length ∧ s.actor.length ≤ 64))
  ordered : s.createdAt ≤ s.lastSeenAt ∧ s.lastSeenAt ≤ s.expiresAt
  ttl : s.expiresAt = s.createdAt + sessionAbsoluteTtl
  revoked_ge : ∀ t ∈ s.revokedAt, s.lastSeenAt ≤ t
  version_pos : 1 ≤ s.version

variable {s s' : OperatorSession} {t : Time}

theorem postInit_eq_ok : s.postInit = .ok s' ↔ s.Valid ∧ s' = s := by
  simp only [postInit, bind_eq_ok, raiseIf_eq_ok, pure_ok_iff]
  constructor
  · rintro ⟨_, h1, _, h2, _, h3, _, h4, _, h5, _, h6, rfl⟩
    exact ⟨⟨h1, h2, not_not.mp h3, not_not.mp h4, fun t ht => not_lt.mp fun hlt => h5 ⟨t, ht, hlt⟩,
      not_lt.mp h6⟩, rfl⟩
  · rintro ⟨h, rfl⟩
    exact ⟨(), h.hashes_ne, (), h.actor_ok, (), not_not.mpr h.ordered, (), not_not.mpr h.ttl, (),
      fun ⟨t, ht, hlt⟩ => absurd (h.revoked_ge t ht) (not_le.mpr hlt), (),
      not_lt.mpr h.version_pos, rfl⟩

theorem Valid.postInit (h : s.Valid) : s.postInit = .ok s := postInit_eq_ok.mpr ⟨h, rfl⟩

theorem Valid.seen_iff (h : s.Valid) (hopen : s.active) (hlt : t < s.terminalAt) :
    (s.seen t).Valid ↔ s.createdAt ≤ t := by
  constructor
  · exact fun hv => hv.ordered.1
  · intro hle
    have hexp : t ≤ s.expiresAt := hlt.le.trans (min_le_left _ _)
    have hnone : (s.seen t).revokedAt = none := hopen
    refine ⟨h.hashes_ne, h.actor_ok, ⟨hle, hexp⟩, h.ttl,
      fun u hu => ?_, Nat.le_add_left 1 s.version⟩
    rw [hnone] at hu
    cases hu

end OperatorSession

theorem requireAuthenticatable_eq_ok {session : Option OperatorSession} {t : Time}
    {s : OperatorSession} : requireAuthenticatable session t = .ok s ↔ session = some s ∧ s.active ∧
    t < s.terminalAt := by
  cases session with
  | none => exact iff_of_false nofun nofun
  | some s' =>
    simp only [requireAuthenticatable, bind_eq_ok, raiseIf_eq_ok, pure_ok_iff, not_not, ge_iff_le,
      not_le, Option.some.injEq]
    constructor
    · rintro ⟨_, hactive, _, hlt, rfl⟩
      exact ⟨rfl, hactive, hlt⟩
    · rintro ⟨rfl, hactive, hlt⟩
      exact ⟨(), hactive, (), hlt, rfl⟩

namespace SessionTable

variable {table table' : SessionTable} {id : UUID} {s : OperatorSession} {t : Time}

/-- every row is a session its constructor accepts, under its own id -/
def Sound (table : SessionTable) : Prop := ∀ id s, table.get? id = some s → s.id = id ∧ s.Valid

theorem Sound.set (h : table.Sound) (hv : s.Valid) : Sound (table.set s.id s) :=
  table.forall_set h ⟨rfl, hv⟩

theorem Sound.get?_of_mem (h : table.Sound) (hs : s ∈ table.values) :
    table.get? s.id = some s ∧ s.Valid := by
  obtain ⟨id, hid⟩ := (Dict.mem_values_iff table).mp hs
  obtain ⟨rfl, hv⟩ := h id s hid
  exact ⟨hid, hv⟩

theorem Sound.byToken (h : table.Sound) {tokenHash : Digest}
    (hs : table.byToken tokenHash = some s) : table.get? s.id = some s ∧ s.Valid :=
  h.get?_of_mem (List.mem_of_find?_eq_some hs)

theorem Sound.lockedSession (h : table.Sound) : table.lockedSession id = .ok s ↔
    table.get? id = some s := by
  simp only [SessionTable.lockedSession, bind_eq_ok, orRaise_eq_ok, OperatorSession.postInit_eq_ok]
  constructor
  · rintro ⟨row, hrow, -, rfl⟩
    exact hrow
  · exact fun hrow => ⟨s, hrow, (h id s hrow).2, rfl⟩

/-- an accepted activity: an open session seen before its end, and not before its creation -/
structure Accepts (s : OperatorSession) (t : Time) : Prop where
  active : s.active
  before_end : t < s.terminalAt
  after_start : s.createdAt ≤ t

variable {r : SessionTable × OperatorSession}

theorem Sound.authenticate_eq_ok (h : table.Sound) {tokenHash : Digest} :
    table.authenticate tokenHash t = .ok r ↔
      ∃ s, table.byToken tokenHash = some s ∧ Accepts s t ∧
      r = (table.set s.id (s.seen t), s.seen t) := by
  simp only [SessionTable.authenticate, bind_eq_ok, requireAuthenticatable_eq_ok,
    OperatorSession.postInit_eq_ok, pure_ok_iff]
  constructor
  · rintro ⟨current, hcurrent, s, ⟨rfl, hactive, hlt⟩, updated, ⟨hv, rfl⟩, rfl⟩
    have hby : table.byToken tokenHash = some s := by
      unfold presented at hcurrent
      split at hcurrent
      · cases hcurrent
      case h_2 row hrow =>
        simp only [bind_eq_ok, OperatorSession.postInit_eq_ok, pure_ok_iff, Option.some.injEq]
          at hcurrent
        obtain ⟨_, ⟨-, rfl⟩, rfl⟩ := hcurrent
        exact hrow
    exact ⟨s, hby, ⟨hactive, hlt, ((h.byToken hby).2.seen_iff hactive hlt).mp hv⟩, rfl⟩
  · rintro ⟨s, hby, hacc, rfl⟩
    have hv := (h.byToken hby).2
    refine ⟨some s, ?_, s, ⟨rfl, hacc.active, hacc.before_end⟩, s.seen t,
      ⟨(hv.seen_iff hacc.active hacc.before_end).mpr hacc.after_start, rfl⟩, rfl⟩
    rw [presented, hby]
    simp only [hv.postInit, ok_bind]
    rfl

def rotated (s : OperatorSession) (tokenHash csrfHash : Digest) (t : Time) : OperatorSession :=
  { s.seen t with tokenHash := tokenHash, csrfHash := csrfHash }

/-- what a rotation checks: an accepted activity, not before the last one -/
structure Rotates (s candidate : OperatorSession) : Prop where
  active : s.active
  before_end : candidate.lastSeenAt < s.terminalAt
  after_last : s.lastSeenAt ≤ candidate.lastSeenAt

variable {candidate : OperatorSession}

theorem Rotates.accepts (h : Rotates s candidate) (hv : s.Valid) :
    Accepts s candidate.lastSeenAt := ⟨h.active, h.before_end, hv.ordered.1.trans h.after_last⟩

theorem not_stale (h : ¬ staleRotation candidate s) :
    candidate.actor = s.actor ∧ candidate.createdAt = s.createdAt ∧
      candidate.expiresAt = s.expiresAt ∧ candidate.revokedAt = none ∧
      candidate.version = s.version + 1 ∧ s.lastSeenAt ≤ candidate.lastSeenAt := by
  simpa only [staleRotation, not_or, not_not, ne_eq, not_lt] using h

theorem rotated_valid (hv : s.Valid) (hc : candidate.Valid) (hr : Rotates s candidate) :
    (rotated s candidate.tokenHash candidate.csrfHash candidate.lastSeenAt).Valid := by
  have hseen := (hv.seen_iff hr.active hr.before_end).mpr (hr.accepts hv).after_start
  exact ⟨hc.hashes_ne, hseen.actor_ok, hseen.ordered, hseen.ttl, hseen.revoked_ge,
    hseen.version_pos⟩

theorem Sound.rotate_ok (h : table.Sound) (hr : table.rotate candidate = .ok r) :
    ∃ s, table.get? candidate.id = some s ∧ Rotates s candidate ∧ r.1 = table.set candidate.id
      (rotated s candidate.tokenHash candidate.csrfHash candidate.lastSeenAt) := by
  simp only [SessionTable.rotate, bind_eq_ok, h.lockedSession, requireAuthenticatable_eq_ok,
    raiseIf_eq_ok, pure_eq_ok, Except.ok.injEq, Option.some.injEq] at hr
  obtain ⟨s, hs, _, ⟨rfl, hactive, hlt⟩, _, hstale, _, -, rfl⟩ := hr
  obtain ⟨-, -, -, -, hversion, hle⟩ := not_stale (not_or.mp hstale).1
  refine ⟨s, hs, ⟨hactive, hlt, hle⟩, ?_⟩
  rw [hversion]
  rfl

theorem Sound.rotateCsrf_ok (h : table.Sound) (hr : table.rotateCsrf candidate = .ok r) :
    ∃ s, table.get? candidate.id = some s ∧ Rotates s candidate ∧ r.1 = table.set candidate.id
      (rotated s candidate.tokenHash candidate.csrfHash candidate.lastSeenAt) := by
  simp only [SessionTable.rotateCsrf, bind_eq_ok, h.lockedSession, requireAuthenticatable_eq_ok,
    raiseIf_eq_ok, pure_ok_iff, Option.some.injEq] at hr
  obtain ⟨s, hs, _, ⟨rfl, hactive, hlt⟩, _, hstale, _, -, rfl⟩ := hr
  obtain ⟨hstale', htoken, -⟩ := not_or.mp hstale |>.imp id not_or.mp
  obtain ⟨-, -, -, -, hversion, hle⟩ := not_stale hstale'
  refine ⟨s, hs, ⟨hactive, hlt, hle⟩, ?_⟩
  rw [hversion, not_not.mp htoken]
  rfl

def ended (s : OperatorSession) (t : Time) : OperatorSession :=
  { s with revokedAt := some t, version := s.version + 1 }

theorem ended_valid (hv : s.Valid) (hle : s.lastSeenAt ≤ t) : (ended s t).Valid :=
  ⟨hv.hashes_ne, hv.actor_ok, hv.ordered, hv.ttl, fun u hu => by cases hu; exact hle,
    Nat.le_add_left 1 s.version⟩

theorem revoke_session_eq_ok {s s' : OperatorSession} (hv : s.Valid) :
    s.revoke t = .ok s' ↔ (¬ s.active ∧ s' = s) ∨
    (s.active ∧ s.lastSeenAt ≤ t ∧ s' = ended s t) := by
  unfold OperatorSession.revoke OperatorSession.active
  by_cases hactive : s.revokedAt = none
  · rw [if_neg (not_not.mpr hactive)]
    simp only [bind_eq_ok, raiseIf_eq_ok, not_lt, OperatorSession.postInit_eq_ok, hactive,
      not_true_eq_false, false_and, false_or, true_and]
    exact ⟨fun ⟨_, hle, _, heq⟩ => ⟨hle, heq⟩, fun ⟨hle, heq⟩ => ⟨(), hle, ended_valid hv hle, heq⟩⟩
  · rw [if_pos hactive]
    simp only [pure_ok_iff, hactive, not_false_eq_true, true_and, false_and, or_false]
    exact eq_comm

theorem Sound.revoke_eq_ok (h : table.Sound) :
    table.revoke id t = .ok r ↔ ∃ s, table.get? id = some s ∧
      ((¬ s.active ∧ r = (table, s)) ∨
        (s.active ∧ s.lastSeenAt ≤ t ∧ r = (table.set id (ended s t), ended s t))) := by
  simp only [SessionTable.revoke, bind_eq_ok, h.lockedSession, pure_ok_iff]
  refine exists_congr fun s => and_congr_right fun hs => ?_
  have hset : table.set id s = table := Dict.set_of_get? table hs
  constructor
  · rintro ⟨s', hs', rfl⟩
    rcases (revoke_session_eq_ok (h id s hs).2).mp hs' with ⟨hgone, rfl⟩ | ⟨hactive, hle, rfl⟩
    · exact .inl ⟨hgone, by rw [hset]⟩
    · exact .inr ⟨hactive, hle, rfl⟩
  · rintro (⟨hgone, rfl⟩ | ⟨hactive, hle, rfl⟩)
    · exact ⟨s, (revoke_session_eq_ok (h id s hs).2).mpr (.inl ⟨hgone, rfl⟩), by rw [hset]⟩
    · exact ⟨_, (revoke_session_eq_ok (h id s hs).2).mpr (.inr ⟨hactive, hle, rfl⟩), rfl⟩

end SessionTable

end Maais

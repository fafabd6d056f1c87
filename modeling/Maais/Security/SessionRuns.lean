import Maais.Security.Sessions
import Mathlib.Data.List.Induction

/-!
# Runs of session calls

* `accepted`  the session and the time of a request a call accepts;
* `step_cases`  everything a call does to a sound table;
* `activity`  the creations and accepted requests of a run, with their times;
* `KeepsOrder`, `InOrder`  that no activity moves back, and when it does not;
* `sessions_hold`  what every interleaving keeps.
-/

namespace Maais
open Lib

namespace SessionTable

variable {table table' : SessionTable} {act : SessionAct} {id : UUID}
  {s s' : OperatorSession} {t : Time}

def accepted (table : SessionTable) (act : SessionAct) : Option (UUID × Time) :=
  match act with
  | .authenticate tokenHash observedAt =>
    (table.authenticate tokenHash observedAt).toOption.map (fun r => (r.2.id, observedAt))
  | .rotate candidate =>
    (table.call act).toOption.map (fun _ => (candidate.id, candidate.lastSeenAt))
  | .rotateCsrf candidate =>
    (table.call act).toOption.map (fun _ => (candidate.id, candidate.lastSeenAt))
  | _ => none

/-- a session that saw an activity: one version on, still open -/
structure SeenAs (s s' : OperatorSession) (t : Time) : Prop where
  id : s'.id = s.id
  lastSeenAt : s'.lastSeenAt = t
  version : s'.version = s.version + 1
  createdAt : s'.createdAt = s.createdAt
  revokedAt : s'.revokedAt = s.revokedAt
  valid : s'.Valid

/-- every row is as it was, or was revoked at a time not before its last activity -/
structure Ends (table table' : SessionTable) : Prop where
  rows : ∀ id s, table.get? id = some s → ∃ s', table'.get? id = some s' ∧
    (s' = s ∨ s.active ∧ ∃ t, s.lastSeenAt ≤ t ∧ s' = ended s t)
  none : ∀ id, table.get? id = none → table'.get? id = none

theorem Ends.refl (table : SessionTable) : Ends table table :=
  ⟨fun _ s hs => ⟨s, hs, .inl rfl⟩, fun _ h => h⟩

theorem Ends.trans {a b c : SessionTable} (h : Ends a b) (h' : Ends b c) : Ends a c where
  rows id s hs := by
    obtain ⟨s₁, hs₁, heq⟩ := h.rows id s hs
    obtain ⟨s₂, hs₂, heq'⟩ := h'.rows id s₁ hs₁
    refine ⟨s₂, hs₂, ?_⟩
    rcases heq with rfl | ⟨hactive, t, hle, rfl⟩
    · exact heq'
    · -- a revoked row stays
      rcases heq' with rfl | ⟨hno, -⟩
      · exact .inr ⟨hactive, t, hle, rfl⟩
      · cases hno
  none id hn := h'.none id (h.none id hn)

theorem Sound.revoke_ends (h : table.Sound) {r : SessionTable × OperatorSession}
    (hr : table.revoke id t = .ok r) : Sound r.1 ∧ Ends table r.1 := by
  obtain ⟨s, hs, ⟨-, rfl⟩ | ⟨hactive, hle, rfl⟩⟩ := h.revoke_eq_ok.mp hr
  · exact ⟨h, .refl table⟩
  · obtain ⟨rfl, hv⟩ := h id s hs
    refine ⟨h.set (s := ended s t) (ended_valid hv hle), ?_, ?_⟩
    · intro id' s' hs'
      by_cases hid : id' = s.id
      · subst hid
        rw [hs, Option.some.injEq] at hs'
        subst hs'
        exact ⟨_, Dict.get?_set_self table s.id _, .inr ⟨hactive, t, hle, rfl⟩⟩
      · exact ⟨s', by rw [Dict.get?_set_of_ne table hid, hs'], .inl rfl⟩
    · intro id' hn
      have hid : id' ≠ s.id := fun heq => by rw [heq, hs] at hn; cases hn
      show (table.set s.id (ended s t)).get? id' = none
      rw [Dict.get?_set_of_ne table hid, hn]

theorem Sound.revokeEach_ends (h : table.Sound) (ids : List UUID)
    (hr : revokeEach t table ids = .ok table') : Sound table' ∧ Ends table table' := by
  induction ids generalizing table with
  | nil =>
    cases hr
    exact ⟨h, .refl _⟩
  | cons id ids ih =>
    simp only [revokeEach, List.foldlM_cons, bind_eq_ok, pure_ok_iff] at hr
    obtain ⟨_, ⟨r, hr₁, rfl⟩, hrest⟩ := hr
    obtain ⟨hs, he⟩ := h.revoke_ends hr₁
    obtain ⟨hs', he'⟩ := ih hs hrest
    exact ⟨hs', he.trans he'⟩

/-! ## one call -/

inductive Effect (table : SessionTable) (act : SessionAct) : Prop
  | idle (heq : table.step act = table) (hnone : table.accepted act = none)
  | issued (request : NewSessionRequest) (s : OperatorSession) (hact : act = .issue request)
      (hv : s.Valid) (hnew : table.get? s.id = none) (hid : s.id = request.id)
      (hseen : s.lastSeenAt = request.createdAt) (heq : table.step act = table.set s.id s)
      (hnone : table.accepted act = none)
  /-- a rotation is never before the last activity; a plain request may be -/
  | request (s s' : OperatorSession) (t : Time) (hs : table.get? s.id = some s) (hacc : Accepts s t)
      (hseen : SeenAs s s' t) (heq : table.step act = table.set s.id s')
      (hsome : table.accepted act = some (s.id, t))
      (hback : s.lastSeenAt ≤ t ∨ ∃ tokenHash, act = .authenticate tokenHash t ∧
      table.byToken tokenHash = some s)
  | revoked (hends : Ends table (table.step act)) (hsound : Sound (table.step act))
    (hnone : table.accepted act = none)

theorem step_ok (h : table.call act = .ok table') : table.step act = table' := by rw [step, h]

theorem step_error {e : PyError} (h : table.call act = .error e) :
    table.step act = table := by rw [step, h]

theorem effect_issue (h : table.Sound) (request : NewSessionRequest) :
    Effect table (.issue request) := by
  cases hc : table.call (.issue request) with
  | error e => exact .idle (step_error hc) rfl
  | ok table' =>
    have hstep := step_ok hc
    simp only [call, SessionTable.issue, NewSessionRequest.toSession, bind_eq_ok,
      OperatorSession.postInit_eq_ok, pure_eq_ok, Except.ok.injEq] at hc
    obtain ⟨r, ⟨candidate, ⟨hv, rfl⟩, hmatch⟩, rfl⟩ := hc
    split at hmatch
    case h_1 hfree =>
      cases hmatch
      refine .issued request _ rfl hv ?_ rfl rfl hstep rfl
      cases hget : table.get? request.id with
      | none => rfl
      | some s =>
        have hmem : s ∈ table.values := (Dict.mem_values_iff table).mpr ⟨_, hget⟩
        have := List.find?_eq_none.mp hfree s hmem
        simp [(h _ s hget).1] at this
    case h_2 row hrow =>
      simp only [bind_eq_ok, raiseIf_eq_ok, Except.ok.injEq] at hmatch
      obtain ⟨_, -, _, -, rfl⟩ := hmatch
      exact .idle hstep rfl

theorem effect_authenticate (h : table.Sound) (tokenHash : Digest) (t : Time) :
    Effect table (.authenticate tokenHash t) := by
  cases ha : table.authenticate tokenHash t with
  | error e =>
    refine .idle (step_error (e := e) ?_) ?_
    · rw [call, ha]
      rfl
    · rw [accepted, ha]
      rfl
  | ok r =>
    obtain ⟨s, hby, hacc, rfl⟩ := h.authenticate_eq_ok.mp ha
    obtain ⟨hs, hv⟩ := h.byToken hby
    have hseen := (hv.seen_iff hacc.active hacc.before_end).mpr hacc.after_start
    refine .request s (s.seen t) t hs hacc ⟨rfl, rfl, rfl, rfl, rfl, hseen⟩ (step_ok ?_) ?_
      (.inr ⟨tokenHash, rfl, hby⟩)
    · rw [call, ha]
      rfl
    · rw [accepted, ha]
      rfl

theorem effect_rotated (h : table.Sound) {candidate : OperatorSession} (hc : candidate.Valid)
    (hs : table.get? candidate.id = some s) (hr : Rotates s candidate)
    (hstep : table.step act = table.set candidate.id
      (rotated s candidate.tokenHash candidate.csrfHash candidate.lastSeenAt))
    (hsome : table.accepted act = some (candidate.id, candidate.lastSeenAt)) :
    Effect table act := by
  obtain ⟨hid, hv⟩ := h _ s hs
  rw [← hid] at hs hstep hsome
  have hseen :
      SeenAs s (rotated s candidate.tokenHash candidate.csrfHash candidate.lastSeenAt)
      candidate.lastSeenAt :=
    ⟨rfl, rfl, rfl, rfl, rfl, rotated_valid hv hc hr⟩
  exact .request s _ candidate.lastSeenAt hs (hr.accepts hv) hseen hstep hsome (.inl hr.after_last)

theorem effect_rotate (h : table.Sound) (candidate : OperatorSession) :
    Effect table (.rotate candidate) := by
  cases hc : table.call (.rotate candidate) with
  | error e => exact .idle (step_error hc) (by rw [accepted, hc]; rfl)
  | ok table' =>
    have hstep := step_ok hc
    have hsome : table.accepted (.rotate candidate) =
        some (candidate.id, candidate.lastSeenAt) := by
      rw [accepted, hc]
      rfl
    simp only [call, bind_eq_ok, OperatorSession.postInit_eq_ok, pure_ok_iff] at hc
    obtain ⟨_, ⟨hv, rfl⟩, r, hr, rfl⟩ := hc
    obtain ⟨s, hs, hrot, heq⟩ := h.rotate_ok hr
    exact effect_rotated h hv hs hrot (hstep.trans heq) hsome

theorem effect_rotateCsrf (h : table.Sound) (candidate : OperatorSession) :
    Effect table (.rotateCsrf candidate) := by
  cases hc : table.call (.rotateCsrf candidate) with
  | error e => exact .idle (step_error hc) (by rw [accepted, hc]; rfl)
  | ok table' =>
    have hstep := step_ok hc
    have hsome : table.accepted (.rotateCsrf candidate) =
        some (candidate.id, candidate.lastSeenAt) := by
      rw [accepted, hc]
      rfl
    simp only [call, bind_eq_ok, OperatorSession.postInit_eq_ok, pure_ok_iff] at hc
    obtain ⟨_, ⟨hv, rfl⟩, r, hr, rfl⟩ := hc
    obtain ⟨s, hs, hrot, heq⟩ := h.rotateCsrf_ok hr
    exact effect_rotated h hv hs hrot (hstep.trans heq) hsome

theorem effect (h : table.Sound) (act : SessionAct) : Effect table act := by
  cases act with
  | issue request => exact effect_issue h request
  | authenticate tokenHash t => exact effect_authenticate h tokenHash t
  | rotate candidate => exact effect_rotate h candidate
  | rotateCsrf candidate => exact effect_rotateCsrf h candidate
  | revoke id t =>
    cases hc : table.call (.revoke id t) with
    | error e => exact .idle (step_error hc) rfl
    | ok table' =>
      have hstep := step_ok hc
      simp only [call, bind_eq_ok, pure_ok_iff] at hc
      obtain ⟨r, hr, rfl⟩ := hc
      obtain ⟨hs, he⟩ := h.revoke_ends hr
      exact .revoked (hstep ▸ he) (hstep ▸ hs) rfl
  | revokeAllActive t =>
    cases hc : table.call (.revokeAllActive t) with
    | error e => exact .idle (step_error hc) rfl
    | ok table' =>
      obtain ⟨hs, he⟩ := h.revokeEach_ends table.activeIds hc
      exact .revoked (step_ok hc ▸ he) (step_ok hc ▸ hs) rfl

theorem Sound.step (h : table.Sound) (act : SessionAct) : Sound (table.step act) := by
  cases effect h act with
  | idle heq => rwa [heq]
  | issued request s _ hv _ _ _ heq =>
    rw [heq]
    exact h.set hv
  | request s s' t _ _ hseen heq =>
    rw [heq, ← hseen.id]
    exact h.set hseen.valid
  | revoked _ hsound => exact hsound

/-! ## what every call keeps -/

/-- one call: a row changes by one version and only while it is open, and a request is accepted only
of an open row, before twelve hours from its creation and thirty minutes from its last activity -/
structure Fair (table : SessionTable) (act : SessionAct) : Prop where
  rows : ∀ id s, table.get? id = some s → ∃ s', (table.step act).get? id = some s' ∧
    (s' = s ∨ s.active ∧ s'.version = s.version + 1)
  requests : ∀ id t, table.accepted act = some (id, t) → ∃ s, table.get? id = some s ∧ s.active ∧
    t < s.createdAt + sessionAbsoluteTtl ∧ t < s.lastSeenAt + sessionIdleTtl ∧
    ∃ s', (table.step act).get? id = some s' ∧ s'.version = s.version + 1 ∧ s'.lastSeenAt = t

theorem Sound.fair (h : table.Sound) (act : SessionAct) : Fair table act := by
  cases effect h act with
  | idle heq hnone =>
    refine ⟨fun id s hs => ⟨s, by rw [heq, hs], .inl rfl⟩, fun id t hacc => ?_⟩
    rw [hnone] at hacc
    cases hacc
  | issued request s₀ _ _ hnew _ _ heq hnone =>
    refine ⟨fun id s hs => ⟨s, ?_, .inl rfl⟩, fun id t hacc => ?_⟩
    · have hne : id ≠ s₀.id := fun hid => by rw [hid, hnew] at hs; cases hs
      rw [heq, Dict.get?_set_of_ne table hne, hs]
    · rw [hnone] at hacc
      cases hacc
  | request s s' t hs hacc hseen heq hsome =>
    have hget : (table.step act).get? s.id = some s' := by rw [heq, Dict.get?_set_self]
    refine ⟨fun id r hr => ?_, fun id u hu => ?_⟩
    · by_cases hid : id = s.id
      · subst hid
        rw [hs, Option.some.injEq] at hr
        subst hr
        exact ⟨s', hget, .inr ⟨hacc.active, hseen.version⟩⟩
      · exact ⟨r, by rw [heq, Dict.get?_set_of_ne table hid, hr], .inl rfl⟩
    · rw [hsome, Option.some.injEq, Prod.mk.injEq] at hu
      obtain ⟨rfl, rfl⟩ := hu
      have hend := lt_min_iff.mp hacc.before_end
      rw [(h _ s hs).2.ttl] at hend
      exact ⟨s, hs, hacc.active, hend.1, hend.2, s', hget, hseen.version, hseen.lastSeenAt⟩
  | revoked hends _ hnone =>
    refine ⟨fun id s hs => ?_, fun id t hacc => ?_⟩
    · obtain ⟨s', hs', rfl | ⟨hactive, t, -, rfl⟩⟩ := hends.rows id s hs
      · exact ⟨s', hs', .inl rfl⟩
      · exact ⟨_, hs', .inr ⟨hactive, rfl⟩⟩
    · rw [hnone] at hacc
      cases hacc

def KeepsOrder (table : SessionTable) (act : SessionAct) : Prop :=
  ∀ id s s', table.get? id = some s → (table.step act).get? id = some s' →
    s.lastSeenAt ≤ s'.lastSeenAt

/-- a request that would be accepted does not reach its row after a later one -/
def InOrder (table : SessionTable) (act : SessionAct) : Prop :=
  ∀ tokenHash t s, act = .authenticate tokenHash t → table.byToken tokenHash = some s →
    Accepts s t → s.lastSeenAt ≤ t

theorem Sound.keepsOrder_iff (h : table.Sound) (act : SessionAct) : KeepsOrder table act ↔
    InOrder table act := by
  constructor
  · rintro hkeeps tokenHash t s rfl hby hacc
    have hok := h.authenticate_eq_ok.mpr ⟨s, hby, hacc, rfl⟩
    have hstep : table.step (.authenticate tokenHash t) = table.set s.id (s.seen t) :=
      step_ok (by rw [call, hok]; rfl)
    exact hkeeps s.id s (s.seen t) (h.byToken hby).1 (by rw [hstep, Dict.get?_set_self])
  · intro hin id r r' hr hr'
    cases effect h act with
    | idle heq _ =>
      rw [heq, hr, Option.some.injEq] at hr'
      rw [hr']
    | issued request s₀ _ _ hnew _ _ heq _ =>
      have hne : id ≠ s₀.id := fun hid => by rw [hid, hnew] at hr; cases hr
      rw [heq, Dict.get?_set_of_ne table hne, hr, Option.some.injEq] at hr'
      rw [hr']
    | request s s' t hs hacc hseen heq _ hback =>
      have hle : s.lastSeenAt ≤ t := by
        rcases hback with hle | ⟨tokenHash, hact, hby⟩
        · exact hle
        · exact hin tokenHash t s hact hby hacc
      rw [heq] at hr'
      by_cases hid : id = s.id
      · subst hid
        rw [hs, Option.some.injEq] at hr
        rw [Dict.get?_set_self, Option.some.injEq] at hr'
        rw [← hr, ← hr', hseen.lastSeenAt]
        exact hle
      · rw [Dict.get?_set_of_ne table hid, hr, Option.some.injEq] at hr'
        rw [hr']
    | revoked hends _ _ =>
      obtain ⟨s', hs', heq⟩ := hends.rows id r hr
      rw [hs', Option.some.injEq] at hr'
      subst hr'
      rcases heq with rfl | ⟨-, t, -, rfl⟩
      · exact le_rfl
      · exact le_rfl

/-! ## runs -/

/-- the creation or the accepted request of a call, with its time -/
def activityOf (table : SessionTable) (act : SessionAct) : Option (UUID × Time) :=
  match act with
  | .issue request => (table.call act).toOption.map (fun _ => (request.id, request.createdAt))
  | _ => table.accepted act

def activity : SessionTable → List SessionAct → List (UUID × Time)
  | _, [] => []
  | table, act :: acts => (activityOf table act).toList ++ activity (table.step act) acts

theorem activity_append (table : SessionTable) (acts : List SessionAct) (act : SessionAct) :
    activity table (acts ++ [act]) = activity table acts ++
    (activityOf (Lib.run step table acts) act).toList := by
  induction acts generalizing table with
  | nil => simp [activity]
  | cons a acts ih => simp only [List.cons_append, activity, ih, run_cons, List.append_assoc]

/-- the last activity of every row is one of the run -/
def Logged (table : SessionTable) (log : List (UUID × Time)) : Prop :=
  ∀ id s, table.get? id = some s → (id, s.lastSeenAt) ∈ log

theorem Logged.step {log : List (UUID × Time)} (h : table.Sound) (hl : Logged table log)
    (act : SessionAct) : Logged (table.step act) (log ++ (activityOf table act).toList) := by
  have hkept : ∀ {id s}, table.get? id = some s →
      (id, s.lastSeenAt) ∈ log ++ (activityOf table act).toList :=
    fun hs => List.mem_append_left _ (hl _ _ hs)
  intro id r hr
  cases effect h act with
  | idle heq _ =>
    rw [heq] at hr
    exact hkept hr
  | issued request s₀ hact hv hnew hid hseen heq _ =>
    rw [heq] at hr
    by_cases hids : id = s₀.id
    · subst hids
      rw [Dict.get?_set_self, Option.some.injEq] at hr
      subst hr
      have hlog : activityOf table act = some (s₀.id, s₀.lastSeenAt) := by
        subst hact
        cases hc : table.call (.issue request) with
        | error e =>
          rw [step_error hc] at heq
          rw [heq, Dict.get?_set_self] at hnew
          cases hnew
        | ok table' =>
          rw [activityOf, hc, hid, hseen]
          rfl
      rw [hlog]
      exact List.mem_append_right _ (List.mem_singleton.mpr rfl)
    · rw [Dict.get?_set_of_ne table hids] at hr
      exact hkept hr
  | request s s' t hs _ hseen heq hsome =>
    rw [heq] at hr
    by_cases hids : id = s.id
    · subst hids
      rw [Dict.get?_set_self, Option.some.injEq] at hr
      subst hr
      have hlog : activityOf table act = some (s.id, t) := by
        cases act with
        | issue request => cases hsome
        | authenticate _ _ => exact hsome
        | rotate _ => exact hsome
        | rotateCsrf _ => exact hsome
        | revoke _ _ => cases hsome
        | revokeAllActive _ => cases hsome
      rw [hlog, hseen.lastSeenAt]
      exact List.mem_append_right _ (List.mem_singleton.mpr rfl)
    · rw [Dict.get?_set_of_ne table hids] at hr
      exact hkept hr
  | revoked hends _ _ =>
    cases hold : table.get? id with
    | none =>
      rw [hends.none id hold] at hr
      cases hr
    | some s =>
      obtain ⟨s', hs', heq⟩ := hends.rows id s hold
      rw [hs', Option.some.injEq] at hr
      subst hr
      rcases heq with rfl | ⟨-, t, -, rfl⟩
      · exact hkept hold
      · show (id, s.lastSeenAt) ∈ _
        exact hkept hold

theorem sound_empty : Sound (Dict.empty : SessionTable) := nofun

theorem run_sound (acts : List SessionAct) : Sound (Lib.run step Dict.empty acts) :=
  Lib.run_inv step (I := Sound) (fun _ act h => h.step act) sound_empty acts

theorem run_logged (acts : List SessionAct) : Logged (Lib.run step Dict.empty acts)
    (activity Dict.empty acts) := by
  induction acts using List.reverseRecOn with
  | nil => exact nofun
  | append_singleton acts act ih =>
    rw [activity_append, run_append]
    exact ih.step (run_sound acts) act

/-- **in every interleaving of session calls a row changes by one version at a time and only while
it is open, no request is accepted twelve hours after the creation or half an hour after every
earlier activity, and the last activity moves back exactly when a request reaches its row after a
later one** -/
theorem sessions_hold (acts : List SessionAct) :
    AllSteps step Fair Dict.empty acts ∧
    (∀ before act after, acts = before ++ act :: after → ∀ id t,
      accepted (Lib.run step Dict.empty before) act = some (id, t) →
      ∃ u, (id, u) ∈ activity Dict.empty before ∧ t < u + sessionIdleTtl) ∧
    (AllSteps step KeepsOrder Dict.empty acts ↔ AllSteps step InOrder Dict.empty acts) := by
  have hfair : AllSteps step Fair Dict.empty acts :=
    .of_kept step (fun _ act h => h.step act) (fun table act h => h.fair act) sound_empty acts
  refine ⟨hfair, ?_,
    AllSteps.congr step (fun table act h _ => h.step act)
    (fun table act h _ => h.keepsOrder_iff act) sound_empty hfair⟩
  rintro before act after rfl id t hacc
  have hsound := run_sound before
  obtain ⟨s, hs, -, -, hidle, -⟩ := (hsound.fair act).requests id t hacc
  exact ⟨s.lastSeenAt, run_logged before id s hs, hidle⟩

end SessionTable

namespace Demo

def sessionRequest : NewSessionRequest :=
  ⟨⟨"session"⟩, ⟨"token"⟩, ⟨"csrf"⟩, "sole_operator", 0, sessionAbsoluteTtl⟩

/-- two requests observed one second apart that reach the row the other way round -/
def swapped : List SessionAct :=
  [.issue sessionRequest, .authenticate ⟨"token"⟩ 2000000, .authenticate ⟨"token"⟩ 1000000]

theorem swapped_moves_back :
    ¬ AllSteps SessionTable.step SessionTable.KeepsOrder Dict.empty swapped ∧
    ((Lib.run SessionTable.step Dict.empty (swapped.take 2)).get? ⟨"session"⟩).map (·.lastSeenAt) =
    some 2000000 ∧
    ((Lib.run SessionTable.step Dict.empty swapped).get? ⟨"session"⟩).map (·.lastSeenAt) =
    some 1000000 := by
  have h2 :
      ((Lib.run SessionTable.step Dict.empty (swapped.take 2)).get? ⟨"session"⟩).map
      (·.lastSeenAt) = some 2000000 := by decide +kernel
  have h3 : ((Lib.run SessionTable.step Dict.empty swapped).get? ⟨"session"⟩).map (·.lastSeenAt) =
      some 1000000 := by
    decide +kernel
  refine ⟨fun hkeeps => ?_, h2, h3⟩
  obtain ⟨s, hs, hs2⟩ := Option.map_eq_some_iff.mp h2
  obtain ⟨s', hs', hs3⟩ := Option.map_eq_some_iff.mp h3
  have hle := hkeeps.2.2.1 _ s s' hs hs'
  rw [hs2, hs3] at hle
  exact absurd hle (by decide)

end Demo

end Maais

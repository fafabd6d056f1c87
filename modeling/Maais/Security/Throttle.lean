import Maais.Domain
import Maais.Lib.Run
import Mathlib.Data.List.Sort

/-!
# The login throttle

One row counts the failed logins of a fixed window; the fifth failure locks the operator out. Every
attempt takes its time before it locks the row, checks the lockout, and only then verifies the
password.

* `attempt`  the throttle part of a login, with what the password check found;
* `history`  the outcomes of a list of attempts, `potential` what a row still lets through in an
  interval;
* `throttle_holds`  no check ever raises, a bound for every interval, and the lockout.
-/

namespace Maais
open Lib

def loginWindow : Time := 900000000
def loginMaxFailures : Nat := 5
def loginLockout : Time := 1800000000

structure OperatorAuthState where
  failedAttempts : Nat
  windowStartedAt : Option Time
  lockedUntil : Option Time
  updatedAt : Time
  version : Nat

namespace OperatorAuthState

variable (s : OperatorAuthState)

def postInit : Py OperatorAuthState := do
  raiseIf (¬ (s.failedAttempts ≤ loginMaxFailures) ∨ s.version < 1)
    (.valueError "login throttle counts and version must be valid")
  raiseIf (s.failedAttempts = 0 ∧ (s.windowStartedAt ≠ none ∨ s.lockedUntil ≠ none))
    (.valueError "clean login throttle state cannot retain a window or lockout")
  raiseIf (s.failedAttempts ≠ 0 ∧ s.windowStartedAt = none)
    (.valueError "failed login state requires a window")
  raiseIf (s.failedAttempts ≠ 0 ∧ s.failedAttempts < loginMaxFailures ∧ s.lockedUntil ≠ none)
    (.valueError "login throttle cannot lock before the fifth failure")
  raiseIf (s.failedAttempts = loginMaxFailures ∧ s.lockedUntil ≠ some (s.updatedAt + loginLockout))
    (.valueError "the fifth login failure requires the fixed lockout")
  raiseIf (∃ w ∈ s.windowStartedAt, s.updatedAt < w)
    (.valueError "login throttle timestamps are out of order")
  return s

def locked (observedAt : Time) : Prop := ∃ u ∈ s.lockedUntil, observedAt < u

instance locked.decidable (observedAt : Time) : Decidable (s.locked observedAt) := by
  unfold locked
  infer_instance

def fresh (observedAt : Time) : OperatorAuthState := ⟨0, none, none, observedAt, 1⟩

end OperatorAuthState

/-! ## the repository -/

abbrev AuthRow := Option OperatorAuthState

namespace AuthRow

variable (row : AuthRow) (observedAt : Time)

/-- `_locked_auth_state` and `_auth_state_from_row` -/
def loginState : Py OperatorAuthState := (row.getD (.fresh observedAt)).postInit

def requireLoginAllowed : Py OperatorAuthState := do
  let current ← loginState row observedAt
  raiseIf (current.locked observedAt) .loginAuthenticationError
  return current

def failureCounts (current : OperatorAuthState) : Nat × Time :=
  match current.windowStartedAt with
  | none => (1, observedAt)
  | some started =>
    if observedAt ≥ started + loginWindow then
      (1, observedAt) else (current.failedAttempts + 1, started)

def failed (current : OperatorAuthState) : OperatorAuthState :=
  let counts := failureCounts observedAt current
  { failedAttempts := counts.1
    windowStartedAt := some counts.2
    lockedUntil := if counts.1 ≥ loginMaxFailures then some (observedAt + loginLockout) else none
    updatedAt := observedAt
    version := current.version + 1 }

def recordLoginFailure : Py OperatorAuthState := do
  let current ← loginState row observedAt
  raiseIf (observedAt < current.updatedAt)
    (.valueError "login observation cannot precede durable throttle state")
  if current.locked observedAt then return current
  else (failed observedAt current).postInit

def recordLoginSuccess : Py OperatorAuthState := do
  let current ← loginState row observedAt
  raiseIf (observedAt < current.updatedAt)
    (.valueError "login observation cannot precede durable throttle state")
  raiseIf (current.locked observedAt) .loginAuthenticationError
  OperatorAuthState.postInit ⟨0, none, none, observedAt, current.version + 1⟩

/-- what a login finds: a lockout, a wrong password or the right one -/
inductive LoginCheck
  | blocked | wrong | right
deriving DecidableEq

/-- the throttle part of `login`, with what the password check found, and the row it leaves -/
def check (valid : Bool) : Py (LoginCheck × OperatorAuthState) :=
  match requireLoginAllowed row observedAt with
  | .error .loginAuthenticationError => do
    let current ← loginState row observedAt
    return (.blocked, current)
  | .error e => .error e
  | .ok current =>
    if valid then do
      let updated ← recordLoginSuccess (some current) observedAt
      return (.right, updated)
    else do
      let updated ← recordLoginFailure (some current) observedAt
      return (.wrong, updated)

end AuthRow

/-! ## attempts -/

/-- a login request: when it was observed, whether its password is right, and whether the rest of
its transaction commits -/
structure Attempt where
  observedAt : Time
  valid : Bool
  commits : Bool

/-- what a request ended in; a rolled back one leaves the row as it was -/
inductive AttemptOutcome
  /-- the lockout refused it, and no password was evaluated -/
  | blocked
  | counted
  | succeeded
  | rolledBack
  | raised (e : PyError)
deriving DecidableEq

def AuthRow.LoginCheck.outcome : AuthRow.LoginCheck → Bool → AttemptOutcome
  | .blocked, _ => .blocked
  | _, false => .rolledBack
  | .wrong, true => .counted
  | .right, true => .succeeded

def attempt (row : AuthRow) (a : Attempt) : AuthRow × AttemptOutcome :=
  match row.check a.observedAt a.valid with
  | .error e => (row, .raised e)
  | .ok (found, updated) => (if a.commits then some updated else row, found.outcome a.commits)

/-! ## valid rows -/

namespace OperatorAuthState

structure Valid (s : OperatorAuthState) : Prop where
  count_le : s.failedAttempts ≤ loginMaxFailures
  version_pos : 1 ≤ s.version
  clean : s.failedAttempts = 0 → s.windowStartedAt = none ∧ s.lockedUntil = none
  window : s.failedAttempts ≠ 0 → s.windowStartedAt ≠ none
  early : s.failedAttempts ≠ 0 → s.failedAttempts < loginMaxFailures → s.lockedUntil = none
  fifth : s.failedAttempts = loginMaxFailures → s.lockedUntil = some (s.updatedAt + loginLockout)
  order : ∀ w ∈ s.windowStartedAt, w ≤ s.updatedAt

variable {s s' : OperatorAuthState} {t : Time}

theorem postInit_eq_ok : s.postInit = .ok s' ↔ s.Valid ∧ s' = s := by
  simp only [postInit, bind_eq_ok, raiseIf_eq_ok, pure_ok_iff]
  constructor
  · rintro ⟨_, h1, _, h2, _, h3, _, h4, _, h5, _, h6, rfl⟩
    refine ⟨⟨?_, ?_, ?_, ?_, ?_, ?_, ?_⟩, rfl⟩
    · exact not_not.mp (not_or.mp h1).1
    · exact not_lt.mp (not_or.mp h1).2
    · intro h0
      have hn := not_or.mp (not_and.mp h2 h0)
      exact ⟨not_not.mp hn.1, not_not.mp hn.2⟩
    · exact fun h0 hnone => h3 ⟨h0, hnone⟩
    · exact fun h0 hlt => not_not.mp fun hlock => h4 ⟨h0, hlt, hlock⟩
    · exact fun h5' => not_not.mp fun hlock => h5 ⟨h5', hlock⟩
    · exact fun w hw => not_lt.mp fun hlt => h6 ⟨w, hw, hlt⟩
  · rintro ⟨h, rfl⟩
    refine ⟨(), ?_, (), ?_, (), ?_, (), ?_, (), ?_, (), ?_, rfl⟩
    · rintro (hcount | hversion)
      · exact hcount h.count_le
      · exact absurd h.version_pos (not_le.mpr hversion)
    · rintro ⟨h0, hwindow | hlock⟩
      · exact hwindow (h.clean h0).1
      · exact hlock (h.clean h0).2
    · exact fun ⟨h0, hnone⟩ => h.window h0 hnone
    · exact fun ⟨h0, hlt, hlock⟩ => hlock (h.early h0 hlt)
    · exact fun ⟨h5, hlock⟩ => hlock (h.fifth h5)
    · exact fun ⟨w, hw, hlt⟩ => absurd (h.order w hw) (not_le.mpr hlt)

theorem Valid.postInit (h : s.Valid) : s.postInit = .ok s := postInit_eq_ok.mpr ⟨h, rfl⟩

theorem cleared_valid (t : Time) (v : Nat) : Valid ⟨0, none, none, t, v + 1⟩ where
  count_le := Nat.zero_le _
  version_pos := Nat.le_add_left 1 v
  clean _ := ⟨rfl, rfl⟩
  window h := absurd rfl h
  early h := absurd rfl h
  fifth h := by cases h
  order w hw := by cases hw

theorem fresh_valid (t : Time) : (fresh t).Valid := cleared_valid t 0

theorem Valid.window_over (h : s.Valid) (h5 : s.failedAttempts = loginMaxFailures)
    (hlock : ¬ s.locked t) {w : Time} (hw : w ∈ s.windowStartedAt) : w + loginWindow ≤ t := by
  have hle := h.order w hw
  have hlate : s.updatedAt + loginLockout ≤ t := by
    by_contra hlt
    exact hlock ⟨_, h.fifth h5, not_le.mp hlt⟩
  have hconst : loginWindow ≤ loginLockout := by decide
  linarith

end OperatorAuthState

namespace AuthRow

variable {row : AuthRow} {s : OperatorAuthState} {t : Time}

theorem failureCounts_cases (t : Time) (s : OperatorAuthState) :
    failureCounts t s = (1, t) ∧ (∀ w ∈ s.windowStartedAt, w + loginWindow ≤ t) ∨
      ∃ w ∈ s.windowStartedAt, t < w + loginWindow ∧
      failureCounts t s = (s.failedAttempts + 1, w) := by
  unfold failureCounts
  cases hw : s.windowStartedAt with
  | none => exact .inl ⟨rfl, nofun⟩
  | some w =>
    by_cases hover : t ≥ w + loginWindow
    · refine .inl ⟨if_pos hover, fun w' hw' => ?_⟩
      cases hw'
      exact hover
    · exact .inr ⟨w, rfl, not_le.mp hover, if_neg hover⟩

theorem failed_counts (h : s.Valid) (t : Time) :
    (failed t s).failedAttempts = s.failedAttempts + 1 ∨ (failed t s).failedAttempts = 1 ∧
    ∃ w ∈ s.windowStartedAt, w + loginWindow ≤ t := by
  show (failureCounts t s).1 = _ ∨ (failureCounts t s).1 = 1 ∧ _
  rcases failureCounts_cases t s with ⟨heq, hover⟩ | ⟨w, -, -, heq⟩
  · rw [heq]
    cases hw : s.windowStartedAt with
    | none =>
      have hzero : s.failedAttempts = 0 := by
        by_contra hne
        exact h.window hne hw
      exact .inl (by rw [hzero])
    | some w => exact .inr ⟨rfl, w, rfl, hover w hw⟩
  · exact .inl (by rw [heq])

theorem failed_valid (h : s.Valid) (hle : s.updatedAt ≤ t) (hlock : ¬ s.locked t) :
    (failed t s).Valid := by
  have hcounts : (failureCounts t s).1 ≤ loginMaxFailures ∧ (failureCounts t s).1 ≠ 0 ∧
      (failureCounts t s).2 ≤ t := by
    rcases failureCounts_cases t s with ⟨heq, -⟩ | ⟨w, hw, hin, heq⟩
    · rw [heq]
      exact ⟨Nat.le_of_ble_eq_true rfl, one_ne_zero, le_rfl⟩
    · have hnot5 : s.failedAttempts ≠ loginMaxFailures := fun h5 =>
        absurd (h.window_over h5 hlock hw) (not_le.mpr hin)
      have hlt := lt_of_le_of_ne h.count_le hnot5
      rw [heq]
      exact ⟨hlt, Nat.succ_ne_zero _, (h.order w hw).trans hle⟩
  obtain ⟨hcount, hpos, hstart⟩ := hcounts
  exact
    { count_le := hcount
      version_pos := Nat.le_add_left 1 s.version
      clean := fun h0 => absurd h0 hpos
      window := fun _ => nofun
      early := fun _ hlt => if_neg (not_le.mpr hlt)
      fifth := fun h5 => if_pos (ge_of_eq h5)
      order := fun w hw => by cases hw; exact hstart }

end AuthRow

/-! ## one attempt -/

def AuthRow.current (row : AuthRow) (t : Time) : OperatorAuthState := row.getD (.fresh t)

def AuthRow.Sound (row : AuthRow) : Prop := ∀ s ∈ row, s.Valid

def AuthRow.UpTo (row : AuthRow) (t : Time) : Prop := ∀ s ∈ row, s.updatedAt ≤ t

section

variable {row : AuthRow} {a : Attempt}

theorem AuthRow.Sound.current (h : row.Sound) (t : Time) : (row.current t).Valid := by
  cases row with
  | none => exact OperatorAuthState.fresh_valid t
  | some s => exact h s rfl

theorem AuthRow.UpTo.current {t : Time} (h : row.UpTo t) : (row.current t).updatedAt ≤ t := by
  cases row with
  | none => exact le_rfl
  | some s => exact h s rfl

theorem AuthRow.locked_eq_some {t : Time} (h : (row.current t).locked t) :
    row = some (row.current t) := by
  cases row with
  | none =>
    obtain ⟨u, hu, -⟩ := h
    cases hu
  | some s => rfl

theorem AuthRow.check_blocked (h : row.Sound) {t : Time} (hlock : (row.current t).locked t)
    (valid : Bool) : row.check t valid = .ok (.blocked, row.current t) := by
  have hstate : row.loginState t = .ok (row.current t) := (h.current t).postInit
  have hrequire : row.requireLoginAllowed t = .error .loginAuthenticationError := by
    rw [requireLoginAllowed, hstate, ok_bind, raiseIf_bind_pos hlock]
  rw [check, hrequire]
  simp only [hstate]
  rfl

/-- **a login that is not locked out**: the row must not be ahead of it -/
theorem AuthRow.check_open (h : row.Sound) {t : Time} (hlock : ¬ (row.current t).locked t)
    (valid : Bool) : row.check t valid = if t < (row.current t).updatedAt then
      .error (.valueError "login observation cannot precede durable throttle state")
    else .ok (if valid then (.right, ⟨0, none, none, t, (row.current t).version + 1⟩)
      else (.wrong, failed t (row.current t))) := by
  have hvalid := h.current t
  have hstate : row.loginState t = .ok (row.current t) := hvalid.postInit
  have hsome : loginState (some (row.current t)) t = .ok (row.current t) := hvalid.postInit
  have hrequire : row.requireLoginAllowed t = .ok (row.current t) := by
    rw [requireLoginAllowed, hstate, ok_bind, raiseIf_bind_neg hlock]
    rfl
  rw [check, hrequire]
  simp only [recordLoginSuccess, recordLoginFailure, hsome, ok_bind, if_neg hlock,
    raiseIf_bind_neg hlock]
  by_cases hearly : t < (row.current t).updatedAt
  · rw [raiseIf_bind_pos hearly, raiseIf_bind_pos hearly, if_pos hearly]
    cases valid <;> rfl
  · rw [raiseIf_bind_neg hearly, raiseIf_bind_neg hearly, if_neg hearly,
      (OperatorAuthState.cleared_valid _ _).postInit,
      (failed_valid hvalid (not_lt.mp hearly) hlock).postInit]
    cases valid <;> rfl

theorem attempt_cases (h : row.Sound) (hle : row.UpTo a.observedAt) :
    (row.current a.observedAt).locked a.observedAt ∧ attempt row a = (row, .blocked) ∨
    ¬ (row.current a.observedAt).locked a.observedAt ∧
      (a.commits = false ∧ attempt row a = (row, .rolledBack) ∨
       a.commits = true ∧ a.valid = true ∧
        attempt row a =
        (some ⟨0, none, none, a.observedAt, (row.current a.observedAt).version + 1⟩, .succeeded) ∨
       a.commits = true ∧ a.valid = false ∧
        attempt row a =
        (some (AuthRow.failed a.observedAt (row.current a.observedAt)), .counted)) := by
  by_cases hlock : (row.current a.observedAt).locked a.observedAt
  · refine .inl ⟨hlock, ?_⟩
    rw [attempt, AuthRow.check_blocked h hlock]
    simp only [← AuthRow.locked_eq_some hlock, ite_self]
    rfl
  · refine .inr ⟨hlock, ?_⟩
    rw [attempt, AuthRow.check_open h hlock, if_neg (not_lt.mpr hle.current)]
    cases a.commits <;> cases a.valid <;> simp [AuthRow.LoginCheck.outcome]

theorem attempt_sound (h : row.Sound) (hle : row.UpTo a.observedAt) : (attempt row a).1.Sound := by
  rcases attempt_cases h hle with ⟨-, heq⟩ | ⟨hlock, ⟨-, heq⟩ | ⟨-, -, heq⟩ | ⟨-, -, heq⟩⟩
  · rwa [heq]
  · rwa [heq]
  · rw [heq]
    intro s hs
    cases hs
    exact OperatorAuthState.cleared_valid _ _
  · rw [heq]
    intro s hs
    cases hs
    exact AuthRow.failed_valid (h.current _) hle.current hlock

theorem attempt_upTo (h : row.Sound) (hle : row.UpTo a.observedAt) :
    (attempt row a).1.UpTo a.observedAt := by
  rcases attempt_cases h hle with ⟨-, heq⟩ | ⟨-, ⟨-, heq⟩ | ⟨-, -, heq⟩ | ⟨-, -, heq⟩⟩
  · rwa [heq]
  · rwa [heq]
  · rw [heq]
    intro s hs
    cases hs
    exact le_rfl
  · rw [heq]
    intro s hs
    cases hs
    exact le_rfl

theorem attempt_not_raised (h : row.Sound) (hle : row.UpTo a.observedAt) (e : PyError) :
    (attempt row a).2 ≠ .raised e := by
  rcases attempt_cases h hle with ⟨-, heq⟩ | ⟨-, ⟨-, heq⟩ | ⟨-, -, heq⟩ | ⟨-, -, heq⟩⟩ <;>
    rw [heq] <;> nofun

end

/-! ## histories -/

structure Entry where
  attempt : Attempt
  outcome : AttemptOutcome
  row : AuthRow

def history : AuthRow → List Attempt → List Entry
  | _, [] => []
  | row, a :: l => ⟨a, (attempt row a).2, (attempt row a).1⟩ :: history (attempt row a).1 l

/-- the attempts come at nondecreasing times, none before the row -/
structure Timed (row : AuthRow) (l : List Attempt) : Prop where
  upTo : ∀ a ∈ l, row.UpTo a.observedAt
  sorted : l.Pairwise (fun a b => a.observedAt ≤ b.observedAt)

theorem AuthRow.UpTo.trans {row : AuthRow} {t u : Time} (h : row.UpTo t)
    (hle : t ≤ u) : row.UpTo u :=
  fun s hs => (h s hs).trans hle

variable {l : List Attempt}

theorem Timed.tail {row : AuthRow} {a : Attempt} (h : row.Sound) (ht : Timed row (a :: l)) :
    (attempt row a).1.Sound ∧ Timed (attempt row a).1 l := by
  have hup := ht.upTo a List.mem_cons_self
  have hsorted := List.pairwise_cons.mp ht.sorted
  exact ⟨attempt_sound h hup, fun b hb => (attempt_upTo h hup).trans (hsorted.1 b hb), hsorted.2⟩

theorem history_attempts (row : AuthRow) (l : List Attempt) :
    (history row l).map Entry.attempt = l := by
  induction l generalizing row with
  | nil => rfl
  | cons a l ih => rw [history, List.map_cons, ih]

theorem history_not_raised {row : AuthRow} (h : row.Sound) (ht : Timed row l) :
    ∀ x ∈ history row l, ∀ e, x.outcome ≠ .raised e := by
  induction l generalizing row with
  | nil => simp [history]
  | cons a l ih =>
    obtain ⟨hs, ht'⟩ := ht.tail h
    rw [history, List.forall_mem_cons]
    exact ⟨attempt_not_raised h (ht.upTo a List.mem_cons_self), ih hs ht'⟩

/-! ### the lockout -/

theorem history_locked {s : OperatorAuthState} {u : Time} (hs : s.Valid) (ht : Timed (some s) l)
    (hu : s.lockedUntil = some u) :
    ∀ x ∈ history (some s) l, x.attempt.observedAt < u → x.outcome = .blocked := by
  induction l with
  | nil => simp [history]
  | cons a l ih =>
    have hsound : AuthRow.Sound (some s) := fun s' hs' => by cases hs'; exact hs
    have hsorted := List.pairwise_cons.mp ht.sorted
    rcases attempt_cases hsound (ht.upTo a List.mem_cons_self) with ⟨-, heq⟩ | ⟨hopen, -⟩
    · -- the row stays, so the rest of the history is refused the same way
      rw [history, heq, List.forall_mem_cons]
      refine ⟨fun _ => rfl, ih ⟨fun b hb => ht.upTo b (List.mem_cons_of_mem a hb), hsorted.2⟩⟩
    · have hlate : u ≤ a.observedAt := by
        by_contra hlt
        exact hopen ⟨u, hu, not_le.mp hlt⟩
      intro x hx hlt
      have hmem : x.attempt ∈ a :: l := history_attempts (some s) (a :: l) ▸ List.mem_map_of_mem hx
      rcases List.mem_cons.mp hmem with hxa | hxl
      · rw [hxa] at hlt
        linarith
      · have := hsorted.1 _ hxl
        linarith

def Entry.Fifth (x : Entry) : Prop :=
  x.outcome = .counted ∧ ∃ s ∈ x.row, s.failedAttempts = loginMaxFailures

theorem history_fifth {row : AuthRow} (h : row.Sound) (ht : Timed row l)
    {before after : List Entry} {x : Entry} (hsplit : history row l = before ++ x :: after)
    (hx : x.Fifth) : ∀ y ∈ after, y.attempt.observedAt < x.attempt.observedAt + loginLockout →
    y.outcome = .blocked := by
  induction l generalizing row before with
  | nil => simp [history] at hsplit
  | cons a l ih =>
    obtain ⟨hs, ht'⟩ := ht.tail h
    rw [history] at hsplit
    cases before with
    | cons b before =>
      rw [List.cons_append, List.cons.injEq] at hsplit
      exact ih hs ht' hsplit.2
    | nil =>
      rw [List.nil_append, List.cons.injEq] at hsplit
      obtain ⟨rfl, rfl⟩ := hsplit
      obtain ⟨hcounted, s, hrow, hfive⟩ := hx
      have hup := ht.upTo a List.mem_cons_self
      have hupdated : s.updatedAt = a.observedAt := by
        rcases attempt_cases h hup with ⟨-, heq⟩ | ⟨-, ⟨-, heq⟩ | ⟨-, -, heq⟩ | ⟨-, -, heq⟩⟩ <;>
          simp only [heq, reduceCtorEq] at hcounted
        simp only [heq, Option.mem_def, Option.some.injEq] at hrow
        rw [← hrow]
        rfl
      have hvalid := hs s hrow
      have hlock := hvalid.fifth hfive
      rw [hupdated] at hlock
      rw [show (attempt row a).1 = some s from hrow] at ht' ⊢
      exact history_locked hvalid ht' hlock

/-! ### failures in an interval -/

def Within15 (start t : Time) : Prop := start ≤ t ∧ t < start + loginWindow

instance Within15.decidable (start t : Time) : Decidable (Within15 start t) := by
  unfold Within15
  infer_instance

/-- how many counted failures a state still lets into the interval; a window that began inside the
interval outlasts it, and so does the lockout of a fifth failure less than half an hour before its
end -/
def OperatorAuthState.potential (start : Time) (s : OperatorAuthState) : Nat :=
  match s.windowStartedAt with
  | none => 8
  | some w =>
    if s.failedAttempts = loginMaxFailures then
      if start + loginWindow ≤ s.updatedAt + loginLockout then 0 else 8
    else if start ≤ w then loginMaxFailures - s.failedAttempts
    else if start ≤ w + loginWindow then 9 - s.failedAttempts
    else 8

def AuthRow.potential (start : Time) (row : AuthRow) : Nat := (row.map (·.potential start)).getD 8

namespace OperatorAuthState

variable {s : OperatorAuthState} {start t : Time}

theorem lockout_eq : loginLockout = loginWindow + loginWindow := rfl

theorem window_nonneg : (0 : Time) ≤ loginWindow := by decide

/-- a first failure leaves room for four more, and for eight when its window began before the
interval -/
theorem potential_first (start t : Time) (v : Nat) :
    potential start ⟨1, some t, none, t, v⟩ + (if start ≤ t then 1 else 0) ≤ 8 ∧
      (start ≤ t → potential start ⟨1, some t, none, t, v⟩ + 1 ≤ 5) := by
  unfold potential loginMaxFailures
  simp only [OfNat.one_ne_ofNat, if_false]
  constructor
  · split
    · omega
    · split <;> omega
  · intro hle
    rw [if_pos hle]

end OperatorAuthState

theorem AuthRow.failed_cases {s : OperatorAuthState} {t : Time} (h : s.Valid)
    (hlock : ¬ s.locked t) : (∀ w ∈ s.windowStartedAt, w + loginWindow ≤ t) ∧
    failed t s = ⟨1, some t, none, t, s.version + 1⟩ ∨
      ∃ w ∈ s.windowStartedAt, t < w + loginWindow ∧ s.failedAttempts < loginMaxFailures ∧
      failed t s = ⟨s.failedAttempts + 1, some w,
        if s.failedAttempts + 1 = loginMaxFailures then some (t + loginLockout) else none, t,
            s.version + 1⟩ := by
  rcases failureCounts_cases t s with ⟨heq, hover⟩ | ⟨w, hw, hin, heq⟩
  · refine .inl ⟨hover, ?_⟩
    unfold failed
    rw [heq]
    rfl
  · have hnot5 : s.failedAttempts ≠ loginMaxFailures := fun h5 =>
      absurd (h.window_over h5 hlock hw) (not_le.mpr hin)
    have hlt := lt_of_le_of_ne h.count_le hnot5
    refine .inr ⟨w, hw, hin, hlt, ?_⟩
    unfold failed
    rw [heq]
    have hiff : s.failedAttempts + 1 ≥ loginMaxFailures ↔
      s.failedAttempts + 1 = loginMaxFailures := by omega
    simp only [hiff]

theorem potential_failed {s : OperatorAuthState} {start t : Time} (h : s.Valid)
    (hle : s.updatedAt ≤ t) (hlock : ¬ s.locked t) (hend : t < start + loginWindow) :
    (AuthRow.failed t s).potential start + (if start ≤ t then 1 else 0) ≤ s.potential start := by
  have hlockout := OperatorAuthState.lockout_eq
  have hwindow := OperatorAuthState.window_nonneg
  rcases AuthRow.failed_cases h hlock with ⟨hover, heq⟩ | ⟨w, hw, hin, hlt, heq⟩
  · -- a new window
    obtain ⟨hany, hinside⟩ := OperatorAuthState.potential_first start t (s.version + 1)
    rw [heq]
    generalize OperatorAuthState.potential start ⟨1, some t, none, t, s.version + 1⟩ = p at *
    unfold OperatorAuthState.potential
    cases hw : s.windowStartedAt with
    | none => exact hany
    | some w =>
      have hwt := hover w hw
      have hwu := h.order w hw
      simp only
      by_cases h5 : s.failedAttempts = loginMaxFailures
      · have hlate : s.updatedAt + loginLockout ≤ t := by
          by_contra hlt
          exact hlock ⟨_, h.fifth h5, not_le.mp hlt⟩
        have hshort : ¬ start + loginWindow ≤ s.updatedAt + loginLockout := by linarith
        rw [if_pos h5, if_neg hshort]
        exact hany
      · have hcount := lt_of_le_of_ne h.count_le h5
        have hbefore : ¬ start ≤ w := by linarith
        rw [if_neg h5, if_neg hbefore]
        by_cases hnear : start ≤ w + loginWindow
        · have hst : start ≤ t := hnear.trans hwt
          have hfive := hinside hst
          rw [if_pos hnear, if_pos hst]
          unfold loginMaxFailures at hcount
          omega
        · rw [if_neg hnear]
          exact hany
  · -- one more in the window
    have hwu := h.order w hw
    rw [heq]
    unfold OperatorAuthState.potential
    rw [show s.windowStartedAt = some w from hw]
    simp only [if_neg hlt.ne]
    unfold loginMaxFailures at hlt ⊢
    by_cases h5 : s.failedAttempts + 1 = 5
    · rw [if_pos h5]
      by_cases hsw : start ≤ w
      · rw [if_pos hsw, if_pos (by linarith)]
        split <;> omega
      · by_cases hnear : start ≤ w + loginWindow
        · rw [if_neg hsw, if_pos hnear, if_pos (by linarith)]
          split <;> omega
        · rw [if_neg hsw, if_neg hnear]
          have hst : ¬ start ≤ t := by linarith
          rw [if_neg hst]
          split <;> omega
    · rw [if_neg h5]
      by_cases hsw : start ≤ w
      · rw [if_pos hsw, if_pos hsw]
        split <;> omega
      · rw [if_neg hsw, if_neg hsw]
        by_cases hnear : start ≤ w + loginWindow
        · rw [if_pos hnear, if_pos hnear]
          split <;> omega
        · have hst : ¬ start ≤ t := by linarith
          rw [if_neg hnear, if_neg hnear, if_neg hst]

theorem AuthRow.Sound.potential_le {row : AuthRow} (h : row.Sound) (start : Time) :
    row.potential start ≤ 8 := by
  cases row with
  | none => exact le_rfl
  | some s =>
    show s.potential start ≤ 8
    have hvalid := h s rfl
    unfold OperatorAuthState.potential
    cases hw : s.windowStartedAt with
    | none => exact le_rfl
    | some w =>
      have hpos : s.failedAttempts ≠ 0 := fun h0 => by
        rw [(hvalid.clean h0).1] at hw
        cases hw
      unfold loginMaxFailures
      simp only
      split_ifs <;> omega

/-- an attempt before the end of an interval that does not succeed uses up the place it takes -/
theorem potential_attempt {row : AuthRow} {a : Attempt} {start : Time} (h : row.Sound)
    (hle : row.UpTo a.observedAt) (hend : a.observedAt < start + loginWindow)
    (hnone : (attempt row a).2 ≠ .succeeded) : (attempt row a).1.potential start +
        (if (attempt row a).2 = .counted ∧ Within15 start a.observedAt then 1 else 0) ≤
        row.potential start := by
  have hcurrent : (row.current a.observedAt).potential start = row.potential start := by
    cases row with
    | none => rfl
    | some s => rfl
  rcases attempt_cases h hle with ⟨-, heq⟩ | ⟨hlock, ⟨-, heq⟩ | ⟨-, -, heq⟩ | ⟨-, -, heq⟩⟩
  · rw [heq]
    simp
  · rw [heq]
    simp
  · rw [heq] at hnone
    exact absurd rfl hnone
  · have hstep := potential_failed (h.current a.observedAt) hle.current hlock hend
    rw [heq, ← hcurrent]
    simpa [AuthRow.potential, Within15, hend] using hstep

def Entry.CountedIn (start : Time) (x : Entry) : Prop := x.outcome = .counted ∧
    Within15 start x.attempt.observedAt

instance Entry.CountedIn.decidable (start : Time) (x : Entry) : Decidable (x.CountedIn start) := by
  unfold CountedIn
  infer_instance

def countedIn (start : Time) (entries : List Entry) : Nat :=
  entries.countP (fun x => x.CountedIn start)

theorem countedIn_late {row : AuthRow} {start : Time}
    (hlate : ∀ a ∈ l, start + loginWindow ≤ a.observedAt) :
    countedIn start (history row l) = 0 := by
  refine List.countP_eq_zero.mpr fun x hx => ?_
  have hmem : x.attempt ∈ l := history_attempts row l ▸ List.mem_map_of_mem hx
  rw [decide_eq_true_iff]
  rintro ⟨-, -, hlt⟩
  exact absurd (hlate _ hmem) (not_le.mpr hlt)

/-- with no success before the end of the interval, the row bounds what is counted in it -/
theorem countedIn_le_potential {row : AuthRow} {start : Time} (h : row.Sound) (ht : Timed row l)
    (hnone : ∀ x ∈ history row l, x.outcome = .succeeded →
    start + loginWindow ≤ x.attempt.observedAt) :
    countedIn start (history row l) ≤ row.potential start := by
  induction l generalizing row with
  | nil => exact Nat.zero_le _
  | cons a l ih =>
    obtain ⟨hs, ht'⟩ := ht.tail h
    have hsorted := List.pairwise_cons.mp ht.sorted
    by_cases hend : a.observedAt < start + loginWindow
    · rw [history, List.forall_mem_cons] at hnone
      have hopen : (attempt row a).2 ≠ .succeeded :=
        fun hok => absurd (hnone.1 hok) (not_le.mpr hend)
      have hstep := potential_attempt h (ht.upTo a List.mem_cons_self) hend hopen
      have hrest := ih hs ht' hnone.2
      rw [history, countedIn, List.countP_cons, if_congr decide_eq_true_iff rfl rfl]
      exact (Nat.add_le_add_right hrest _).trans hstep
    · rw [countedIn_late]
      · exact Nat.zero_le _
      · rw [List.forall_mem_cons]
        exact ⟨not_lt.mp hend, fun b hb => (not_lt.mp hend).trans (hsorted.1 b hb)⟩

theorem countedIn_le {row : AuthRow} {start : Time} (h : row.Sound) (ht : Timed row l)
    (hnone : ∀ x ∈ history row l, x.outcome = .succeeded → ¬ Within15 start x.attempt.observedAt) :
    countedIn start (history row l) ≤ 8 := by
  induction l generalizing row with
  | nil => exact Nat.zero_le _
  | cons a l ih =>
    obtain ⟨hs, ht'⟩ := ht.tail h
    have hsorted := List.pairwise_cons.mp ht.sorted
    by_cases hbegun : start ≤ a.observedAt
    · -- from here on every attempt is in the interval or after it
      refine (countedIn_le_potential h ht fun x hx hok => ?_).trans (h.potential_le start)
      have hmem : x.attempt ∈ a :: l := history_attempts row (a :: l) ▸ List.mem_map_of_mem hx
      have hafter : a.observedAt ≤ x.attempt.observedAt := by
        rcases List.mem_cons.mp hmem with hxa | hxl
        · rw [hxa]
        · exact hsorted.1 _ hxl
      by_contra hlt
      exact hnone x hx hok ⟨hbegun.trans hafter, not_le.mp hlt⟩
    · rw [history, List.forall_mem_cons] at hnone
      have hout : ¬ Entry.CountedIn start ⟨a, (attempt row a).2, (attempt row a).1⟩ :=
        fun hin => hbegun hin.2.1
      rw [history, countedIn, List.countP_cons_of_neg (by rwa [decide_eq_true_iff])]
      exact ih hs ht' hnone.2

/-- **at nondecreasing times no check of the throttle raises, no fifteen minutes without a success
count more than eight failures, and the fifth failure of a window keeps every password of the next
half hour unread** -/
theorem throttle_holds (attempts : List Attempt)
    (hsorted : attempts.Pairwise (fun a b => a.observedAt ≤ b.observedAt)) :
    (∀ x ∈ history none attempts, ∀ e, x.outcome ≠ .raised e) ∧
      (∀ start,
      (∀ x ∈ history none attempts, x.outcome = .succeeded →
      ¬ Within15 start x.attempt.observedAt) → countedIn start (history none attempts) ≤ 8) ∧
    (∀ before x after, history none attempts = before ++ x :: after → x.Fifth →
      ∀ y ∈ after, y.attempt.observedAt < x.attempt.observedAt + loginLockout →
      y.outcome = .blocked) := by
  have hsound : AuthRow.Sound none := nofun
  have htimed : Timed none attempts := ⟨fun a _ => nofun, hsorted⟩
  exact ⟨history_not_raised hsound htimed, fun start hnone => countedIn_le hsound htimed hnone,
    fun before x after hsplit hx => history_fifth hsound htimed hsplit hx⟩

namespace Demo

/-- nine wrong passwords: one at the start, three just before fifteen minutes and five just after -/
def nineWrong : List Attempt :=
  [0, 899999997, 899999998, 899999999, 900000000, 900000001, 900000002, 900000003, 900000004].map
    (⟨·, false, true⟩)

/-- eight of them fall into one interval of fifteen minutes: the bound is reached -/
theorem nineWrong_throttled : countedIn 100 (history none nineWrong) = 8 ∧
    (∀ x ∈ history none nineWrong, ∀ e, x.outcome ≠ .raised e) :=
  ⟨by decide, (throttle_holds nineWrong (by decide)).1⟩

end Demo

end Maais

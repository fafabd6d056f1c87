import Maais.Domain

/-!
# Pacing of requests

A request waits until its own share of the window has passed since the request before it. The share
of the first request of a window is never waited for behind it, so a window may hold more than the
limit.

* `Timed`  the clock of a sequence: it never goes back, and a sleep lasts as long as it was asked
  to;
* `Fits`  a request fits with those behind it whenever they are light enough to be released within
  its window;
* `window_limited_iff`  the sequences of weights whose windows never hold more than the limit.
-/

namespace Maais
open Lib

structure RequestPacer where
  limit : ℤ
  windowSeconds : ℚ
  limit_pos : 0 < limit
  window_pos : 0 < windowSeconds

/-- a call of `acquire`: the two times the clock may be read at -/
structure Acquire where
  weight : ℤ
  now : ℚ
  woken : ℚ

namespace RequestPacer

variable (p : RequestPacer)

def minimumGap (weight : ℤ) : ℚ := p.windowSeconds * weight / p.limit

/-- how long the call sleeps; `last` is `_last_request_at` -/
def wait (last : Option ℚ) (c : Acquire) : ℚ :=
  match last with
  | none => 0
  | some last => if c.weight ≤ 0 then 0 else p.minimumGap c.weight - (c.now - last)

def releasedAt (last : Option ℚ) (c : Acquire) : ℚ := if 0 < p.wait last c then c.woken else c.now

/-- `acquire`: what is remembered, and the time the call returns -/
def acquire (last : Option ℚ) (c : Acquire) : Py (Option ℚ × ℚ) :=
  if c.weight ≤ 0 then .ok (last, p.releasedAt last c)
  else if c.weight > p.limit then
    .error (.valueError "single request weight exceeds the configured limit")
  else .ok (some (p.releasedAt last c), p.releasedAt last c)

def releases : Option ℚ → List Acquire → List (ℚ × ℤ)
  | _, [] => []
  | last, c :: calls =>
    match p.acquire last c with
    | .ok (last, released) => (released, c.weight) :: releases last calls
    | .error _ => releases last calls

def Timed : Option ℚ → ℚ → List Acquire → Prop
  | _, _, [] => True
  | last, t, c :: calls =>
    t ≤ c.now ∧ (0 < p.wait last c → c.now + p.wait last c ≤ c.woken) ∧
      match p.acquire last c with
      | .ok (last, released) => Timed last released calls
      | .error _ => Timed last c.now calls

def weightIn (a : ℚ) (released : List (ℚ × ℤ)) : ℤ :=
  ((released.filter fun r => a ≤ r.1 ∧ r.1 < a + p.windowSeconds).map (·.2)).sum

end RequestPacer

def pacedWeight (ws : List ℤ) : ℤ := (ws.map (max 0)).sum

def Fits (limit : ℤ) : List ℤ → Prop
  | [] => True
  | w :: ws => (0 < w → ∀ mid, mid <+: ws → pacedWeight mid < limit → w + mid.sum ≤ limit) ∧
    Fits limit ws

@[simp] theorem pacedWeight_nil : pacedWeight [] = 0 := rfl

@[simp] theorem pacedWeight_cons (w : ℤ) (ws : List ℤ) :
    pacedWeight (w :: ws) = max 0 w + pacedWeight ws := by
  simp [pacedWeight]

namespace RequestPacer

variable {p : RequestPacer} {last : Option ℚ} {t : ℚ} {c : Acquire} {calls : List Acquire}

/-! ## one request -/

theorem acquire_light (h : c.weight ≤ 0) : p.acquire last c = .ok (last, c.now) := by
  have hwait : ¬ 0 < p.wait last c := by
    unfold wait
    cases last with
    | none => exact lt_irrefl 0
    | some l => simp [h]
  rw [acquire, if_pos h, releasedAt, if_neg hwait]

theorem acquire_paced (h : 0 < c.weight) (hlimit : c.weight ≤ p.limit) :
    p.acquire last c = .ok (some (p.releasedAt last c), p.releasedAt last c) := by
  rw [acquire, if_neg (not_le.mpr h), if_neg (not_lt.mpr hlimit)]

theorem wait_some (h : 0 < c.weight) (l : ℚ) :
    p.wait (some l) c = p.minimumGap c.weight - (c.now - l) :=
  if_neg (not_le.mpr h)

/-- a request is released no earlier than it is made, and its share of the window behind the one
before it -/
theorem releasedAt_ge (htimed : 0 < p.wait last c → c.now + p.wait last c ≤ c.woken) :
    c.now ≤ p.releasedAt last c ∧
      ∀ l ∈ last, 0 < c.weight → l + p.minimumGap c.weight ≤ p.releasedAt last c := by
  unfold releasedAt
  split_ifs with hwait
  · have hwoken := htimed hwait
    refine ⟨by linarith, fun l hl hweight => ?_⟩
    rw [Option.mem_def.mp hl, wait_some hweight] at hwoken
    linarith
  · refine ⟨le_rfl, fun l hl hweight => ?_⟩
    rw [Option.mem_def.mp hl, wait_some hweight, not_lt] at hwait
    linarith

theorem timed_cons (hlimit : c.weight ≤ p.limit) (h : p.Timed last t (c :: calls)) :
    ∃ last' released, p.releases last (c :: calls) = (released, c.weight) ::
      p.releases last' calls ∧ t ≤ released ∧ p.Timed last' released calls ∧
      (c.weight ≤ 0 → last' = last) ∧
      (0 < c.weight → last' = some released ∧ ∀ l ∈ last, l + p.minimumGap c.weight ≤
      released) := by
  obtain ⟨hnow, hsleep, hrest⟩ := h
  rcases le_or_gt c.weight 0 with hlight | hpaced
  · rw [acquire_light hlight] at hrest
    refine ⟨last, c.now, by rw [releases, acquire_light hlight], hnow, hrest,
      fun _ => rfl, fun h => absurd h ?_⟩
    exact not_lt.mpr hlight
  · rw [acquire_paced hpaced hlimit] at hrest
    obtain ⟨hge, hgap⟩ := releasedAt_ge hsleep
    exact ⟨_, _, by rw [releases, acquire_paced hpaced hlimit], hnow.trans hge, hrest,
      fun h => absurd hpaced (not_lt.mpr h), fun h => ⟨rfl, fun l hl => hgap l hl h⟩⟩

/-! ## sequences -/

theorem releases_ge (hlimit : ∀ c ∈ calls, c.weight ≤ p.limit) (h : p.Timed last t calls) :
    ∀ r ∈ p.releases last calls, t ≤ r.1 := by
  induction calls generalizing last t with
  | nil => exact fun r hr => nomatch hr
  | cons c calls ih =>
    obtain ⟨last', released, heq, hle, htimed, -⟩ := timed_cons (hlimit c List.mem_cons_self) h
    intro r hr
    rw [heq] at hr
    rcases List.mem_cons.mp hr with rfl | hr
    · exact hle
    · exact hle.trans (ih (fun c hc => hlimit c (List.mem_cons_of_mem _ hc)) htimed r hr)

/-- behind a request, those that are released before `b` come first, and their shares of the window
have passed -/
theorem releases_before {l b : ℚ} (hlimit : ∀ c ∈ calls, c.weight ≤ p.limit) (hb : l < b)
    (h : p.Timed (some l) t calls) : ∃ mid, mid <+: calls.map (·.weight) ∧
      ((p.releases (some l) calls).filter (·.1 < b)).map (·.2) = mid ∧
      l + p.minimumGap (pacedWeight mid) < b := by
  induction calls generalizing l t with
  | nil => exact ⟨[], List.nil_prefix, rfl, by simpa [minimumGap] using hb⟩
  | cons c calls ih =>
    obtain ⟨last', released, heq, hle, htimed, hlight, hpaced⟩ :=
      timed_cons (hlimit c List.mem_cons_self) h
    have hrest : ∀ c ∈ calls, c.weight ≤ p.limit := fun c hc => hlimit c (List.mem_cons_of_mem _ hc)
    rw [heq]
    by_cases hbefore : released < b
    · rw [List.filter_cons_of_pos (by simpa using hbefore), List.map_cons, List.map_cons]
      rcases le_or_gt c.weight 0 with hweight | hweight
      · obtain ⟨mid, hprefix, hmid, hgap⟩ := ih hrest hb (hlight hweight ▸ htimed)
        refine ⟨c.weight :: mid,
          List.prefix_cons_inj _ |>.mpr hprefix, by rw [hlight hweight, hmid], ?_⟩
        rw [pacedWeight_cons, max_eq_left hweight, zero_add]
        exact hgap
      · obtain ⟨rfl, hafter⟩ := hpaced hweight
        obtain ⟨mid, hprefix, hmid, hgap⟩ := ih hrest hbefore htimed
        refine ⟨c.weight :: mid, List.prefix_cons_inj _ |>.mpr hprefix, by rw [hmid], ?_⟩
        have hshare : p.minimumGap (pacedWeight (c.weight :: mid)) = p.minimumGap c.weight +
            p.minimumGap (pacedWeight mid) := by
          rw [pacedWeight_cons, max_eq_right hweight.le, minimumGap, minimumGap, minimumGap]
          push_cast
          ring
        rw [hshare]
        linarith [hafter l rfl]
    · have hnone : ((released, c.weight) :: p.releases last' calls).filter (·.1 < b) = [] := by
        rw [List.filter_eq_nil_iff]
        intro r hr
        rw [decide_eq_true_eq, not_lt]
        rcases List.mem_cons.mp hr with rfl | hr
        · exact not_lt.mp hbefore
        · exact (not_lt.mp hbefore).trans (releases_ge hrest htimed r hr)
      exact ⟨[], List.nil_prefix, by rw [hnone]; rfl, by simpa [minimumGap] using hb⟩

/-- **fitting sequences never exceed a window** -/
theorem weightIn_le (hlimit : ∀ c ∈ calls, c.weight ≤ p.limit)
    (hfits : Fits p.limit (calls.map (·.weight))) (h : p.Timed last t calls) (a : ℚ) :
    p.weightIn a (p.releases last calls) ≤ p.limit := by
  induction calls generalizing last t with
  | nil => exact p.limit_pos.le
  | cons c calls ih =>
    obtain ⟨last', released, heq, hle, htimed, hlight, hpaced⟩ :=
      timed_cons (hlimit c List.mem_cons_self) h
    have hrest : ∀ c ∈ calls, c.weight ≤ p.limit := fun c hc => hlimit c (List.mem_cons_of_mem _ hc)
    obtain ⟨hfit, hfits⟩ := hfits
    have htail := ih hrest hfits htimed
    rw [heq]
    by_cases hin : a ≤ released ∧ released < a + p.windowSeconds
    · rw [weightIn, List.filter_cons_of_pos (by simpa using hin), List.map_cons, List.sum_cons]
      rcases le_or_gt c.weight 0 with hweight | hweight
      · exact (add_le_of_nonpos_left hweight).trans htail
      · -- everything behind the request is in the window until its end
        obtain ⟨rfl, -⟩ := hpaced hweight
        have hwindow :
            (p.releases (some released) calls).filter (fun r => a ≤ r.1 ∧
            r.1 < a + p.windowSeconds) =
            (p.releases (some released) calls).filter (·.1 < a + p.windowSeconds) := by
          refine List.filter_congr fun r hr => ?_
          rw [decide_eq_decide]
          exact and_iff_right (hin.1.trans (releases_ge hrest htimed r hr))
        obtain ⟨mid, hprefix, hmid, hgap⟩ := releases_before hrest hin.2 htimed
        rw [hwindow, hmid]
        refine hfit hweight mid hprefix ?_
        have hpos : (0 : ℚ) < p.limit := by exact_mod_cast p.limit_pos
        have hshare : p.windowSeconds * pacedWeight mid / p.limit < p.windowSeconds := by
          have := hin.1
          rw [minimumGap] at hgap
          linarith
        rw [div_lt_iff₀ hpos] at hshare
        exact_mod_cast lt_of_mul_lt_mul_left hshare p.window_pos.le
    · rw [weightIn, List.filter_cons_of_neg (by simpa using hin)]
      exact htail

/-! ## requests without delay -/

def prompt (p : RequestPacer) (last : Option ℚ) (t : ℚ) (weight : ℤ) : Acquire :=
  ⟨weight, t, t + p.wait last ⟨weight, t, 0⟩⟩

theorem minimumGap_nonneg {w : ℤ} (h : 0 ≤ w) : 0 ≤ p.minimumGap w := by
  have hpos : (0 : ℚ) < p.limit := by exact_mod_cast p.limit_pos
  have hw : (0 : ℚ) ≤ w := by exact_mod_cast h
  exact div_nonneg (mul_nonneg p.window_pos.le hw) hpos.le

theorem timed_prompt (weight : ℤ) (hlast : ∀ l ∈ last, l ≤ t) (hlimit : weight ≤ p.limit) :
    ∃ last' released, p.acquire last (p.prompt last t weight) = .ok (last', released) ∧
      t ≤ released ∧ released ≤ t + p.minimumGap (max 0 weight) ∧ (∀ l ∈ last', l ≤ released) ∧
      (last.isSome → last'.isSome) ∧ ∀ calls, p.Timed last' released calls →
      p.Timed last t (p.prompt last t weight :: calls) := by
  rcases le_or_gt weight 0 with hlight | hpaced
  · have hacquire : p.acquire last (p.prompt last t weight) = .ok (last, t) := acquire_light hlight
    refine ⟨last, t, hacquire, le_rfl, ?_, hlast, id,
      fun calls h => ⟨le_rfl, fun _ => le_rfl, by rwa [hacquire]⟩⟩
    rw [max_eq_left hlight]
    simp [minimumGap]
  · have hacquire := @acquire_paced p last (p.prompt last t weight) hpaced hlimit
    have hgap := minimumGap_nonneg (p := p) hpaced.le
    refine ⟨_, _, hacquire, (releasedAt_ge fun _ => le_rfl).1, ?_,
      fun l hl => (Option.some.inj hl).ge,
      fun _ => rfl, fun calls h => ⟨le_rfl, fun _ => le_rfl, by rwa [hacquire]⟩⟩
    rw [max_eq_right hpaced.le, releasedAt]
    split_ifs with hwait
    · show t + p.wait last (p.prompt last t weight) ≤ _
      cases last with
      | none => exact absurd hwait (lt_irrefl 0)
      | some l =>
        rw [wait_some (c := p.prompt (some l) t weight) hpaced]
        have hl := hlast l rfl
        show t + (p.minimumGap weight - (t - l)) ≤ _
        linarith
    · show t ≤ t + p.minimumGap weight
      linarith

theorem Timed.mono {t' : ℚ} (ht : t ≤ t') (h : p.Timed last t' calls) : p.Timed last t calls := by
  cases calls with
  | nil => trivial
  | cons c calls => exact ⟨ht.trans h.1, h.2⟩

theorem exists_timed (ws : List ℤ) (hlast : ∀ l ∈ last, l ≤ t) (hlimit : ∀ w ∈ ws, w ≤ p.limit) :
    ∃ calls, calls.map (·.weight) = ws ∧ p.Timed last t calls := by
  induction ws generalizing last t with
  | nil => exact ⟨[], rfl, trivial⟩
  | cons w ws ih =>
    obtain ⟨last', released, -, -, -, hlast', -, htimed⟩ :=
      timed_prompt w hlast (hlimit w List.mem_cons_self)
    obtain ⟨calls, hcalls, h⟩ := ih hlast' fun x hx => hlimit x (List.mem_cons_of_mem w hx)
    exact ⟨p.prompt last t w :: calls, by rw [List.map_cons, hcalls]; rfl, htimed calls h⟩

theorem limit_of_map {ws : List ℤ} (h : calls.map (·.weight) = ws)
    (hlimit : ∀ w ∈ ws, w ≤ p.limit) : ∀ c ∈ calls, c.weight ≤ p.limit :=
  fun _ hc => hlimit _ (h ▸ List.mem_map_of_mem hc)

/-- requests that are light enough can all be released before `b`, and the others behind it -/
theorem exists_releases_before (mid suf : List ℤ) {l b : ℚ} (hl : l ≤ t)
    (hlimit : ∀ w ∈ mid ++ suf, w ≤ p.limit) (hb : t + p.minimumGap (pacedWeight mid) < b) :
    ∃ calls, calls.map (·.weight) = mid ++ suf ∧ p.Timed (some l) t calls ∧
      ((p.releases (some l) calls).filter (·.1 < b)).map (·.2) = mid := by
  induction mid generalizing t l with
  | nil =>
    obtain ⟨calls, hcalls, h⟩ := @exists_timed p (some l) (max t b) suf
      (fun x hx => (Option.some.inj hx) ▸ hl.trans (le_max_left t b)) hlimit
    refine ⟨calls, hcalls, h.mono (le_max_left t b), ?_⟩
    rw [List.filter_eq_nil_iff.mpr, List.map_nil]
    intro r hr
    rw [decide_eq_true_eq, not_lt]
    exact (le_max_right t b).trans (releases_ge (limit_of_map hcalls hlimit) h r hr)
  | cons w mid ih =>
    obtain ⟨last', released, hacquire, -, hle, hlast', hsome, htimed⟩ :=
      @timed_prompt p (some l) t w (fun x hx => (Option.some.inj hx) ▸ hl)
      (hlimit w List.mem_cons_self)
    obtain ⟨l', rfl⟩ := Option.isSome_iff_exists.mp (hsome rfl)
    have hshare : p.minimumGap (pacedWeight (w :: mid)) = p.minimumGap (max 0 w) +
        p.minimumGap (pacedWeight mid) := by
      rw [pacedWeight_cons, minimumGap, minimumGap, minimumGap]
      push_cast
      ring
    have hpaced : 0 ≤ pacedWeight mid := List.sum_nonneg fun x hx => by
      obtain ⟨y, -, rfl⟩ := List.mem_map.mp hx
      exact le_max_left 0 y
    rw [hshare] at hb
    have hgap := minimumGap_nonneg (p := p) hpaced
    obtain ⟨calls, hcalls, h, hreleases⟩ :=
      ih (hlast' l' rfl) (fun x hx => hlimit x (List.mem_cons_of_mem w hx)) (by linarith)
    refine ⟨p.prompt (some l) t w :: calls, by rw [List.map_cons, hcalls]; rfl, htimed calls h, ?_⟩
    rw [releases, hacquire]
    show (((released, w) :: _).filter _).map _ = _
    rw [List.filter_cons_of_pos (by simp only [decide_eq_true_eq]; linarith),
      List.map_cons, hreleases]

theorem exists_window (pre : List ℤ) {w : ℤ} (mid suf : List ℤ) (hlast : ∀ l ∈ last, l ≤ t)
    (hlimit : ∀ x ∈ pre ++ w :: (mid ++ suf), x ≤ p.limit) (hw : 0 < w)
    (hmid : pacedWeight mid < p.limit) :
    ∃ calls a, calls.map (·.weight) = pre ++ w :: (mid ++ suf) ∧ p.Timed last t calls ∧ t < a ∧
      p.weightIn a (p.releases last calls) = w + mid.sum := by
  have hwindow := p.window_pos
  have hpos : (0 : ℚ) < p.limit := by exact_mod_cast p.limit_pos
  have hshare : ∀ {x : ℤ}, x ≤ p.limit → p.minimumGap x ≤ p.windowSeconds := by
    intro x hx
    rw [minimumGap, div_le_iff₀ hpos]
    exact mul_le_mul_of_nonneg_left (by exact_mod_cast hx) hwindow.le
  induction pre generalizing last t with
  | nil =>
    rw [List.nil_append] at hlimit
    -- the request is made a window later, so it does not wait
    set a := t + p.windowSeconds with ha
    have hwlimit := hlimit w List.mem_cons_self
    have hwait : ¬ 0 < p.wait last ⟨w, a, a⟩ := by
      cases last with
      | none => exact lt_irrefl 0
      | some l =>
        have hl := hlast l rfl
        have hgap := hshare hwlimit
        rw [wait_some (c := ⟨w, a, a⟩) hw, not_lt]
        show p.minimumGap w - (a - l) ≤ 0
        linarith
    have hacquire : p.acquire last ⟨w, a, a⟩ = .ok (some a, a) := by
      rw [acquire_paced (c := ⟨w, a, a⟩) hw hwlimit, releasedAt, if_neg hwait]
    have hlt : p.minimumGap (pacedWeight mid) < p.windowSeconds := by
      rw [minimumGap, div_lt_iff₀ hpos]
      exact mul_lt_mul_of_pos_left (by exact_mod_cast hmid) hwindow
    obtain ⟨calls, hcalls, h, hreleases⟩ := exists_releases_before (p := p) mid suf (le_refl a)
      (fun x hx => hlimit x (List.mem_cons_of_mem w hx))
        (show a + _ < a + p.windowSeconds by linarith)
    refine ⟨⟨w, a, a⟩ :: calls, a, by rw [List.map_cons, hcalls]; rfl,
      ⟨by show t ≤ a; linarith, fun hw => absurd hw hwait, by rwa [hacquire]⟩, by linarith, ?_⟩
    have hall : (p.releases (some a) calls).filter (fun r => a ≤ r.1 ∧ r.1 < a + p.windowSeconds) =
        (p.releases (some a) calls).filter (·.1 < a + p.windowSeconds) := by
      refine List.filter_congr fun r hr => ?_
      rw [decide_eq_decide]
      refine and_iff_right (releases_ge (limit_of_map hcalls ?_) h r hr)
      exact fun x hx => hlimit x (List.mem_cons_of_mem w hx)
    rw [releases, hacquire]
    show p.weightIn a ((a, w) :: p.releases (some a) calls) = _
    rw [weightIn,
      List.filter_cons_of_pos (by simp only [decide_eq_true_eq]; exact ⟨le_rfl, by linarith⟩), hall,
      List.map_cons, hreleases, List.sum_cons]
  | cons x pre ih =>
    obtain ⟨last', released, hacquire, hle, -, hlast', -, htimed⟩ :=
      timed_prompt x hlast (hlimit x List.mem_cons_self)
    obtain ⟨calls, a, hcalls, h, ha, hweight⟩ :=
      ih hlast' fun y hy => hlimit y (List.mem_cons_of_mem x hy)
    refine ⟨p.prompt last t x :: calls, a, by rw [List.map_cons, hcalls]; rfl, htimed calls h,
      hle.trans_lt ha, ?_⟩
    rw [releases, hacquire]
    show p.weightIn a ((released, x) :: p.releases last' calls) = _
    rw [weightIn,
      List.filter_cons_of_neg (by simp only [decide_eq_true_eq, not_and]; intro hin; linarith)]
    exact hweight

/-- **which sequences of weights keep every window within the limit**, however their requests are
made -/
theorem window_limited_iff (p : RequestPacer) (ws : List ℤ) (hlimit : ∀ w ∈ ws, w ≤ p.limit) :
    (∀ calls t, calls.map (·.weight) = ws → p.Timed none t calls →
      ∀ a, p.weightIn a (p.releases none calls) ≤ p.limit) ↔ Fits p.limit ws := by
  constructor
  · intro hwindows
    -- every suffix fits: what stands before it is released before the window
    have hsuffix : ∀ pre suf, ws = pre ++ suf → Fits p.limit suf := by
      intro pre suf
      induction suf generalizing pre with
      | nil => exact fun _ => trivial
      | cons w suf ih =>
        intro heq
        refine ⟨fun hw mid hprefix hmid => ?_,
          ih (pre ++ [w]) (by rw [heq, List.append_assoc, List.singleton_append])⟩
        obtain ⟨rest, rfl⟩ := hprefix
        obtain ⟨calls, a, hcalls, h, -, hweight⟩ := @exists_window p none 0 pre w mid rest
          (fun l hl => (nomatch hl)) (heq ▸ hlimit) hw hmid
        exact hweight ▸ hwindows calls 0 (hcalls.trans heq.symm) h a
    exact hsuffix [] ws rfl
  · intro hfits calls t hcalls h a
    subst hcalls
    exact weightIn_le (fun c hc => hlimit _ (List.mem_map_of_mem hc)) hfits h a

end RequestPacer

/-! ## a heavy request before a light one -/

namespace Demo

def pacer : RequestPacer := ⟨10, 60, by decide, by decide⟩

/-- a request of the whole limit at 0, and one of weight 1 that is woken after its own share of the
minute -/
def heavyFirst : List Acquire := [⟨10, 0, 0⟩, ⟨1, 0, 6⟩]

theorem heavyFirst_exceeds : (∀ c ∈ heavyFirst, c.weight ≤ pacer.limit) ∧
    pacer.Timed none 0 heavyFirst ∧
    pacer.limit < pacer.weightIn 0 (pacer.releases none heavyFirst) := by
  refine ⟨by decide +kernel, ⟨le_rfl, fun h => ?_, ?_, fun _ => ?_, trivial⟩, by decide +kernel⟩
  · exact absurd h (by decide +kernel)
  · show (0 : ℚ) ≤ 0
    exact le_rfl
  · show (0 : ℚ) + RequestPacer.wait pacer (some 0) ⟨1, 0, 6⟩ ≤ 6
    decide +kernel

theorem halves_fit : Fits pacer.limit [5, 5] := by
  refine ⟨fun _ mid hmid _ => ?_, fun _ mid hmid _ => ?_, trivial⟩
  · rcases List.prefix_cons_iff.mp hmid with rfl | ⟨l, rfl, hl⟩
    · decide
    · rw [List.prefix_nil.mp hl]
      decide
  · rw [List.prefix_nil.mp hmid]
    decide

/-- two requests of half the limit keep every minute within it -/
theorem halves_limited : Fits pacer.limit [5, 5] ∧
    ∀ calls t, calls.map (·.weight) = [5, 5] → pacer.Timed none t calls →
      ∀ a, pacer.weightIn a (pacer.releases none calls) ≤ pacer.limit :=
  ⟨halves_fit, (RequestPacer.window_limited_iff pacer [5, 5] (by decide)).mpr halves_fit⟩

end Demo

end Maais

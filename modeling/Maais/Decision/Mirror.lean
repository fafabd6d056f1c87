import Maais.Decision.Official

/-!
# Long and short are treated alike

Every part of the decision analytics commutes with exchanging long and short in all agent outputs,
with one exception: a neutral decision names the long voters as its dissenters.

* `AgentEvaluationMatrix.mirror`  the matrix with long and short exchanged;
* `rows_mirror`, `decided_mirror`, `consensus_mirror`, `dissent_mirror`, `estimate_mirror` the parts
  of the evaluation, one by one;
* `evaluate_mirrored_iff`  the analyses of a matrix and of its mirror image are mirror images
  exactly when the decision is directional or nobody voted.
-/

namespace Maais

def Direction.mirror : Direction → Direction
  | .long => .short
  | .short => .long
  | .neutral => .neutral

theorem Direction.mirror_eq_iff {d e : Direction} : d.mirror = e ↔ d = e.mirror := by
  cases d <;> cases e <;> decide

namespace Decision
open Lib

def AgentOutputSnapshot.mirror (o : AgentOutputSnapshot) : AgentOutputSnapshot :=
  { o with direction := o.direction.mirror }

def AgentEvaluation.mirror (item : AgentEvaluation) : AgentEvaluation :=
  { item with
    output := item.output.mirror
    nonvoting_neutral := fun h => Direction.mirror_eq_iff.mpr (item.nonvoting_neutral h) }

theorem map_mirror_names (l : List AgentEvaluation) :
    (l.map AgentEvaluation.mirror).map (·.agentName) = l.map (·.agentName) := by
  rw [List.map_map]
  rfl

def AgentEvaluationMatrix.mirror (m : AgentEvaluationMatrix) : AgentEvaluationMatrix :=
  { m with
    evaluations := m.evaluations.map AgentEvaluation.mirror
    names_nodup := (map_mirror_names m.evaluations).symm ▸ m.names_nodup }

/-! ## the parts of the evaluation -/

section
variable {A : Arith} {policy : OfficialDecisionPolicy} {m : AgentEvaluationMatrix}

theorem directional_mirror : m.mirror.directional = m.directional.map AgentEvaluation.mirror := by
  unfold AgentEvaluationMatrix.directional AgentEvaluationMatrix.mirror
  rw [List.filter_map]
  congr 1
  refine List.filter_congr fun item _ => ?_
  have hswap : item.mirror.output.direction = item.output.direction.mirror := rfl
  simp only [Function.comp_apply, hswap, Direction.mirror_eq_iff]
  exact decide_eq_decide.mpr (and_congr_right fun _ => or_comm)

theorem rows_mirror (d : Direction) :
    m.mirror.rows d = (m.rows d.mirror).map AgentEvaluation.mirror := by
  unfold AgentEvaluationMatrix.rows
  rw [directional_mirror, List.filter_map]
  congr 1
  refine List.filter_congr fun item _ => ?_
  simp only [Function.comp_apply, AgentEvaluation.mirror, AgentOutputSnapshot.mirror,
    Direction.mirror_eq_iff]

@[simp] theorem weightOf_mirror (rows : List AgentEvaluation) :
    weightOf A (rows.map AgentEvaluation.mirror) = weightOf A rows := by
  rw [weightOf, List.map_map]
  rfl

theorem weight_long_mirror : weightOf A (m.mirror.rows .long) = weightOf A (m.rows .short) := by
  rw [rows_mirror, weightOf_mirror]
  rfl

theorem weight_short_mirror : weightOf A (m.mirror.rows .short) = weightOf A (m.rows .long) := by
  rw [rows_mirror, weightOf_mirror]
  rfl

theorem meanOf_mirror {part : AgentOutputSnapshot → ℚ} (hpart : ∀ o, part o.mirror = part o)
    (rows : List AgentEvaluation) :
    meanOf A part (rows.map AgentEvaluation.mirror) = meanOf A part rows := by
  rw [meanOf, meanOf, weightOf_mirror, List.map_map]
  congr 2
  exact List.map_congr_left fun item _ => congrArg (A.mul item.weight) (hpart item.output)

def Directed (A : Arith) (policy : OfficialDecisionPolicy) (m : AgentEvaluationMatrix) : Prop :=
  policy.minimumDirectionalVoters ≤ m.directional.length ∧
    weightOf A (m.rows .long) ≠ weightOf A (m.rows .short)

instance : Decidable (Directed A policy m) := by
  unfold Directed
  infer_instance

theorem decided_of_not_directed (h : ¬ Directed A policy m) :
    (decided A policy m).1 = .neutral := by
  unfold decided
  dsimp only
  split_ifs with hvoters htie
  · rfl
  · rfl
  · exact absurd ⟨not_lt.mp hvoters, htie⟩ h
  · exact absurd ⟨not_lt.mp hvoters, htie⟩ h

theorem decided_of_directed (h : Directed A policy m) : (decided A policy m).1 =
    if weightOf A (m.rows .short) < weightOf A (m.rows .long) then .long else .short := by
  unfold decided
  dsimp only
  rw [if_neg (not_lt.mpr h.1), if_neg h.2]
  exact apply_ite Prod.fst _ _ _

theorem decided_ne_neutral (h : Directed A policy m) : (decided A policy m).1 ≠ .neutral := by
  rw [decided_of_directed h]
  split_ifs <;> decide

theorem directed_mirror : Directed A policy m.mirror ↔ Directed A policy m := by
  unfold Directed
  rw [directional_mirror, List.length_map, weight_long_mirror, weight_short_mirror]
  exact and_congr_right fun _ => ne_comm

theorem decided_mirror : (decided A policy m.mirror).1 = (decided A policy m).1.mirror := by
  by_cases h : Directed A policy m
  · rw [decided_of_directed h, decided_of_directed (directed_mirror.mpr h), weight_long_mirror,
      weight_short_mirror]
    rcases lt_or_gt_of_ne h.2 with hlt | hlt
    · rw [if_pos hlt, if_neg (not_lt.mpr hlt.le)]
      rfl
    · rw [if_neg (not_lt.mpr hlt.le), if_pos hlt]
      rfl
  · rw [decided_of_not_directed h, decided_of_not_directed fun h' => h (directed_mirror.mp h')]
    rfl

variable {d : Direction}

theorem winnersOf_mirror (hd : d ≠ .neutral) :
    winnersOf m.mirror d.mirror = (winnersOf m d).map AgentEvaluation.mirror := by
  cases d with
  | long => exact rows_mirror .short
  | short => exact rows_mirror .long
  | neutral => exact absurd rfl hd

theorem dissentersOf_mirror (hd : d ≠ .neutral) :
    dissentersOf m.mirror d.mirror = (dissentersOf m d).map AgentEvaluation.mirror := by
  cases d with
  | long => exact rows_mirror .long
  | short => exact rows_mirror .short
  | neutral => exact absurd rfl hd

theorem consensus_direction : (consensus A policy m).direction = (decided A policy m).1 := by
  unfold consensus
  dsimp only
  split_ifs <;> rfl

theorem consensus_mirror (A : Arith) (policy : OfficialDecisionPolicy) (m : AgentEvaluationMatrix) :
    (consensus A policy m.mirror).direction = (consensus A policy m).direction.mirror ∧
    (consensus A policy m.mirror).probability = (consensus A policy m).probability ∧
    (consensus A policy m.mirror).confidence = (consensus A policy m).confidence := by
  refine ⟨by rw [consensus_direction, consensus_direction, decided_mirror], ?_⟩
  unfold consensus
  dsimp only
  rw [decided_mirror]
  by_cases hneutral : (decided A policy m).1 = .neutral
  · rw [if_pos (Or.inl hneutral), if_pos (Or.inl (by rw [hneutral]; rfl))]
    exact ⟨rfl, rfl⟩
  · have hneutral' : (decided A policy m).1.mirror ≠ .neutral :=
      fun h => hneutral (Direction.mirror_eq_iff.mp h)
    rw [winnersOf_mirror hneutral, weightOf_mirror, meanOf_mirror (fun _ => rfl),
      meanOf_mirror (fun _ => rfl)]
    simp only [hneutral, hneutral', false_or]
    split_ifs
    · exact ⟨rfl, rfl⟩
    · exact ⟨rfl, rfl⟩

theorem dissent_mirror (A : Arith) (policy : OfficialDecisionPolicy) (m : AgentEvaluationMatrix)
    (d : Direction) :
    (dissent A policy m.mirror d.mirror).probability = (dissent A policy m d).probability ∧
    (dissent A policy m.mirror d.mirror).confidence = (dissent A policy m d).confidence ∧
    (dissent A policy m.mirror d.mirror).challengeBlocked =
    (dissent A policy m d).challengeBlocked := by
  unfold dissent
  dsimp only
  by_cases hneutral : d = .neutral
  · subst hneutral
    simp [Direction.mirror]
  · have hneutral' : d.mirror ≠ .neutral := fun h => hneutral (Direction.mirror_eq_iff.mp h)
    have hprob : ∀ rows : List AgentEvaluation,
        meanOf A (·.probability) (rows.map AgentEvaluation.mirror) =
        meanOf A (·.probability) rows := meanOf_mirror fun _ => rfl
    have hconf : ∀ rows : List AgentEvaluation,
        meanOf A (·.confidence) (rows.map AgentEvaluation.mirror) = meanOf A (·.confidence) rows :=
        meanOf_mirror fun _ => rfl
    simp only [dissentersOf_mirror hneutral, weightOf_mirror, hprob, hconf, hneutral, hneutral',
      ne_eq, List.isEmpty_map, and_self]

theorem fundingCarry_mirror (features : FeatureSet) (hd : d ≠ .neutral) :
    fundingCarry .exact features d.mirror = -fundingCarry .exact features d := by
  unfold fundingCarry
  cases features.annualizedFunding with
  | none => exact neg_zero.symm
  | some annualized =>
    dsimp only
    by_cases hbias : features.fundingBias = some "long_heavy" ∨
      features.fundingBias = some "short_heavy"
    · rw [if_pos hbias, if_pos hbias]
      -- the bias rewards one direction, and the mirror image is the other one
      by_cases hlong : features.fundingBias = some "long_heavy"
      · cases d with
        | long => simp [hlong, Direction.mirror]
        | short => simp [hlong, Direction.mirror]
        | neutral => exact absurd rfl hd
      · cases d with
        | long => simp [hlong, Direction.mirror]
        | short => simp [hlong, Direction.mirror]
        | neutral => exact absurd rfl hd
    · rw [if_neg hbias, if_neg hbias, neg_zero]

theorem estimate_mirror (policy : OfficialDecisionPolicy) (features : FeatureSet) (price : ℚ)
    {c c' : Consensus} (hdir : c'.direction = c.direction.mirror)
    (hprob : c'.probability = c.probability) :
    (estimate .exact policy features price c').grossEv =
      (estimate .exact policy features price c).grossEv ∧
      (estimate .exact policy features price c').estimatedCost =
      (estimate .exact policy features price c).estimatedCost ∧
    (estimate .exact policy features price c').fundingCarry =
      -(estimate .exact policy features price c).fundingCarry := by
  unfold estimate
  by_cases hneutral : c.direction = .neutral
  · rw [if_pos hneutral, if_pos (by rw [hdir, hneutral]; rfl)]
    exact ⟨rfl, rfl, neg_zero.symm⟩
  · have hneutral' : c'.direction ≠ .neutral :=
      fun h => hneutral (Direction.mirror_eq_iff.mp (hdir ▸ h))
    rw [if_neg hneutral, if_neg hneutral']
    cases features.atr with
    | none => exact ⟨rfl, rfl, neg_zero.symm⟩
    | some atr =>
      dsimp only
      split_ifs with hatr hmove
      · exact ⟨rfl, rfl, neg_zero.symm⟩
      · exact ⟨rfl, rfl, neg_zero.symm⟩
      · cases features.bidAskSpread with
        | none => exact ⟨rfl, rfl, neg_zero.symm⟩
        | some spread =>
          dsimp only
          split_ifs with hspread
          · exact ⟨rfl, rfl, neg_zero.symm⟩
          · refine ⟨?_, rfl, ?_⟩
            · rw [estimateFrom, estimateFrom, hprob]
            · rw [estimateFrom, estimateFrom, hdir]
              exact fundingCarry_mirror features hneutral

/-! ## the names of the dissenters -/

variable {item : AgentEvaluation}

theorem mem_rows :
    item ∈ m.rows d ↔ item ∈ m.directional ∧ item.output.direction = d := by
  simp [AgentEvaluationMatrix.rows]

theorem name_notMem_rows {e : Direction} (hne : d ≠ e) (hitem : item ∈ m.rows d) :
    item.agentName ∉ (m.rows e).map (·.agentName) := by
  intro hmem
  obtain ⟨other, hother, heq⟩ := List.mem_map.mp hmem
  obtain ⟨hi, hd⟩ := mem_rows.mp hitem
  obtain ⟨ho, he⟩ := mem_rows.mp hother
  have hsame : other = item :=
    List.inj_on_of_nodup_map m.names_nodup (List.mem_filter.mp ho).1 (List.mem_filter.mp hi).1 heq
  exact hne (hd.symm.trans (hsame ▸ he))

theorem names_eq_iff : (m.rows .short).map (·.agentName) = (m.rows .long).map (·.agentName) ↔
    m.directional = [] := by
  constructor
  · intro hnames
    refine List.eq_nil_iff_forall_not_mem.mpr fun item hitem => ?_
    have hvoted : item.output.direction = .long ∨ item.output.direction = .short :=
      (of_decide_eq_true (List.mem_filter.mp hitem).2).2
    rcases hvoted with hlong | hshort
    · have hrow : item ∈ m.rows .long := mem_rows.mpr ⟨hitem, hlong⟩
      exact name_notMem_rows (by decide) hrow (hnames ▸ List.mem_map_of_mem hrow)
    · have hrow : item ∈ m.rows .short := mem_rows.mpr ⟨hitem, hshort⟩
      exact name_notMem_rows (by decide) hrow (hnames ▸ List.mem_map_of_mem hrow)
  · intro hnone
    rw [AgentEvaluationMatrix.rows, AgentEvaluationMatrix.rows, hnone]
    rfl

/-- the same agents dissent from the mirrored decision, unless it is neutral and somebody voted -/
theorem dissenters_mirror_iff :
    (dissent A policy m.mirror (consensus A policy m.mirror).direction).dissenters =
      (dissent A policy m (consensus A policy m).direction).dissenters ↔ Directed A policy m ∨
      m.directional = [] := by
  have hnames : ∀ d, (dissent A policy m d).dissenters = (dissentersOf m d).map (·.agentName) :=
    fun _ => rfl
  have hnames' : ∀ d, (dissent A policy m.mirror d).dissenters =
      (dissentersOf m.mirror d).map (·.agentName) :=
    fun _ => rfl
  rw [hnames, hnames', (consensus_mirror A policy m).1, consensus_direction]
  by_cases h : Directed A policy m
  · refine iff_of_true ?_ (Or.inl h)
    rw [dissentersOf_mirror (decided_ne_neutral h), map_mirror_names]
  · rw [decided_of_not_directed h, or_iff_right h, ← names_eq_iff]
    show (m.mirror.rows .long).map (·.agentName) = _ ↔ _
    rw [rows_mirror, map_mirror_names]
    rfl

end

/-- the second analysis decides the other way, on the same grounds and for the opposite carry -/
structure Mirrors (a b : OfficialDecisionAnalysis) : Prop where
  direction : b.direction = a.direction.mirror
  probability : b.consensusProbability = a.consensusProbability
  confidence : b.consensusConfidence = a.consensusConfidence
  dissentProbability : b.dissentProbability = a.dissentProbability
  dissentConfidence : b.dissentConfidence = a.dissentConfidence
  challengeBlocked : b.challengeBlocked = a.challengeBlocked
  grossEv : b.grossEv = a.grossEv
  estimatedCost : b.estimatedCost = a.estimatedCost
  fundingCarry : b.fundingCarry = -a.fundingCarry

theorem evaluate_mirrored_iff (policy : OfficialDecisionPolicy) (features : FeatureSet)
    (m : AgentEvaluationMatrix) (price : ℚ) (benchmark : Option ℚ) (hprice : 0 < price)
    (hframe : SameFrame features m) : ∃ a b, evaluate .exact policy features m price benchmark =
      .ok a ∧ evaluate .exact policy features m.mirror price benchmark = .ok b ∧ Mirrors a b ∧
      (Mirrors a b ∧ b.dissenters = a.dissenters ↔ Directed .exact policy m ∨
      m.directional = []) := by
  have hmirrors : Mirrors (analysis .exact policy features m price benchmark)
      (analysis .exact policy features m.mirror price benchmark) := by
    obtain ⟨hdir, hprob, hconf⟩ := consensus_mirror .exact policy m
    obtain ⟨hdprob, hdconf, hblocked⟩ :=
      dissent_mirror .exact policy m (consensus .exact policy m).direction
    rw [← hdir] at hdprob hdconf hblocked
    obtain ⟨hgross, hcost, hcarry⟩ := estimate_mirror policy features price hdir hprob
    exact ⟨hdir, hprob, hconf, hdprob, hdconf, hblocked, hgross, hcost, hcarry⟩
  refine ⟨_, _, evaluate_exact policy features m hprice hframe benchmark,
    evaluate_exact policy features m.mirror hprice hframe benchmark, hmirrors, ?_⟩
  rw [and_iff_right hmirrors]
  exact dissenters_mirror_iff

namespace Demo

def output (direction : Direction) : AgentOutputSnapshot :=
  ⟨direction, 3 / 5, 7 / 10, by norm_num, by norm_num⟩

def row (name : String) (weight : Nat) (hw : 0 < weight) : Option Direction → AgentEvaluation
  | some direction => ⟨name, weight, true, output direction, natCast_pos hw, fun h => nomatch h⟩
  | none => ⟨name, weight, false, output .neutral, natCast_pos hw, fun _ => rfl⟩

def matrix (weight : Nat) (hw : 0 < weight) : AgentEvaluationMatrix :=
  { symbol := "BTCUSDT", timeframe := "1m", featureAt := 0, regime := none
    evaluations :=
      [row "momentum" weight hw (some .long), row "technical_structure" 1 (by decide) (some .short),
        row "liquidity" 1 (by decide) none, row "order_flow_toxicity" 1 (by decide) none,
        row "stop_run_detection" 1 (by decide) none, row "mean_reversion" 1 (by decide) none,
        row "carry_yield" 1 (by decide) none, row "macro_sentiment" 1 (by decide) none]
    names_nodup := by simp [row] }

def features : FeatureSet :=
  ⟨"BTCUSDT", "1m", 0, none, some 1, some (1 / 1000), some (1 / 10), some "long_heavy"⟩

def policy : OfficialDecisionPolicy := .forFee (1 / 2000) (by norm_num)

theorem majority_mirrored : ∃ a b, evaluate .exact policy features (matrix 2 (by decide)) 100 none =
    .ok a ∧ evaluate .exact policy features (matrix 2 (by decide)).mirror 100 none = .ok b ∧
    Mirrors a b ∧ b.dissenters = a.dissenters := by
  have hdirected : Directed .exact policy (matrix 2 (by decide)) := by decide +kernel
  obtain ⟨a, b, ha, hb, hmirrors, hiff⟩ :=
    evaluate_mirrored_iff policy features (matrix 2 (by decide)) 100 none (by norm_num) (by decide)
  exact ⟨a, b, ha, hb, hiff.mpr (Or.inl hdirected)⟩

/-- a tie: the agent who votes long dissents from the neutral decision, in both images -/
theorem tie_renames_dissenters :
    ∃ a b, evaluate .exact policy features (matrix 1 (by decide)) 100 none = .ok a ∧
    evaluate .exact policy features (matrix 1 (by decide)).mirror 100 none = .ok b ∧
    a.direction = .neutral ∧ a.dissenters = ["momentum"] ∧ b.direction = .neutral ∧
    b.dissenters = ["technical_structure"] := by
  obtain ⟨a, ha, hany⟩ := exists_ok_of_any
    (x := evaluate .exact policy features (matrix 1 (by decide)) 100 none)
    (p := fun a => decide (a.direction = .neutral ∧ a.dissenters = ["momentum"]))
      (by decide +kernel)
  obtain ⟨b, hb, hany'⟩ := exists_ok_of_any
    (x := evaluate .exact policy features (matrix 1 (by decide)).mirror 100 none)
    (p := fun b => decide (b.direction = .neutral ∧ b.dissenters = ["technical_structure"]))
      (by decide +kernel)
  obtain ⟨hdir, hnames⟩ := of_decide_eq_true hany
  obtain ⟨hdir', hnames'⟩ := of_decide_eq_true hany'
  exact ⟨a, b, ha, hb, hdir, hnames, hdir', hnames'⟩

end Demo

end Decision
end Maais

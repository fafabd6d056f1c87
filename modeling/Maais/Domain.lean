import Maais.Lib.Decimal
import Maais.Lib.Result
import Mathlib.Algebra.Order.Field.Rat

/-!
# Shared vocabulary: time, identities, exceptions, enumerations

* `Time`  instants in UTC microseconds, durations in microseconds (`require_utc` holds by type);
* `UUID`  a derived identity `uuid5(NAMESPACE_URL, name)` is represented by its name, so two derived
  identities agree exactly when their names do;
* `Digest`  a SHA-256 digest is represented by the text it hashes;
* `PyError`  the exceptions the modelled functions raise, with their texts;
* `decimal28`  the arithmetic of the program.
-/

namespace Maais

/-- the default decimal context, and columns of type `NUMERIC(38, 18)` -/
def decimal28 : Lib.Arith := ⟨Lib.toDigits 28, Lib.toPlaces 18⟩

abbrev Time := Int

/-! ## identities -/

structure UUID where
  name : String
deriving DecidableEq

namespace UUID

/-- `uuid5(NAMESPACE_URL, name)` -/
def uuid5 (name : String) : UUID := ⟨name⟩

/-- `str(uuid)`: the texts of identities all have one length, so that a text in front of anything
determines its identity; here the size of the name stands in front -/
def text (u : UUID) : String := toString u.name.utf8ByteSize ++ ":" ++ u.name

theorem digits_colon_inj {n m : Nat} {l l' : List Char}
    (h : Nat.toDigits 10 n ++ ':' :: l = Nat.toDigits 10 m ++ ':' :: l') : n = m ∧ l = l' := by
  have htake : ∀ (k : Nat) (r : List Char),
      (Nat.toDigits 10 k ++ ':' :: r).takeWhile (· ≠ ':') = Nat.toDigits 10 k := by
    intro k r
    rw [List.takeWhile_append_of_pos]
    · simp
    · intro c hc
      have hd := Nat.isDigit_of_mem_toDigits (by decide) (by decide) hc
      rw [decide_eq_true_eq]
      rintro rfl
      exact absurd hd (by decide)
  have hdigits : Nat.toDigits 10 n = Nat.toDigits 10 m := by
    rw [← htake n l, ← htake m l', h]
  have hnm : n = m := by
    have := congrArg (fun l => Nat.ofDigitChars 10 l 0) hdigits
    simpa only [Nat.ofDigitChars_ten_toDigits] using this
  subst hnm
  exact ⟨rfl, by simpa using h⟩

theorem text_append_inj {u v : UUID} {s s' : String} (h : u.text ++ s = v.text ++ s') :
    u = v ∧ s = s' := by
  have hl := congrArg String.toList h
  simp only [text, String.toList_append, Nat.toString_eq_ofList_toDigits, String.toList_ofList,
    List.append_assoc] at hl
  obtain ⟨hsize, hrest⟩ := digits_colon_inj hl
  have hrest' : u.name ++ s = v.name ++ s' := by
    rw [← String.toList_inj, String.toList_append, String.toList_append]
    exact hrest
  have hname : u.name = v.name := by
    have hb := congrArg String.toByteArray hrest'
    rw [String.toByteArray_append, String.toByteArray_append] at hb
    exact String.toByteArray_inj.mp (ByteArray.append_inj_left hb hsize)
  cases u
  cases v
  cases hname
  exact ⟨rfl, (String.append_right_inj _).mp hrest'⟩

@[simp] theorem text_inj {u v : UUID} : u.text = v.text ↔ u = v := by
  refine ⟨fun h => ?_, fun h => h ▸ rfl⟩
  exact (text_append_inj (congrArg (· ++ "") h)).1

theorem text_head (u : UUID) : ∃ c l, u.text.toList = c :: l ∧ c.isDigit = true := by
  have hne : Nat.toDigits 10 u.name.utf8ByteSize ≠ [] := by simp
  obtain ⟨c, l, hcl⟩ := List.exists_cons_of_ne_nil hne
  refine ⟨c, l ++ ':' :: u.name.toList, by simp [text, hcl], ?_⟩
  exact Nat.isDigit_of_mem_toDigits (by decide) (by decide) (hcl ▸ List.mem_cons_self)

@[simp] theorem uuid5_inj {a b : String} : uuid5 a = uuid5 b ↔ a = b := by
  simp [uuid5]

end UUID

/-- `_id(namespace, *parts)` -/
def idOf (ns : String) (parts : List String) : UUID :=
  .uuid5 ("maais://" ++ ns ++ "/" ++ "/".intercalate parts)

theorem idOf_inj {ns : String} {l l' : List String} :
    idOf ns l = idOf ns l' ↔ "/".intercalate l = "/".intercalate l' := by
  rw [idOf, idOf, UUID.uuid5_inj]
  exact String.append_right_inj _

theorem idOf_ns {ns ns' : String} {l l' : List String} (h : idOf ns l = idOf ns' l')
    (hns : '/' ∉ ns.toList) (hns' : '/' ∉ ns'.toList) : ns = ns' := by
  have htake : ∀ (n : String) (r : List Char), '/' ∉ n.toList →
      (n.toList ++ '/' :: r).takeWhile (· ≠ '/') = n.toList := by
    intro n r hn
    rw [List.takeWhile_append_of_pos]
    · simp
    · intro c hc
      rw [decide_eq_true_eq]
      rintro rfl
      exact hn hc
  rw [idOf, idOf, UUID.uuid5_inj] at h
  have hl := congrArg String.toList h
  simp only [String.toList_append, List.append_assoc] at hl
  have hrest := List.append_cancel_left hl
  have hsame : ns.toList = ns'.toList := by
    rw [← htake ns _ hns, ← htake ns' _ hns']
    exact congrArg _ hrest
  exact String.toList_inj.mp hsame

theorem intercalate_one (a : String) : "/".intercalate [a] = a := rfl

theorem intercalate_two (a b : String) : "/".intercalate [a, b] = a ++ ("/" ++ b) := by
  rw [← String.append_assoc]
  rfl

theorem intercalate_three (a b c : String) :
    "/".intercalate [a, b, c] = a ++ ("/" ++ (b ++ ("/" ++ c))) := by
  have h : "/".intercalate [a, b, c] = a ++ "/" ++ b ++ "/" ++ c := rfl
  simp only [h, String.append_assoc]

structure Digest where
  content : String
deriving DecidableEq

/-- `s.startswith(p)` -/
def startsWith (s p : String) : Bool := p.toList.isPrefixOf s.toList

/-- the characters `str.strip()` removes -/
def isSpace (c : Char) : Bool :=
  let n := c.toNat
  (9 ≤ n && n ≤ 13) || (28 ≤ n && n ≤ 32) || n == 0x85 || n == 0xA0 || n == 0x1680 ||
    (0x2000 ≤ n && n ≤ 0x200A) || n == 0x2028 || n == 0x2029 || n == 0x202F ||
    n == 0x205F || n == 0x3000

/-- `s.strip()` -/
def strip (s : String) : String :=
  String.ofList ((s.toList.dropWhile isSpace).reverse.dropWhile isSpace).reverse

/-- `s.isascii()` -/
def isAscii (s : String) : Bool := s.toList.all fun c => decide (c.toNat < 128)

/-- nonempty without surrounding whitespace -/
def Trimmed (s : String) : Prop := s ≠ "" ∧ s = strip s

instance Trimmed.decidable (s : String) : Decidable (Trimmed s) := by
  unfold Trimmed
  infer_instance

/-! ## exceptions -/

inductive PyError
  | valueError (message : String)
  | typeError (message : String)
  | runtimeError (message : String)
  | lookupError (message : String)
  | permissionError (message : String)
  | arithmeticError (message : String)
  /-- a table constraint, by its name -/
  | integrityError (constraint : String)
  | insufficientMargin (message : String)
  | filterRejection (reason : String)
  | fillRejection (reason : String) (marketEventId : Option String)
  | exitExecutionHalt (reason : String) (marketEventId : Option String)
  | illegalOrderTransition (message : String)
  | orderIdentityConflict (message : String)
  | staleExecutionState (message : String)
  | operationalStateConflict (message : String)
  | staleOperationalState (message : String)
  | activeRecoveryConflict (message : String)
  | immutableManifestError (message : String)
  | operatorCommandConflict (message : String)
  | runtimeStateConflict (message : String)
  | continuousRuntimeConflict (message : String)
  | runtimeObservationConflict (message : String)
  | workerEventConflict (message : String)
  | paperWorkerHalt (message : String)
  | eligibleBookTimeout (message : String)
  | flattenPlanningError (reasonCode detail : String)
  | gapRecoveryConflict (message : String)
  | gapRecoveryNotCaughtUp (message : String)
  | gapRecoveryFailed (message : String)
  | workerLeaseConflict (message : String)
  | workerLeaseExpired (message : String)
  | binanceContractError (message : String)
  | binanceSequenceGap (message : String)
  | connectorHalt (reasonCode detail : String)
  | frameIdentityConflict (message : String)
  | frameHistoryConflict (message : String)
  | counterfactualIdentityConflict (message : String)
  | staleCounterfactualState (message : String)
  | optimisticConcurrencyError (message : String)
  | invalidExperimentTransition (message : String)
  | observabilityIntegrityError (message : String)
  | sessionAuthenticationError (reasonCode : String) (sessionId : Option UUID)
    (terminalAt : Option Time)
  | loginAuthenticationError
  | sessionConflict (message : String)
  | artifactCollisionError (message : String)
  | artifactVerificationError (message : String)
  | missingArtifactError (message : String)
  | fileExistsError (path : String)
  | scheduledOperationConflict (message : String)
  | serviceInstanceConflict (message : String)
  | platformStateConflict (message : String)
  | platformIdentityConflict (message : String)
  | artifactCatalogConflict (message : String)
  | artifactCatalogIntegrityError (message : String)
  /-- a value its column does not take -/
  | dataError (message : String)
deriving DecidableEq

/-- `type(exc).__name__` and `str(exc)` -/
def PyError.parts : PyError → String × String
  | .valueError m => ("ValueError", m)
  | .typeError m => ("TypeError", m)
  | .runtimeError m => ("RuntimeError", m)
  | .lookupError m => ("LookupError", m)
  | .permissionError m => ("PermissionError", m)
  | .arithmeticError m => ("ArithmeticError", m)
  | .integrityError c => ("IntegrityError", c)
  | .insufficientMargin m => ("InsufficientMargin", m)
  | .filterRejection r => ("FilterRejection", r)
  | .fillRejection r _ => ("FillRejection", r)
  | .exitExecutionHalt r _ => ("ExitExecutionHalt", r)
  | .illegalOrderTransition m => ("IllegalOrderTransition", m)
  | .orderIdentityConflict m => ("OrderIdentityConflict", m)
  | .staleExecutionState m => ("StaleExecutionState", m)
  | .operationalStateConflict m => ("OperationalStateConflict", m)
  | .staleOperationalState m => ("StaleOperationalState", m)
  | .activeRecoveryConflict m => ("ActiveRecoveryConflict", m)
  | .immutableManifestError m => ("ImmutableManifestError", m)
  | .operatorCommandConflict m => ("OperatorCommandConflict", m)
  | .runtimeStateConflict m => ("RuntimeStateConflict", m)
  | .continuousRuntimeConflict m => ("ContinuousRuntimeConflict", m)
  | .runtimeObservationConflict m => ("RuntimeObservationConflict", m)
  | .workerEventConflict m => ("WorkerEventConflict", m)
  | .paperWorkerHalt m => ("PaperWorkerHalt", m)
  | .eligibleBookTimeout m => ("EligibleBookTimeout", m)
  | .flattenPlanningError _ d => ("FlattenPlanningError", d)
  | .gapRecoveryConflict m => ("GapRecoveryIdentityConflict", m)
  | .gapRecoveryNotCaughtUp m => ("GapRecoveryNotCaughtUp", m)
  | .gapRecoveryFailed m => ("GapRecoveryFailed", m)
  | .workerLeaseConflict m => ("WorkerLeaseConflict", m)
  | .workerLeaseExpired m => ("WorkerLeaseExpired", m)
  | .binanceContractError m => ("BinanceContractError", m)
  | .binanceSequenceGap m => ("BinanceSequenceGap", m)
  | .connectorHalt code d => ("ConnectorHalt", code ++ ": " ++ d)
  | .frameIdentityConflict m => ("FrameIdentityConflict", m)
  | .frameHistoryConflict m => ("FrameHistoryConflict", m)
  | .counterfactualIdentityConflict m => ("CounterfactualIdentityConflict", m)
  | .staleCounterfactualState m => ("StaleCounterfactualState", m)
  | .optimisticConcurrencyError m => ("OptimisticConcurrencyError", m)
  | .invalidExperimentTransition m => ("InvalidExperimentTransition", m)
  | .observabilityIntegrityError m => ("ObservabilityIntegrityError", m)
  | .sessionAuthenticationError _ _ _ =>
    ("SessionAuthenticationError", "session authentication failed")
  | .loginAuthenticationError => ("LoginAuthenticationError", "operator authentication failed")
  | .sessionConflict m => ("SessionConflict", m)
  | .artifactCollisionError m => ("ArtifactCollisionError", m)
  | .artifactVerificationError m => ("ArtifactVerificationError", m)
  | .missingArtifactError m => ("MissingArtifactError", m)
  | .fileExistsError path => ("FileExistsError", "[Errno 17] File exists: '" ++ path ++ "'")
  | .scheduledOperationConflict m => ("ScheduledOperationConflict", m)
  | .serviceInstanceConflict m => ("ServiceInstanceConflict", m)
  | .platformStateConflict m => ("PlatformStateConflict", m)
  | .platformIdentityConflict m => ("PlatformIdentityConflict", m)
  | .artifactCatalogConflict m => ("ArtifactCatalogConflict", m)
  | .artifactCatalogIntegrityError m => ("ArtifactCatalogIntegrityError", m)
  | .dataError m => ("DataError", m)

abbrev Py (α : Type) := Except PyError α

export Lib (raiseIf orRaise)

def requirePositiveDecimal (value : ℚ) (field : String) : Py Unit :=
  raiseIf (value ≤ 0) (.valueError (field ++ " must be a positive finite Decimal"))

def requireNonnegative (value : ℚ) (field : String) : Py Unit :=
  raiseIf (value < 0) (.valueError (field ++ " must be a nonnegative finite Decimal"))

@[simp] theorem requirePositiveDecimal_eq_ok {v : ℚ} {f : String} {u : Unit} :
    requirePositiveDecimal v f = .ok u ↔ 0 < v := by
  simp [requirePositiveDecimal]

@[simp] theorem requireNonnegative_eq_ok {v : ℚ} {f : String} {u : Unit} :
    requireNonnegative v f = .ok u ↔ 0 ≤ v := by
  simp [requireNonnegative]

/-! ## enumerations -/

inductive ExperimentStatus
  | created | running | paused | stopped | completed | failed
deriving DecidableEq

def ExperimentStatus.value : ExperimentStatus → String
  | .created => "created"
  | .running => "running"
  | .paused => "paused"
  | .stopped => "stopped"
  | .completed => "completed"
  | .failed => "failed"

inductive Direction
  | long | short | neutral
deriving DecidableEq

inductive ProposalStatus
  | neutral | rejected | approved | expired
deriving DecidableEq

inductive GateType
  | dataQuality | regimeCompatibility | consensus | adversarial | ev | alpha | monitoring | drawdown
  | correlation | portfolioRisk | leverage | exchangeFilters | paperBrokerCapacity
deriving DecidableEq

inductive PaperOrderSide
  | buy | sell
deriving DecidableEq

inductive PaperOrderType
  | market | limit | stopMarket
deriving DecidableEq

inductive PaperOrderStatus
  | created | authorized | accepted | partiallyFilled | filled | canceled | rejected | expired
deriving DecidableEq

def PaperOrderStatus.value : PaperOrderStatus → String
  | .created => "created"
  | .authorized => "authorized"
  | .accepted => "accepted"
  | .partiallyFilled => "partially_filled"
  | .filled => "filled"
  | .canceled => "canceled"
  | .rejected => "rejected"
  | .expired => "expired"

inductive PositionEffect
  | open | reduce
deriving DecidableEq

def PaperOrderSide.openingDirection : PaperOrderSide → Direction
  | .buy => .long
  | .sell => .short

def Direction.closingSide (d : Direction) : PaperOrderSide :=
  if d = .long then .sell else .buy

/-- `symbol.upper()` -/
def upper (symbol : String) : String := .ofList (symbol.toList.map Char.toUpper)

theorem natCast_pos {n : ℕ} (h : 0 < n) : (0 : ℚ) < n := Nat.cast_pos.mpr h

end Maais

import RuntimeBle.Adv.Parts

/-!
# Link — Intervals

The pairs of a least and a greatest value that go to the stack: the
advertising and the periodic interval, the connection interval of a
central, and those of the link commands. Each end has its own default.

The host's `is_valid` and its `RequestedConnParams::default()` are
parameters. Durations are in the unit of the field's name.
-/

namespace RuntimeBle.Link

open RuntimeBle.Lib RuntimeBle.Request
open RuntimeBle.Adv (advertisingParams)

/-! ## Periodic advertising -/

/-- The commands of `enable_periodic_advertising`, for advertising set 0. -/
inductive PeriodicCommand where
  | setParams (minMs maxMs : Nat) (includeTxPower : Bool)
  | setData (data : List UInt8)
  | setEnable (enable : Bool)
deriving DecidableEq

/-- In this order; the first that fails is the last. -/
def enablePeriodicAdvertising (cfg : RuntimeCfg) : List PeriodicCommand :=
  if cfg.periodicAdv = 0 then []
  else
    let minMs := orDefault cfg.periodicAdvIntervalMinMs.toNat 100
    let maxMs :=
      if cfg.periodicAdvIntervalMaxMs = 0 then 250
      else max cfg.periodicAdvIntervalMaxMs.toNat minMs
    [.setParams minMs maxMs (cfg.periodicAdvIncludeTxPower != 0),
      .setData (cfg.periodicAdvData.getD []), .setEnable true]

/-! ## The central's connection -/

/-- `central_connect_params`: a 0 stands for the default, and what is not valid
for the fallback. -/
def centralConnectParams (isValid : RequestedConnParams → Bool) (fallback : RequestedConnParams)
    (cfg : RuntimeCfg) : RequestedConnParams :=
  let params :=
    { minConnectionIntervalMs := orDefault cfg.centralConnMinIntervalMs.toNat 80
      maxConnectionIntervalMs := orDefault cfg.centralConnMaxIntervalMs.toNat 80
      maxLatency := cfg.centralConnLatency
      supervisionTimeoutMs := orDefault cfg.centralConnTimeoutMs.toNat 8000 }
  if isValid params then params else fallback

/-! ## The pairs -/

/-- The pairs that a link command passes on. -/
def linkPairs : LinkOp → List (Nat × Nat)
  | .updateConnectionParams params =>
      [(params.minConnectionIntervalMs, params.maxConnectionIntervalMs)]
  | .updateFrameSpace minUs maxUs _ _ => [(minUs, maxUs)]
  | .requestConnectionRate params =>
      [(params.minConnectionIntervalMs, params.maxConnectionIntervalMs),
        (params.subrateMin.toNat, params.subrateMax.toNat)]
  | _ => []

/-- The operation is the log line of a refusal. -/
def isRefusal : LinkOp → Bool
  | .invalidConnectionParams | .invalidFrameSpacing | .invalidConnectionRate => true
  | _ => false

/-- Every pair that goes to the stack is in order, and a link command whose
pair is not passed on is refused. The parameters of a link command may
change while they are read. -/
structure IntervalsOrdered (isValid : RequestedConnParams → Bool) (fallback : RequestedConnParams)
    (cfg : RuntimeCfg) : Prop where
  advertising : (advertisingParams cfg).intervalMinMs ≤ (advertisingParams cfg).intervalMaxMs
  periodic : ∀ minMs maxMs tx, .setParams minMs maxMs tx ∈ enablePeriodicAdvertising cfg →
    minMs ≤ maxMs
  central : (centralConnectParams isValid fallback cfg).minConnectionIntervalMs
    ≤ (centralConnectParams isValid fallback cfg).maxConnectionIntervalMs
  link : ∀ cmd op, (linkControlOnce isValid cmd).Yields op →
    ∀ pair ∈ linkPairs op, pair.1 ≤ pair.2
  refused : ∀ cmd op, cmd = lcmdConnParams ∨ cmd = lcmdFrameSpace ∨ cmd = lcmdConnectionRate →
    (linkControlOnce isValid cmd).Yields op → linkPairs op ≠ [] ∨ isRefusal op = true

/-- Both ends, or none, are configured in order, and one end is in order
with the other's default. -/
def AdvIntervalsFit (cfg : RuntimeCfg) : Prop :=
  if cfg.advIntervalMinMs = 0 then cfg.advIntervalMaxMs = 0 ∨ 30 ≤ cfg.advIntervalMaxMs
  else if cfg.advIntervalMaxMs = 0 then cfg.advIntervalMinMs ≤ 60
  else cfg.advIntervalMinMs ≤ cfg.advIntervalMaxMs

/-- A greatest value that is configured is raised to the least one; its
default is not. -/
def PeriodicIntervalsFit (cfg : RuntimeCfg) : Prop :=
  cfg.periodicAdvIntervalMaxMs = 0 → cfg.periodicAdvIntervalMinMs ≤ 250

/-! ## Where they are in order -/

section Ordered

variable {isValid : RequestedConnParams → Bool} {fallback : RequestedConnParams} {cfg : RuntimeCfg}

theorem advertising_ordered_iff :
    (advertisingParams cfg).intervalMinMs ≤ (advertisingParams cfg).intervalMaxMs
      ↔ AdvIntervalsFit cfg := by
  unfold AdvIntervalsFit advertisingParams
  by_cases hmin : cfg.advIntervalMinMs = 0
  · by_cases hmax : cfg.advIntervalMaxMs = 0
    · simp [hmin, hmax]
    · simp only [hmin, hmax, ↓reduceIte, false_or]
      exact (UInt16.le_iff_toNat_le (a := 30)).symm
  · by_cases hmax : cfg.advIntervalMaxMs = 0
    · simp only [hmin, hmax, ↓reduceIte]
      exact (UInt16.le_iff_toNat_le (b := 60)).symm
    · simp only [hmin, hmax, ↓reduceIte]
      exact UInt16.le_iff_toNat_le.symm

theorem mem_enablePeriodicAdvertising {minMs maxMs : Nat} {tx : Bool} :
    .setParams minMs maxMs tx ∈ enablePeriodicAdvertising cfg
      ↔ cfg.periodicAdv ≠ 0 ∧ minMs = orDefault cfg.periodicAdvIntervalMinMs.toNat 100
        ∧ maxMs = (if cfg.periodicAdvIntervalMaxMs = 0 then 250
            else max cfg.periodicAdvIntervalMaxMs.toNat
              (orDefault cfg.periodicAdvIntervalMinMs.toNat 100))
        ∧ tx = (cfg.periodicAdvIncludeTxPower != 0) := by
  unfold enablePeriodicAdvertising
  by_cases hperiodic : cfg.periodicAdv = 0
  · rw [if_pos hperiodic]
    exact iff_of_false List.not_mem_nil fun h => h.1 hperiodic
  · rw [if_neg hperiodic]
    simp only [List.mem_cons, PeriodicCommand.setParams.injEq, reduceCtorEq, List.not_mem_nil,
      or_false]
    exact (and_iff_right hperiodic).symm

theorem periodic_ordered_iff :
    (∀ minMs maxMs tx, .setParams minMs maxMs tx ∈ enablePeriodicAdvertising cfg → minMs ≤ maxMs)
      ↔ (cfg.periodicAdv ≠ 0 → PeriodicIntervalsFit cfg) := by
  have hdefault : orDefault cfg.periodicAdvIntervalMinMs.toNat 100 ≤ 250
      ↔ cfg.periodicAdvIntervalMinMs ≤ 250 := by
    rw [UInt16.le_iff_toNat_le, orDefault]
    show _ ↔ cfg.periodicAdvIntervalMinMs.toNat ≤ 250
    split <;> omega
  unfold PeriodicIntervalsFit
  constructor
  · intro h hperiodic hmax
    have := h _ _ _ (mem_enablePeriodicAdvertising.mpr ⟨hperiodic, rfl, rfl, rfl⟩)
    rw [if_pos hmax] at this
    exact hdefault.mp this
  · intro h minMs maxMs tx hmem
    obtain ⟨hperiodic, rfl, rfl, -⟩ := mem_enablePeriodicAdvertising.mp hmem
    split
    · rename_i hmax
      exact hdefault.mpr (h hperiodic hmax)
    · exact Nat.le_max_right ..

theorem central_ordered (hvalid : ∀ p, isValid p = true →
      p.minConnectionIntervalMs ≤ p.maxConnectionIntervalMs) (hfallback : isValid fallback = true) :
    (centralConnectParams isValid fallback cfg).minConnectionIntervalMs
      ≤ (centralConnectParams isValid fallback cfg).maxConnectionIntervalMs := by
  unfold centralConnectParams
  dsimp only
  split
  · rename_i hparams
    exact hvalid _ hparams
  · exact hvalid _ hfallback

/-- The operation passes its pairs on in order, or is refused. -/
def InOrder (op : LinkOp) : Prop :=
  (∀ pair ∈ linkPairs op, pair.1 ≤ pair.2) ∧ (linkPairs op ≠ [] ∨ isRefusal op = true)

theorem inOrder_of_refused {op : LinkOp} (hpairs : linkPairs op = [])
    (hrefused : isRefusal op = true) : InOrder op := by
  refine ⟨?_, .inr hrefused⟩
  rw [hpairs]
  exact fun pair hpair => absurd hpair List.not_mem_nil

theorem inOrder_connParamsOp (hvalid : ∀ p, isValid p = true →
      p.minConnectionIntervalMs ≤ p.maxConnectionIntervalMs) (params : RequestedConnParams) :
    InOrder (connParamsOp isValid params) := by
  unfold connParamsOp
  split
  · rename_i hparams
    refine ⟨?_, .inl (List.cons_ne_nil _ _)⟩
    intro pair hpair
    cases List.mem_singleton.mp hpair
    exact hvalid _ hparams
  · exact inOrder_of_refused rfl rfl

theorem inOrder_connectionRateOp (params : ConnectRateParams) :
    InOrder (connectionRateOp params) := by
  unfold connectionRateOp
  split
  · rename_i hparams
    refine ⟨?_, .inl (List.cons_ne_nil _ _)⟩
    intro pair hpair
    rcases List.mem_cons.mp hpair with rfl | hpair
    · exact hparams.1
    · cases List.mem_singleton.mp hpair
      exact UInt16.le_iff_toNat_le.mp hparams.2
  · exact inOrder_of_refused rfl rfl

/-- A link command with a pair passes it on in order, or is refused, and
the others pass no pair on. -/
theorem link_ordered (hvalid : ∀ p, isValid p = true →
      p.minConnectionIntervalMs ≤ p.maxConnectionIntervalMs) {cmd : Nat} {op : LinkOp}
    (h : (linkControlOnce isValid cmd).Yields op) :
    if cmd = lcmdConnParams ∨ cmd = lcmdFrameSpace ∨ cmd = lcmdConnectionRate then InOrder op
    else linkPairs op = [] := by
  unfold linkControlOnce at h
  split at h
  case h_3 =>
    simp only [Fetch.yields_load, Fetch.yields_done] at h
    obtain ⟨minMs, maxMs, timeoutMs, latency, rfl⟩ := h
    exact inOrder_connParamsOp hvalid _
  case h_4 =>
    simp only [Fetch.yields_load] at h
    obtain ⟨minUs, maxUs, h⟩ := h
    split at h
    · cases Fetch.yields_done.mp h
      exact inOrder_of_refused rfl rfl
    · rename_i hrange
      simp only [Fetch.yields_load, Fetch.yields_done] at h
      obtain ⟨phyBits, typeBits, rfl⟩ := h
      refine ⟨?_, .inl (List.cons_ne_nil _ _)⟩
      intro pair hpair
      cases List.mem_singleton.mp hpair
      exact Nat.not_lt.mp hrange
  case h_5 =>
    simp only [Fetch.yields_load, Fetch.yields_done] at h
    obtain ⟨_, _, _, _, _, _, _, rfl⟩ := h
    exact inOrder_connectionRateOp _
  all_goals simp only [Fetch.yields_load, Fetch.yields_done] at h
  case h_1 =>
    obtain ⟨phy, rfl⟩ := h
    rfl
  case h_2 =>
    obtain ⟨octets, timeUs, rfl⟩ := h
    rfl
  case h_9 =>
    obtain ⟨passkey, rfl⟩ := h
    rfl
  case h_14 hother =>
    rw [if_neg (by tauto), h]
    rfl
  all_goals
    subst h
    rfl

/-- **The pairs are in order** when the configured advertising intervals go
with the defaults of those that are not. -/
theorem intervals_ordered_iff (isValid : RequestedConnParams → Bool)
    (fallback : RequestedConnParams) (cfg : RuntimeCfg)
    (hvalid : ∀ p, isValid p = true → p.minConnectionIntervalMs ≤ p.maxConnectionIntervalMs)
    (hfallback : isValid fallback = true) :
    IntervalsOrdered isValid fallback cfg
      ↔ AdvIntervalsFit cfg ∧ (cfg.periodicAdv ≠ 0 → PeriodicIntervalsFit cfg) := by
  constructor
  · intro h
    exact ⟨advertising_ordered_iff.mp h.advertising, periodic_ordered_iff.mp h.periodic⟩
  · rintro ⟨hadv, hperiodic⟩
    refine ⟨advertising_ordered_iff.mpr hadv, periodic_ordered_iff.mpr hperiodic,
      central_ordered hvalid hfallback, ?_, ?_⟩
    · intro cmd op hop
      have hlink := link_ordered hvalid hop
      split at hlink
      · exact hlink.1
      · rw [hlink]
        exact fun pair hpair => absurd hpair List.not_mem_nil
    · intro cmd op hcmd hop
      have hlink := link_ordered hvalid hop
      rw [if_pos hcmd] at hlink
      exact hlink.2

/-- The order of the interval, as a check, and the default that passes it. -/
def inOrderCheck (p : RequestedConnParams) : Bool :=
  p.minConnectionIntervalMs ≤ p.maxConnectionIntervalMs

/-- The parameters that the defaults come to. -/
def defaultConnParams : RequestedConnParams :=
  { minConnectionIntervalMs := 80, maxConnectionIntervalMs := 80, maxLatency := 0
    supervisionTimeoutMs := 8000 }

theorem intervals_ordered_default :
    IntervalsOrdered inOrderCheck defaultConnParams {} :=
  (intervals_ordered_iff inOrderCheck defaultConnParams {} (fun _ h => of_decide_eq_true h)
    (by decide)).mpr ⟨.inl rfl, fun _ _ => by decide⟩

/-- A least advertising interval of 100 ms stands against a greatest of 60,
and a least periodic one of 300 ms against a greatest of 250. -/
theorem defaults_out_of_order :
    (∃ cfg, runtimeBleInit (some { abiVersion := 1, adv := { intervalMinMs := 100 } }) = .ok cfg
      ∧ (advertisingParams cfg).intervalMinMs = 100
      ∧ (advertisingParams cfg).intervalMaxMs = 60
      ∧ ¬ IntervalsOrdered inOrderCheck defaultConnParams cfg)
    ∧ ∃ cfg, runtimeBleInit (some { abiVersion := 1, adv :=
          { nonconnectable := 1, extended := 1, periodic := 1, periodicIntervalMinMs := 300 } })
        = .ok cfg
      ∧ .setParams 300 250 false ∈ enablePeriodicAdvertising cfg
      ∧ ¬ IntervalsOrdered inOrderCheck defaultConnParams cfg := by
  constructor
  · refine ⟨_, rfl, by decide, by decide, fun h => ?_⟩
    exact absurd h.advertising (by decide)
  · refine ⟨_, rfl, by decide, fun h => ?_⟩
    exact absurd (h.periodic 300 250 false (by decide)) (by decide)

end Ordered

end RuntimeBle.Link

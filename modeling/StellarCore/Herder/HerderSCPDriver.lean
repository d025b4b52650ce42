import Mathlib.Tactic.NormNum

/-!
# SCP timeouts (`HerderSCPDriver::computeTimeout`)

The timeout of a nomination round or a ballot counter grows linearly from an initial value,
one increment per round, and is capped at `MAX_TIMEOUT_MS`. Before protocol 23 the initial
value and the increment are one second; from protocol 23 on they are the SCP timing settings of
the network configuration, which `isValidConfigSettingEntry` keeps between fixed bounds.

The sum and the product are `uint32` arithmetic and are taken before the cap. As long as they
do not wrap, the timeout is the capped linear one and grows with the round; past `2^32` they
wrap, and a round a peer can push the ballot counter to gets a timeout of under a second.
-/

set_option autoImplicit false

namespace StellarCore.Herder

/-- `MAX_TIMEOUT_MS`: thirty minutes. -/
def maxTimeoutMS : UInt32 := (30 * 60) * 1000

/-- `ConfigSettingSCPTiming`. -/
structure ConfigSettingSCPTiming where
  ledgerTargetCloseTimeMilliseconds : UInt32
  nominationTimeoutInitialMilliseconds : UInt32
  nominationTimeoutIncrementMilliseconds : UInt32
  ballotTimeoutInitialMilliseconds : UInt32
  ballotTimeoutIncrementMilliseconds : UInt32

/-- One bound check of `isValidConfigSettingEntry`: the setting lies between the value of
`MinimumSorobanNetworkConfig` and that of `MaximumSorobanNetworkConfig`. -/
def settingWithin (setting minimum maximum : UInt32) : Bool :=
  decide (minimum ≤ setting) && decide (setting ≤ maximum)

/-- The `CONFIG_SETTING_SCP_TIMING` case of `SorobanNetworkConfig::isValidConfigSettingEntry`. -/
def isValidSCPTiming (ledgerVersion : Nat) (cfg : ConfigSettingSCPTiming) : Bool :=
  decide (23 ≤ ledgerVersion) &&
    settingWithin cfg.ledgerTargetCloseTimeMilliseconds 4000 5000 &&
    settingWithin cfg.nominationTimeoutInitialMilliseconds 750 2500 &&
    settingWithin cfg.nominationTimeoutIncrementMilliseconds 750 2000 &&
    settingWithin cfg.ballotTimeoutInitialMilliseconds 750 2500 &&
    settingWithin cfg.ballotTimeoutIncrementMilliseconds 750 2000

/-- The initial timeout and the increment `computeTimeout` uses: one second each before
protocol 23, the network's settings for nomination or for ballots after. -/
def timeoutSettings (ledgerVersion : Nat) (networkConfig : ConfigSettingSCPTiming)
    (isNomination : Bool) : UInt32 × UInt32 :=
  if 23 ≤ ledgerVersion then
    if isNomination then
      (networkConfig.nominationTimeoutInitialMilliseconds,
        networkConfig.nominationTimeoutIncrementMilliseconds)
    else
      (networkConfig.ballotTimeoutInitialMilliseconds,
        networkConfig.ballotTimeoutIncrementMilliseconds)
  else (1000, 1000)

/-- `HerderSCPDriver::computeTimeout`, in milliseconds, for the last closed ledger's protocol
version and SCP timing settings. -/
def computeTimeout (ledgerVersion : Nat) (networkConfig : ConfigSettingSCPTiming)
    (roundNumber : UInt32) (isNomination : Bool) : Except String Nat :=
  if roundNumber > 0 then
    let (initialTimeoutMS, incrementMS) := timeoutSettings ledgerVersion networkConfig isNomination
    let timeoutMS := initialTimeoutMS + (roundNumber - 1) * incrementMS
    let timeoutMS := if timeoutMS > maxTimeoutMS then maxTimeoutMS else timeoutMS
    .ok timeoutMS.toNat
  else .error "roundNumber > 0"

theorem timeoutSettings_of_lt {ledgerVersion : Nat} (networkConfig : ConfigSettingSCPTiming)
    (isNomination : Bool) (before : ledgerVersion < 23) :
    timeoutSettings ledgerVersion networkConfig isNomination = (1000, 1000) := by
  simp [timeoutSettings, Nat.not_le.mpr before]

theorem maxTimeoutMS_toNat : maxTimeoutMS.toNat = 1800000 := rfl

/-- `computeTimeout` caps the `uint32` value of the linear timeout. -/
theorem computeTimeout_eq (ledgerVersion : Nat) (networkConfig : ConfigSettingSCPTiming)
    {roundNumber : UInt32} (isNomination : Bool) (positive : 0 < roundNumber) :
    computeTimeout ledgerVersion networkConfig roundNumber isNomination =
      .ok (min (((timeoutSettings ledgerVersion networkConfig isNomination).1.toNat +
        (roundNumber.toNat - 1) * (timeoutSettings ledgerVersion networkConfig isNomination).2.toNat)
          % 2 ^ 32) 1800000) := by
  rcases settings : timeoutSettings ledgerVersion networkConfig isNomination with
    ⟨initial, increment⟩
  have value : (initial + (roundNumber - 1) * increment).toNat =
      (initial.toNat + (roundNumber.toNat - 1) * increment.toNat) % 2 ^ 32 := by
    rw [UInt32.toNat_add, UInt32.toNat_mul, UInt32.toNat_sub_of_le _ _ positive, UInt32.toNat_one,
      Nat.add_mod_mod]
  have capped : ∀ timeoutMS : UInt32,
      (if timeoutMS > maxTimeoutMS then maxTimeoutMS else timeoutMS).toNat =
        min timeoutMS.toNat 1800000 := by
    intro timeoutMS
    split <;> rename_i above <;> simp only [gt_iff_lt, UInt32.lt_iff_toNat_lt,
      maxTimeoutMS_toNat] at above ⊢ <;> omega
  simp only [computeTimeout, positive, if_true, settings, capped, value]

/-- Where the linear timeout fits a `uint32`, `computeTimeout` is the linear timeout capped at
thirty minutes. -/
theorem computeTimeout_of_fits (ledgerVersion : Nat) (networkConfig : ConfigSettingSCPTiming)
    {roundNumber : UInt32} (isNomination : Bool) (positive : 0 < roundNumber)
    (fits : (timeoutSettings ledgerVersion networkConfig isNomination).1.toNat +
      (roundNumber.toNat - 1) * (timeoutSettings ledgerVersion networkConfig isNomination).2.toNat <
        2 ^ 32) :
    computeTimeout ledgerVersion networkConfig roundNumber isNomination =
      .ok (min ((timeoutSettings ledgerVersion networkConfig isNomination).1.toNat +
        (roundNumber.toNat - 1) * (timeoutSettings ledgerVersion networkConfig isNomination).2.toNat)
          1800000) := by
  rw [computeTimeout_eq ledgerVersion networkConfig isNomination positive, Nat.mod_eq_of_lt fits]

/-- Below the wrap, the timeout never shrinks as the round grows. -/
theorem computeTimeout_le_of_fits (ledgerVersion : Nat) (networkConfig : ConfigSettingSCPTiming)
    (isNomination : Bool) {roundNumber roundNumber' : UInt32} (positive : 0 < roundNumber)
    (later : roundNumber ≤ roundNumber')
    (fits : (timeoutSettings ledgerVersion networkConfig isNomination).1.toNat +
      (roundNumber'.toNat - 1) * (timeoutSettings ledgerVersion networkConfig isNomination).2.toNat <
        2 ^ 32) :
    ∃ timeout timeout', computeTimeout ledgerVersion networkConfig roundNumber isNomination =
      .ok timeout ∧ computeTimeout ledgerVersion networkConfig roundNumber' isNomination =
        .ok timeout' ∧ timeout ≤ timeout' := by
  have laterNat : roundNumber.toNat ≤ roundNumber'.toNat := UInt32.le_iff_toNat_le.mp later
  have positive' : 0 < roundNumber' :=
    UInt32.lt_iff_toNat_lt.mpr (lt_of_lt_of_le (UInt32.lt_iff_toNat_lt.mp positive) laterNat)
  have grows : (roundNumber.toNat - 1) * (timeoutSettings ledgerVersion networkConfig isNomination).2.toNat ≤
      (roundNumber'.toNat - 1) * (timeoutSettings ledgerVersion networkConfig isNomination).2.toNat :=
    Nat.mul_le_mul_right _ (by omega)
  refine ⟨_, _, computeTimeout_of_fits ledgerVersion networkConfig isNomination positive (by omega),
    computeTimeout_of_fits ledgerVersion networkConfig isNomination positive' fits, ?_⟩
  exact min_le_min_right _ (by omega)

/-- Before protocol 23, ballot counter `4294968` wraps the linear timeout to `704` ms, where
counter `1801` already has the thirty-minute cap. -/
theorem computeTimeout_wraps (networkConfig : ConfigSettingSCPTiming) :
    computeTimeout 22 networkConfig 4294968 false = .ok 704 ∧
      min (1000 + (4294968 - 1) * 1000) 1800000 = 1800000 ∧
      computeTimeout 22 networkConfig 1801 false = .ok 1800000 := by
  refine ⟨?_, by norm_num, ?_⟩
  · rw [computeTimeout_eq 22 networkConfig false (by decide),
      timeoutSettings_of_lt networkConfig false (by decide)]
    decide
  · rw [computeTimeout_eq 22 networkConfig false (by decide),
      timeoutSettings_of_lt networkConfig false (by decide)]
    decide

end StellarCore.Herder

import Mathlib.Data.List.Sort
import SatoshiBridge.Model.Basic

/-!
# The configuration

`Config` with its validity check, the fee rules, the confirmation tiers and the scripts it names.
The tiers are keyed by the decimal text of their bound, as the source stores them, so reading a
tier parses the key and looks the printed number up again.
-/

set_option autoImplicit false
set_option relaxedAutoImplicit false

namespace SatoshiBridge

/-- `MAX_RATIO`. -/
def maxRatio : ℕ := 10000

structure BridgeFee where
  feeMin : ℕ
  feeRate : ℕ
  protocolFeeRate : ℕ
deriving DecidableEq

namespace BridgeFee

def assertValid (fee : BridgeFee) : Option Unit := do
  require (fee.feeRate < maxRatio)
  require (fee.protocolFeeRate ≤ maxRatio)

/-- `get_fee`. -/
def getFee (fee : BridgeFee) (amount : ℕ) : ℕ :=
  max (amount * fee.feeRate / maxRatio) fee.feeMin

/-- `get_protocol_and_relayer_fee`. -/
def getProtocolAndRelayerFee (fee : BridgeFee) (feeAmount : ℕ) : Option (ℕ × ℕ) := do
  let protocolFee := feeAmount * fee.protocolFeeRate / maxRatio
  let relayerFee ← checkedSub feeAmount protocolFee
  some (protocolFee, relayerFee)

/-- The two parts of a fee add up to it. -/
theorem getProtocolAndRelayerFee_spec {fee : BridgeFee} {feeAmount protocolFee relayerFee : ℕ}
    (h : fee.getProtocolAndRelayerFee feeAmount = some (protocolFee, relayerFee)) :
    protocolFee + relayerFee = feeAmount := by
  simp only [getProtocolAndRelayerFee, Option.bind_eq_bind, Option.bind_eq_some_iff,
    checkedSub_eq_some, Option.some.injEq, Prod.mk.injEq] at h
  obtain ⟨r, hr, rfl, rfl⟩ := h
  omega

end BridgeFee

structure Config where
  chain : Chain
  btcLightClientAccountId : AccountId
  nbtcAccountId : AccountId
  chainSignaturesAccountId : AccountId
  chainSignaturesRootPublicKey : Option PublicKey
  changeAddress : Option String
  confirmationsStrategy : FiniteMap String ℕ
  confirmationsDelta : ℕ
  extraMsgConfirmationsDelta : ℕ
  depositBridgeFee : BridgeFee
  withdrawBridgeFee : BridgeFee
  minDepositAmount : ℕ
  minWithdrawAmount : ℕ
  minChangeAmount : ℕ
  maxChangeAmount : ℕ
  minBtcGasFee : ℕ
  maxBtcGasFee : ℕ
  maxWithdrawalInputNumber : ℕ
  maxChangeNumber : ℕ
  maxActiveUtxoManagementInputNumber : ℕ
  maxActiveUtxoManagementOutputNumber : ℕ
  activeManagementLowerLimit : ℕ
  activeManagementUpperLimit : ℕ
  passiveManagementLowerLimit : ℕ
  passiveManagementUpperLimit : ℕ
  rbfNumLimit : ℕ
  maxBtcTxPendingSec : ℕ
  unhealthyUtxoAmount : ℕ
  refundTimelockSec : ℕ
  unsafeRefundTimelockSec : ℕ
  expiryHeightGap : ℕ

/-- `str::parse::<u128>`: an optional plus sign and at least one decimal digit, below `2 ^ 128`. -/
def parseU128 (s : String) : Option ℕ :=
  let digits := match s.toList with
    | '+' :: rest => rest
    | chars => chars
  if digits.isEmpty || !digits.all Char.isDigit then none
  else
    let n := digits.foldl (fun acc c ↦ acc * 10 + (c.toNat - '0'.toNat)) 0
    if n < 2 ^ 128 then some n else none

namespace Config

/-- The tiers with parsed bounds; an unparsable key panics. -/
def tiers (config : Config) : Option (List (ℕ × ℕ)) :=
  config.confirmationsStrategy.entries.mapM fun e ↦ do
    let bound ← parseU128 e.1
    some (bound, e.2)

def assertValid (config : Config) : Option Unit := do
  require (∀ e ∈ config.confirmationsStrategy.entries, 2 ≤ e.2 ∧ e.2 ≤ 100)
  let tiers ← config.tiers
  let sorted := tiers.insertionSort fun a b ↦ a.1 ≤ b.1
  require (∀ pair ∈ sorted.zip sorted.tail, pair.1.2 ≤ pair.2.2)
  config.depositBridgeFee.assertValid
  config.withdrawBridgeFee.assertValid
  require (config.minChangeAmount < config.maxChangeAmount)
  require (config.minBtcGasFee < config.maxBtcGasFee)
  require (config.activeManagementLowerLimit < config.activeManagementUpperLimit)
  require (config.passiveManagementLowerLimit < config.passiveManagementUpperLimit)
  require (config.minChangeAmount < config.unhealthyUtxoAmount)
  require (config.refundTimelockSec ≤ config.unsafeRefundTimelockSec)
  require (config.depositBridgeFee.feeMin < config.minDepositAmount)

/-- `string_to_script_pubkey`. -/
def stringToScriptPubkey (host : Host) (config : Config) (address : String) :
    Option ScriptBuf := do
  let parsed ← host.parseAddress config.chain address
  parsed.scriptPubkey

/-- `get_change_script_pubkey`. -/
def getChangeScriptPubkey (host : Host) (config : Config) : Option ScriptBuf := do
  let address ← config.changeAddress
  config.stringToScriptPubkey host address

/-- `target_script_pubkey`: an address that does not parse panics, one without a transparent
receiver has no script. -/
def targetScriptPubkey (host : Host) (config : Config) (address : String) :
    Option (Option ScriptBuf) := do
  let parsed ← host.parseAddress config.chain address
  some parsed.scriptPubkey

/-- `get_confirmations`. -/
def getConfirmations (config : Config) (satoshiAmount : ℕ) : Option ℕ := do
  require (config.confirmationsStrategy.entries ≠ [])
  let keys ← config.confirmationsStrategy.keys.mapM parseU128
  let sorted := keys.insertionSort (· ≤ ·)
  match sorted.find? (satoshiAmount < ·) with
  | some key => config.confirmationsStrategy.lookup (toString key)
  | none => do
    let maxKey ← sorted.getLast?
    config.confirmationsStrategy.lookup (toString maxKey)

/-- `max_tier_confirmations`. -/
def maxTierConfirmations (config : Config) : ℕ :=
  (config.confirmationsStrategy.entries.map fun e ↦ e.2).foldr max 0

/-- `max_required_confirmations`. -/
def maxRequiredConfirmations (config : Config) : ℕ :=
  config.maxTierConfirmations + max config.confirmationsDelta config.extraMsgConfirmationsDelta

end Config

/-! ### Updating the configuration -/

/-- `ConfigUpdate`: the fields it names are replaced, the others are kept. -/
structure ConfigUpdate where
  btcLightClientAccountId : Option AccountId
  nbtcAccountId : Option AccountId
  confirmationsDelta : Option ℕ
  extraMsgConfirmationsDelta : Option ℕ
  depositBridgeFee : Option BridgeFee
  withdrawBridgeFee : Option BridgeFee
  minDepositAmount : Option ℕ
  minWithdrawAmount : Option ℕ
  minChangeAmount : Option ℕ
  maxChangeAmount : Option ℕ
  minBtcGasFee : Option ℕ
  maxBtcGasFee : Option ℕ
  maxWithdrawalInputNumber : Option ℕ
  maxChangeNumber : Option ℕ
  maxActiveUtxoManagementInputNumber : Option ℕ
  maxActiveUtxoManagementOutputNumber : Option ℕ
  activeManagementLowerLimit : Option ℕ
  activeManagementUpperLimit : Option ℕ
  passiveManagementLowerLimit : Option ℕ
  passiveManagementUpperLimit : Option ℕ
  rbfNumLimit : Option ℕ
  maxBtcTxPendingSec : Option ℕ
  unhealthyUtxoAmount : Option ℕ
  refundTimelockSec : Option ℕ
  unsafeRefundTimelockSec : Option ℕ

/-- `ConfigUpdate::apply`. -/
def ConfigUpdate.apply (update : ConfigUpdate) (config : Config) : Option Config := do
  let config := { config with
    btcLightClientAccountId :=
      update.btcLightClientAccountId.getD config.btcLightClientAccountId
    nbtcAccountId := update.nbtcAccountId.getD config.nbtcAccountId
    confirmationsDelta := update.confirmationsDelta.getD config.confirmationsDelta
    extraMsgConfirmationsDelta :=
      update.extraMsgConfirmationsDelta.getD config.extraMsgConfirmationsDelta
    depositBridgeFee := update.depositBridgeFee.getD config.depositBridgeFee
    withdrawBridgeFee := update.withdrawBridgeFee.getD config.withdrawBridgeFee
    minDepositAmount := update.minDepositAmount.getD config.minDepositAmount
    minWithdrawAmount := update.minWithdrawAmount.getD config.minWithdrawAmount
    minChangeAmount := update.minChangeAmount.getD config.minChangeAmount
    maxChangeAmount := update.maxChangeAmount.getD config.maxChangeAmount
    minBtcGasFee := update.minBtcGasFee.getD config.minBtcGasFee
    maxBtcGasFee := update.maxBtcGasFee.getD config.maxBtcGasFee
    maxWithdrawalInputNumber :=
      update.maxWithdrawalInputNumber.getD config.maxWithdrawalInputNumber
    maxChangeNumber := update.maxChangeNumber.getD config.maxChangeNumber
    maxActiveUtxoManagementInputNumber :=
      update.maxActiveUtxoManagementInputNumber.getD config.maxActiveUtxoManagementInputNumber
    maxActiveUtxoManagementOutputNumber :=
      update.maxActiveUtxoManagementOutputNumber.getD config.maxActiveUtxoManagementOutputNumber
    activeManagementLowerLimit :=
      update.activeManagementLowerLimit.getD config.activeManagementLowerLimit
    activeManagementUpperLimit :=
      update.activeManagementUpperLimit.getD config.activeManagementUpperLimit
    passiveManagementLowerLimit :=
      update.passiveManagementLowerLimit.getD config.passiveManagementLowerLimit
    passiveManagementUpperLimit :=
      update.passiveManagementUpperLimit.getD config.passiveManagementUpperLimit
    rbfNumLimit := update.rbfNumLimit.getD config.rbfNumLimit
    maxBtcTxPendingSec := update.maxBtcTxPendingSec.getD config.maxBtcTxPendingSec
    unhealthyUtxoAmount := update.unhealthyUtxoAmount.getD config.unhealthyUtxoAmount
    refundTimelockSec := update.refundTimelockSec.getD config.refundTimelockSec
    unsafeRefundTimelockSec :=
      update.unsafeRefundTimelockSec.getD config.unsafeRefundTimelockSec }
  config.assertValid
  some config

/-- No update touches what addresses are derived from. -/
theorem ConfigUpdate.apply_spec {update : ConfigUpdate} {config config' : Config}
    (h : update.apply config = some config') :
    config'.chain = config.chain ∧
      config'.chainSignaturesRootPublicKey = config.chainSignaturesRootPublicKey ∧
      config'.changeAddress = config.changeAddress ∧
      config'.nbtcAccountId = update.nbtcAccountId.getD config.nbtcAccountId := by
  simp only [ConfigUpdate.apply, Option.bind_eq_bind, Option.bind_eq_some_iff,
    Option.some.injEq] at h
  obtain ⟨_, _, rfl⟩ := h
  exact ⟨rfl, rfl, rfl, rfl⟩

end SatoshiBridge

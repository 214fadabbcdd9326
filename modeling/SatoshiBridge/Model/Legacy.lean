import SatoshiBridge.Model.Management

/-!
# Stored states of earlier versions

The layouts the contract data and its configuration had in earlier versions, and `migrate_state`,
which turns each of them into the current layout after an upgrade. A stored account or refund
request may itself be of an earlier version; the maps are carried over as they are and such a value
is converted when it is read, so `ContractData` holds versioned values and `ContractData.read` is
the contract the methods work on. A UTXO and a pending transaction have a single version each.
-/

set_option autoImplicit false
set_option relaxedAutoImplicit false

namespace SatoshiBridge

/-! ### Versioned values -/

structure AccountV0 where
  accountId : AccountId
  btcPendingSignId : Option Txid
  btcPendingVerifyList : Finset Txid
deriving DecidableEq

/-- `From<AccountV0> for Account`. -/
def AccountV0.toAccount (v : AccountV0) : Account where
  accountId := v.accountId
  btcPendingSignIds := match v.btcPendingSignId with
    | some id => {id}
    | none => ∅
  btcPendingVerifyList := v.btcPendingVerifyList

inductive VAccount
  | v0 (account : AccountV0)
  | current (account : Account)
deriving DecidableEq

/-- `From<VAccount> for Account`. -/
def VAccount.toAccount : VAccount → Account
  | .v0 c => c.toAccount
  | .current c => c

structure RefundRequestV0 where
  depositMsgJson : String
  utxoStorageKey : OutPoint
  txBytes : List UInt8
  vout : ℕ
  amount : ℕ
  refundAddress : String
  gasFee : ℕ
  createdAtSec : ℕ
deriving DecidableEq

/-- `From<RefundRequestV0> for RefundRequest`: a stored request of that version is still
pending. -/
def RefundRequestV0.toRefundRequest (v : RefundRequestV0) : RefundRequest where
  depositMsgJson := v.depositMsgJson
  utxoStorageKey := v.utxoStorageKey
  txBytes := v.txBytes
  vout := v.vout
  amount := v.amount
  refundAddress := v.refundAddress
  gasFee := v.gasFee
  createdAtSec := v.createdAtSec
  executed := false

inductive VRefundRequest
  | v0 (request : RefundRequestV0)
  | current (request : RefundRequest)
deriving DecidableEq

/-- `From<VRefundRequest> for RefundRequest`. -/
def VRefundRequest.toRefundRequest : VRefundRequest → RefundRequest
  | .v0 c => c.toRefundRequest
  | .current c => c

/-! ### The builds -/

/-- The type of a field under `#[cfg(feature = "zcash")]` and `#[cfg(not(feature = "zcash"))]`. -/
def Cfg (zcash : Bool) (α β : Type) : Type := if zcash then α else β

/-- A value computed from such a field by each build. -/
def Cfg.elim {α β γ : Type} : {zcash : Bool} → (α → γ) → (β → γ) → Cfg zcash α β → γ
  | true, f, _, x => f x
  | false, _, g, x => g x

theorem Cfg.getD_elim {α β γ : Type} {zcash : Bool} (f : α → Option γ) (g : β → Option γ) (d : γ)
    (x : Cfg zcash α β) :
    (x.elim f g).getD d = x.elim (fun a ↦ (f a).getD d) (fun b ↦ (g b).getD d) := by
  cases zcash <;> rfl

/-- What both builds establish holds in the build at hand. -/
theorem Cfg.elim_of {α β γ : Type} {zcash : Bool} {p : α → Prop} {q : β → Prop} {r : γ → Prop}
    {f : α → γ} {g : β → γ} (hf : ∀ a, p a → r (f a)) (hg : ∀ b, q b → r (g b))
    {x : Cfg zcash α β} (h : x.elim p q) : r (x.elim f g) := by
  cases zcash with
  | true => exact hf x h
  | false => exact hg x h

/-! ### Configurations -/

/-- `DEFAULT_REFUND_TIMELOCK_SEC`. -/
def defaultRefundTimelockSec : ℕ := 2 * 24 * 3600

/-- `DEFAULT_UNSAFE_REFUND_TIMELOCK_SEC`. -/
def defaultUnsafeRefundTimelockSec : ℕ := 14 * 24 * 3600

structure ConfigV0 where
  btcLightClientAccountId : AccountId
  nbtcAccountId : AccountId
  chainSignaturesAccountId : AccountId
  chainSignaturesRootPublicKey : Option PublicKey
  changeAddress : Option String
  confirmationsStrategy : FiniteMap String ℕ
  confirmationsDelta : ℕ
  depositBridgeFee : BridgeFee
  withdrawBridgeFee : BridgeFee
  minDepositAmount : ℕ
  minWithdrawAmount : ℕ
  minChangeAmount : ℕ
  maxChangeAmount : ℕ
  minBtcGasFee : ℕ
  maxBtcGasFee : ℕ
  maxWithdrawalInputNumber : ℕ
  maxChangeNumber : ℕ
  maxActiveUtxoManagementInputNumber : ℕ
  maxActiveUtxoManagementOutputNumber : ℕ
  activeManagementLowerLimit : ℕ
  activeManagementUpperLimit : ℕ
  passiveManagementLowerLimit : ℕ
  passiveManagementUpperLimit : ℕ
  rbfNumLimit : ℕ
  maxBtcTxPendingSec : ℕ

/-- The expiry height gap is a field of the Zcash build, as in `Config`. -/
structure ConfigV1 extends ConfigV0 where
  extraMsgConfirmationsDelta : ℕ
  unhealthyUtxoAmount : ℕ
  expiryHeightGap : ℕ

structure ConfigV2 extends ConfigV1 where
  chain : Chain

structure ConfigV3 extends ConfigV2 where
  refundTimelockSec : ℕ

/-- The configuration with the fields of `ConfigV0` and the given values of the fields that came
after it. -/
def ConfigV0.toConfig (c : ConfigV0) (chain : Chain)
    (extraMsgConfirmationsDelta unhealthyUtxoAmount refundTimelockSec unsafeRefundTimelockSec
      expiryHeightGap : ℕ) : Config where
  chain := chain
  btcLightClientAccountId := c.btcLightClientAccountId
  nbtcAccountId := c.nbtcAccountId
  chainSignaturesAccountId := c.chainSignaturesAccountId
  chainSignaturesRootPublicKey := c.chainSignaturesRootPublicKey
  changeAddress := c.changeAddress
  confirmationsStrategy := c.confirmationsStrategy
  confirmationsDelta := c.confirmationsDelta
  extraMsgConfirmationsDelta := extraMsgConfirmationsDelta
  depositBridgeFee := c.depositBridgeFee
  withdrawBridgeFee := c.withdrawBridgeFee
  minDepositAmount := c.minDepositAmount
  minWithdrawAmount := c.minWithdrawAmount
  minChangeAmount := c.minChangeAmount
  maxChangeAmount := c.maxChangeAmount
  minBtcGasFee := c.minBtcGasFee
  maxBtcGasFee := c.maxBtcGasFee
  maxWithdrawalInputNumber := c.maxWithdrawalInputNumber
  maxChangeNumber := c.maxChangeNumber
  maxActiveUtxoManagementInputNumber := c.maxActiveUtxoManagementInputNumber
  maxActiveUtxoManagementOutputNumber := c.maxActiveUtxoManagementOutputNumber
  activeManagementLowerLimit := c.activeManagementLowerLimit
  activeManagementUpperLimit := c.activeManagementUpperLimit
  passiveManagementLowerLimit := c.passiveManagementLowerLimit
  passiveManagementUpperLimit := c.passiveManagementUpperLimit
  rbfNumLimit := c.rbfNumLimit
  maxBtcTxPendingSec := c.maxBtcTxPendingSec
  unhealthyUtxoAmount := unhealthyUtxoAmount
  refundTimelockSec := refundTimelockSec
  unsafeRefundTimelockSec := unsafeRefundTimelockSec
  expiryHeightGap := expiryHeightGap

/-- The chain of a configuration that did not name it, by the account of the contract. -/
def chainOfAccount (host : Host) : Chain :=
  if ".testnet".toList <:+ host.currentAccountId.toList then .bitcoinTestnet else .bitcoinMainnet

/-- `From<ConfigV0> for Config`. -/
def ConfigV0.into (host : Host) (c : ConfigV0) : Config :=
  c.toConfig (chainOfAccount host) 1 1000 defaultRefundTimelockSec defaultUnsafeRefundTimelockSec
    1000

/-- `From<ConfigV1> for Config`. -/
def ConfigV1.into (host : Host) (c : ConfigV1) : Config :=
  c.toConfigV0.toConfig (chainOfAccount host) c.extraMsgConfirmationsDelta c.unhealthyUtxoAmount
    defaultRefundTimelockSec defaultUnsafeRefundTimelockSec c.expiryHeightGap

/-- `From<ConfigV2> for Config`. -/
def ConfigV2.into (c : ConfigV2) : Config :=
  c.toConfigV0.toConfig c.chain c.extraMsgConfirmationsDelta c.unhealthyUtxoAmount
    defaultRefundTimelockSec defaultUnsafeRefundTimelockSec c.expiryHeightGap

/-- `From<ConfigV3> for Config`. -/
def ConfigV3.into (c : ConfigV3) : Config :=
  c.toConfigV0.toConfig c.chain c.extraMsgConfirmationsDelta c.unhealthyUtxoAmount
    c.refundTimelockSec defaultUnsafeRefundTimelockSec c.expiryHeightGap

/-! ### Contract data -/

/-- The fields that every version of the contract data has beside its configuration. -/
structure SharedFields where
  accounts : FiniteMap AccountId VAccount
  utxos : FiniteMap OutPoint UTXO
  unavailableUtxos : FiniteMap OutPoint UTXO
  verifiedDepositUtxo : Finset OutPoint
  btcPendingInfos : FiniteMap Txid BTCPendingInfo
  rbfTxs : FiniteMap Txid (Finset Txid)
  relayerWhiteList : Finset AccountId
  postActionReceiverIdWhiteList : Finset AccountId
  lostFound : FiniteMap AccountId ℕ
  accCollectedProtocolFee : ℕ
  curAvailableProtocolFee : ℕ
  accClaimedProtocolFee : ℕ
  curReservedProtocolFee : ℕ
  accProtocolFeeForGas : ℕ

/-- The fields that some versions lack; one that is not given is created empty. -/
structure AddedFields where
  utxosInProgress : FiniteMap OutPoint UTXO := ∅
  extraMsgRelayerWhiteList : Finset AccountId := ∅
  postActionMsgTemplates : FiniteMap AccountId (Finset String) := ∅
  pendingTxLimits : FiniteMap AccountId ℕ := ∅
  refundRequests : FiniteMap OutPoint VRefundRequest := ∅

structure ContractData extends SharedFields, AddedFields where
  config : Option Config
  blockBridgeAmounts : BlockAmountRing

structure ContractDataV0 extends SharedFields where
  config : Option Config

structure ContractDataV1 extends SharedFields where
  config : Option ConfigV0
  postActionMsgTemplates : FiniteMap AccountId (Finset String)

structure ContractDataV2 (zcash : Bool) extends SharedFields where
  config : Option (Cfg zcash ConfigV2 ConfigV1)
  extraMsgRelayerWhiteList : Finset AccountId
  postActionMsgTemplates : FiniteMap AccountId (Finset String)

structure ContractDataV3 extends SharedFields where
  config : Option ConfigV2
  extraMsgRelayerWhiteList : Finset AccountId
  postActionMsgTemplates : FiniteMap AccountId (Finset String)

structure ContractDataV4 (zcash : Bool) extends SharedFields where
  config : Option ConfigV3
  extraMsgRelayerWhiteList : Finset AccountId
  postActionMsgTemplates : FiniteMap AccountId (Finset String)
  pendingTxLimits : FiniteMap AccountId ℕ
  refundRequests : Cfg zcash Unit (FiniteMap OutPoint VRefundRequest)

structure ContractDataV5 (zcash : Bool) extends SharedFields where
  config : Option Config
  extraMsgRelayerWhiteList : Finset AccountId
  postActionMsgTemplates : FiniteMap AccountId (Finset String)
  pendingTxLimits : FiniteMap AccountId ℕ
  refundRequests : Cfg zcash Unit (FiniteMap OutPoint VRefundRequest)

structure ContractDataV6 extends SharedFields where
  config : Option Config
  extraMsgRelayerWhiteList : Finset AccountId
  postActionMsgTemplates : FiniteMap AccountId (Finset String)
  pendingTxLimits : FiniteMap AccountId ℕ
  refundRequests : FiniteMap OutPoint VRefundRequest

structure ContractDataV7 extends SharedFields where
  config : Option Config
  utxosInProgress : FiniteMap OutPoint UTXO
  extraMsgRelayerWhiteList : Finset AccountId
  postActionMsgTemplates : FiniteMap AccountId (Finset String)
  pendingTxLimits : FiniteMap AccountId ℕ
  refundRequests : FiniteMap OutPoint VRefundRequest

/-- The current data with the shared fields of an earlier version, its configuration and the fields
it had beyond them; the ring starts empty. -/
def SharedFields.toContractData (c : SharedFields) (newConfig : Config) (added : AddedFields) :
    Option ContractData := do
  let ringCapacity := BlockAmountRing.capacityFor newConfig
  let ring ← BlockAmountRing.new ringCapacity
  some {
    config := some newConfig
    accounts := c.accounts
    utxos := c.utxos
    utxosInProgress := added.utxosInProgress
    unavailableUtxos := c.unavailableUtxos
    verifiedDepositUtxo := c.verifiedDepositUtxo
    btcPendingInfos := c.btcPendingInfos
    rbfTxs := c.rbfTxs
    relayerWhiteList := c.relayerWhiteList
    extraMsgRelayerWhiteList := added.extraMsgRelayerWhiteList
    postActionReceiverIdWhiteList := c.postActionReceiverIdWhiteList
    postActionMsgTemplates := added.postActionMsgTemplates
    pendingTxLimits := added.pendingTxLimits
    lostFound := c.lostFound
    accCollectedProtocolFee := c.accCollectedProtocolFee
    curAvailableProtocolFee := c.curAvailableProtocolFee
    accClaimedProtocolFee := c.accClaimedProtocolFee
    curReservedProtocolFee := c.curReservedProtocolFee
    accProtocolFeeForGas := c.accProtocolFeeForGas
    refundRequests := added.refundRequests
    blockBridgeAmounts := ring }

/-- The conversion always succeeds and keeps what it is given. -/
theorem SharedFields.toContractData_spec (c : SharedFields) (newConfig : Config)
    (added : AddedFields) :
    ∃ new, c.toContractData newConfig added = some new ∧ new.toSharedFields = c ∧
      new.toAddedFields = added ∧ new.config = some newConfig ∧
      new.blockBridgeAmounts.capacity = BlockAmountRing.capacityFor newConfig := by
  have hpos := BlockAmountRing.capacityFor_pos newConfig
  simp only [toContractData, BlockAmountRing.new, require_of hpos, Option.bind_eq_bind,
    Option.bind_some, Option.some.injEq]
  exact ⟨_, rfl, rfl, rfl, rfl, List.length_replicate⟩

/-- `From<ContractDataV0> for ContractData`. -/
def ContractDataV0.into (c : ContractDataV0) : Option ContractData := do
  let config ← c.config
  c.toContractData config {}

/-- `From<ContractDataV1> for ContractData`. -/
def ContractDataV1.into (host : Host) (c : ContractDataV1) : Option ContractData := do
  let configV0 ← c.config
  c.toContractData (configV0.into host) { postActionMsgTemplates := c.postActionMsgTemplates }

/-- `From<ContractDataV2> for ContractData`. -/
def ContractDataV2.into (host : Host) (c : ContractDataV2 host.zcash) : Option ContractData := do
  let config ← c.config
  c.toContractData (config.elim ConfigV2.into (ConfigV1.into host)) {
    extraMsgRelayerWhiteList := c.extraMsgRelayerWhiteList
    postActionMsgTemplates := c.postActionMsgTemplates }

/-- `From<ContractDataV3> for ContractData`. -/
def ContractDataV3.into (c : ContractDataV3) : Option ContractData := do
  let config ← c.config
  c.toContractData config.into {
    extraMsgRelayerWhiteList := c.extraMsgRelayerWhiteList
    postActionMsgTemplates := c.postActionMsgTemplates }

/-- `From<ContractDataV4> for ContractData`. -/
def ContractDataV4.into {zcash : Bool} (c : ContractDataV4 zcash) : Option ContractData := do
  let config ← c.config
  c.toContractData config.into {
    extraMsgRelayerWhiteList := c.extraMsgRelayerWhiteList
    postActionMsgTemplates := c.postActionMsgTemplates
    pendingTxLimits := c.pendingTxLimits
    refundRequests := c.refundRequests.elim (fun _ ↦ ∅) id }

/-- `From<ContractDataV5> for ContractData`. -/
def ContractDataV5.into {zcash : Bool} (c : ContractDataV5 zcash) : Option ContractData := do
  let config ← c.config
  c.toContractData config {
    extraMsgRelayerWhiteList := c.extraMsgRelayerWhiteList
    postActionMsgTemplates := c.postActionMsgTemplates
    pendingTxLimits := c.pendingTxLimits
    refundRequests := c.refundRequests.elim (fun _ ↦ ∅) id }

/-- `From<ContractDataV6> for ContractData`. -/
def ContractDataV6.into (c : ContractDataV6) : Option ContractData := do
  let config ← c.config
  c.toContractData config {
    extraMsgRelayerWhiteList := c.extraMsgRelayerWhiteList
    postActionMsgTemplates := c.postActionMsgTemplates
    pendingTxLimits := c.pendingTxLimits
    refundRequests := c.refundRequests }

/-- `From<ContractDataV7> for ContractData`. -/
def ContractDataV7.into (c : ContractDataV7) : Option ContractData := do
  let config ← c.config
  c.toContractData config {
    utxosInProgress := c.utxosInProgress
    extraMsgRelayerWhiteList := c.extraMsgRelayerWhiteList
    postActionMsgTemplates := c.postActionMsgTemplates
    pendingTxLimits := c.pendingTxLimits
    refundRequests := c.refundRequests }

/-! ### The migration -/

inductive VersionedContractData (zcash : Bool)
  | v0 (data : ContractDataV0)
  | v1 (data : ContractDataV1)
  | v2 (data : ContractDataV2 zcash)
  | v3 (data : ContractDataV3)
  | v4 (data : ContractDataV4 zcash)
  | v5 (data : ContractDataV5 zcash)
  | v6 (data : ContractDataV6)
  | v7 (data : ContractDataV7)
  | current (data : ContractData)

/-- `migrate_state`. -/
def migrateState (host : Host) :
    VersionedContractData host.zcash → Option (VersionedContractData host.zcash)
  | .v0 data => .current <$> data.into
  | .v1 data => .current <$> data.into host
  | .v2 data => .current <$> data.into host
  | .v3 data => .current <$> data.into
  | .v4 data => .current <$> data.into
  | .v5 data => .current <$> data.into
  | .v6 data => .current <$> data.into
  | .v7 data => .current <$> data.into
  | .current data => some (.current data)

/-- The contract as its methods read it, every stored value in its current version. The roles are
kept outside the contract data. -/
def ContractData.read (roles : Finset (Role × AccountId)) (data : ContractData) :
    Option Contract := do
  let config ← data.config
  some {
    roles := roles
    config := config
    accounts := data.accounts.mapValues VAccount.toAccount
    utxos := data.utxos
    utxosInProgress := data.utxosInProgress
    unavailableUtxos := data.unavailableUtxos
    verifiedDepositUtxo := data.verifiedDepositUtxo
    btcPendingInfos := data.btcPendingInfos
    rbfTxs := data.rbfTxs
    relayerWhiteList := data.relayerWhiteList
    extraMsgRelayerWhiteList := data.extraMsgRelayerWhiteList
    postActionReceiverIdWhiteList := data.postActionReceiverIdWhiteList
    postActionMsgTemplates := data.postActionMsgTemplates
    pendingTxLimits := data.pendingTxLimits
    lostFound := data.lostFound
    accCollectedProtocolFee := data.accCollectedProtocolFee
    curAvailableProtocolFee := data.curAvailableProtocolFee
    accClaimedProtocolFee := data.accClaimedProtocolFee
    curReservedProtocolFee := data.curReservedProtocolFee
    accProtocolFeeForGas := data.accProtocolFeeForGas
    refundRequests := data.refundRequests.mapValues VRefundRequest.toRefundRequest
    blockBridgeAmounts := data.blockBridgeAmounts }

/-- Accounts and refund requests are found under their keys, converted. -/
theorem ContractData.read_spec {roles : Finset (Role × AccountId)} {data : ContractData}
    {c : Contract} (h : data.read roles = some c) :
    data.config = some c.config ∧
      (∀ accountId, c.accounts.lookup accountId =
        (data.accounts.lookup accountId).map VAccount.toAccount) ∧
      ∀ utxoStorageKey, c.refundRequests.lookup utxoStorageKey =
        (data.refundRequests.lookup utxoStorageKey).map VRefundRequest.toRefundRequest := by
  simp only [read, Option.bind_eq_bind, Option.bind_eq_some_iff, Option.some.injEq] at h
  obtain ⟨config, hconfig, rfl⟩ := h
  exact ⟨hconfig, FiniteMap.lookup_mapValues _ _, FiniteMap.lookup_mapValues _ _⟩

end SatoshiBridge

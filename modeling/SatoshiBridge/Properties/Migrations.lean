import SatoshiBridge.Model.Legacy
import SatoshiBridge.Model.SampleRun

/-!
# What a migration keeps

`migrate_state` carries every map, set and fee counter of an earlier version over, creates the
fields that version lacked empty and sizes a new ring by the new configuration. It does not check
that configuration. Two of the conversions give a new field a constant that an old setting can
exceed: a minimum change amount from 1000 on is not below the unhealthy amount filled in beside it,
and a refund timelock over fourteen days is not below the unsafe one. After such a migration no
`update_config` is accepted that leaves the pair as it is.
-/

set_option autoImplicit false
set_option relaxedAutoImplicit false

namespace SatoshiBridge

/-! ### What earlier configurations can express -/

/-- The clauses of `Config::assert_valid` on the fields of `ConfigV0`. -/
structure ConfigV0.Valid (c : ConfigV0) : Prop where
  range : ∀ e ∈ c.confirmationsStrategy.entries, 2 ≤ e.2 ∧ e.2 ≤ 100
  sorted : ∃ tiers, (c.confirmationsStrategy.entries.mapM fun e ↦ do
      let bound ← parseU128 e.1
      some (bound, e.2)) = some tiers ∧
    ∀ pair ∈ (tiers.insertionSort fun a b ↦ a.1 ≤ b.1).zip
      (tiers.insertionSort fun a b ↦ a.1 ≤ b.1).tail, pair.1.2 ≤ pair.2.2
  depositFee : c.depositBridgeFee.assertValid = some ()
  withdrawFee : c.withdrawBridgeFee.assertValid = some ()
  change : c.minChangeAmount < c.maxChangeAmount
  gasFee : c.minBtcGasFee < c.maxBtcGasFee
  active : c.activeManagementLowerLimit < c.activeManagementUpperLimit
  passive : c.passiveManagementLowerLimit < c.passiveManagementUpperLimit
  deposit : c.depositBridgeFee.feeMin < c.minDepositAmount

/-- `ConfigV1` can also express the clause on the unhealthy amount. -/
structure ConfigV1.Valid (c : ConfigV1) : Prop where
  base : c.toConfigV0.Valid
  unhealthy : c.minChangeAmount < c.unhealthyUtxoAmount

/-- No clause is about the chain. -/
abbrev ConfigV2.Valid (c : ConfigV2) : Prop := c.toConfigV1.Valid

/-- The only clause on the refund timelock compares it with the unsafe one. -/
abbrev ConfigV3.Valid (c : ConfigV3) : Prop := c.toConfigV1.Valid

/-- What is left to check of a converted configuration are the clauses on its new fields. -/
theorem ConfigV0.assertValid_toConfig (c : ConfigV0) (chain : Chain)
    (delta unhealthy timelock unsafeTimelock gap : ℕ) :
    (c.toConfig chain delta unhealthy timelock unsafeTimelock gap).assertValid = some () ↔
      c.Valid ∧ c.minChangeAmount < unhealthy ∧ timelock ≤ unsafeTimelock := by
  simp only [Config.assertValid, Option.bind_eq_bind, Option.bind_eq_some_iff, require_eq_some,
    exists_const]
  constructor
  · rintro ⟨hrange, tiers, htiers, hsorted, _, hdepositFee, _, hwithdrawFee, hchange, hgasFee,
      hactive, hpassive, hunhealthy, htimelock, hdeposit⟩
    exact ⟨⟨hrange, ⟨tiers, htiers, hsorted⟩, hdepositFee, hwithdrawFee, hchange, hgasFee, hactive,
      hpassive, hdeposit⟩, hunhealthy, htimelock⟩
  · rintro ⟨hvalid, hunhealthy, htimelock⟩
    obtain ⟨tiers, htiers, hsorted⟩ := hvalid.sorted
    exact ⟨hvalid.range, tiers, htiers, hsorted, (), hvalid.depositFee, (), hvalid.withdrawFee,
      hvalid.change, hvalid.gasFee, hvalid.active, hvalid.passive, hunhealthy, htimelock,
      hvalid.deposit⟩

/-- The constants of the timelocks fit each other. -/
theorem defaultRefundTimelockSec_le :
    defaultRefundTimelockSec ≤ defaultUnsafeRefundTimelockSec := by decide

theorem ConfigV0.assertValid_into {c : ConfigV0} (h : c.Valid) (host : Host) :
    (c.into host).assertValid = some () ↔ c.minChangeAmount < 1000 := by
  rw [ConfigV0.into, ConfigV0.assertValid_toConfig]
  constructor
  · exact fun hvalid ↦ hvalid.2.1
  · exact fun hchange ↦ ⟨h, hchange, defaultRefundTimelockSec_le⟩

theorem ConfigV1.assertValid_into {c : ConfigV1} (h : c.Valid) (host : Host) :
    (c.into host).assertValid = some () := by
  rw [ConfigV1.into, ConfigV0.assertValid_toConfig]
  exact ⟨h.base, h.unhealthy, defaultRefundTimelockSec_le⟩

theorem ConfigV2.assertValid_into {c : ConfigV2} (h : c.Valid) :
    c.into.assertValid = some () := by
  rw [ConfigV2.into, ConfigV0.assertValid_toConfig]
  exact ⟨h.base, h.unhealthy, defaultRefundTimelockSec_le⟩

theorem ConfigV3.assertValid_into {c : ConfigV3} (h : c.Valid) :
    c.into.assertValid = some () ↔ c.refundTimelockSec ≤ defaultUnsafeRefundTimelockSec := by
  rw [ConfigV3.into, ConfigV0.assertValid_toConfig]
  constructor
  · exact fun hvalid ↦ hvalid.2.2
  · exact fun htimelock ↦ ⟨h.base, h.unhealthy, htimelock⟩

/-! ### An update of nothing -/

/-- The update that names no field. -/
def ConfigUpdate.empty : ConfigUpdate :=
  ⟨none, none, none, none, none, none, none, none, none, none, none, none, none, none, none, none,
    none, none, none, none, none, none, none, none, none⟩

/-- An update is checked even when it changes nothing. -/
theorem Contract.updateConfig_empty {env : Env} {c : Contract} (hdao : c.assertDao env = some ()) :
    (∃ receipt, c.updateConfig env .empty = some receipt) ↔ c.config.assertValid = some () := by
  obtain ⟨ring, hring⟩ :=
    c.blockBridgeAmounts.exists_resize (BlockAmountRing.capacityFor_pos c.config)
  have happly : ConfigUpdate.empty.apply c.config =
      c.config.assertValid.bind fun _ ↦ some c.config := rfl
  rw [updateConfig, hdao, happly]
  constructor
  · rintro ⟨receipt, h⟩
    simp only [Option.bind_eq_bind, Option.bind_eq_some_iff] at h
    obtain ⟨_, _, _, ⟨_, hvalid, _⟩, _⟩ := h
    exact hvalid
  · intro hvalid
    refine ⟨{ c with blockBridgeAmounts := ring }.done, ?_⟩
    rw [hvalid]
    change (c.resizeBlockAmountRing.bind fun c ↦ some c.done) = _
    rw [resizeBlockAmountRing, hring]
    rfl

/-! ### What earlier states hold -/

namespace VersionedContractData

variable {zcash : Bool}

/-- The fields every version has. -/
def shared : VersionedContractData zcash → SharedFields
  | .v0 data => data.toSharedFields
  | .v1 data => data.toSharedFields
  | .v2 data => data.toSharedFields
  | .v3 data => data.toSharedFields
  | .v4 data => data.toSharedFields
  | .v5 data => data.toSharedFields
  | .v6 data => data.toSharedFields
  | .v7 data => data.toSharedFields
  | .current data => data.toSharedFields

/-- The deposits in progress, for a version that stores them. -/
def utxosInProgress : VersionedContractData zcash → Option (FiniteMap OutPoint UTXO)
  | .v7 data => some data.utxosInProgress
  | .current data => some data.utxosInProgress
  | _ => none

/-- The relayers of deposits with an extra message, for a version that stores them. -/
def extraMsgRelayerWhiteList : VersionedContractData zcash → Option (Finset AccountId)
  | .v0 _ | .v1 _ => none
  | .v2 data => some data.extraMsgRelayerWhiteList
  | .v3 data => some data.extraMsgRelayerWhiteList
  | .v4 data => some data.extraMsgRelayerWhiteList
  | .v5 data => some data.extraMsgRelayerWhiteList
  | .v6 data => some data.extraMsgRelayerWhiteList
  | .v7 data => some data.extraMsgRelayerWhiteList
  | .current data => some data.extraMsgRelayerWhiteList

/-- The message templates of the post action receivers, for a version that stores them. -/
def postActionMsgTemplates :
    VersionedContractData zcash → Option (FiniteMap AccountId (Finset String))
  | .v0 _ => none
  | .v1 data => some data.postActionMsgTemplates
  | .v2 data => some data.postActionMsgTemplates
  | .v3 data => some data.postActionMsgTemplates
  | .v4 data => some data.postActionMsgTemplates
  | .v5 data => some data.postActionMsgTemplates
  | .v6 data => some data.postActionMsgTemplates
  | .v7 data => some data.postActionMsgTemplates
  | .current data => some data.postActionMsgTemplates

/-- The limits of pending transactions, for a version that stores them. -/
def pendingTxLimits : VersionedContractData zcash → Option (FiniteMap AccountId ℕ)
  | .v0 _ | .v1 _ | .v2 _ | .v3 _ => none
  | .v4 data => some data.pendingTxLimits
  | .v5 data => some data.pendingTxLimits
  | .v6 data => some data.pendingTxLimits
  | .v7 data => some data.pendingTxLimits
  | .current data => some data.pendingTxLimits

/-- The refund requests, for a version and a build that store them. -/
def refundRequests : VersionedContractData zcash → Option (FiniteMap OutPoint VRefundRequest)
  | .v0 _ | .v1 _ | .v2 _ | .v3 _ => none
  | .v4 data => data.refundRequests.elim (fun _ ↦ none) some
  | .v5 data => data.refundRequests.elim (fun _ ↦ none) some
  | .v6 data => some data.refundRequests
  | .v7 data => some data.refundRequests
  | .current data => some data.refundRequests

/-- A state of an earlier version with a configuration that meets the clauses of
`Config::assert_valid` its own fields can express. -/
def Legacy : VersionedContractData zcash → Prop
  | .v0 data => ∃ config, data.config = some config ∧ config.assertValid = some ()
  | .v1 data => ∃ config, data.config = some config ∧ config.Valid
  | .v2 data => ∃ config, data.config = some config ∧ config.elim ConfigV2.Valid ConfigV1.Valid
  | .v3 data => ∃ config, data.config = some config ∧ config.Valid
  | .v4 data => ∃ config, data.config = some config ∧ config.Valid
  | .v5 data => ∃ config, data.config = some config ∧ config.assertValid = some ()
  | .v6 data => ∃ config, data.config = some config ∧ config.assertValid = some ()
  | .v7 data => ∃ config, data.config = some config ∧ config.assertValid = some ()
  | .current _ => False

/-- The old settings fit the constants that are filled in beside them. -/
def Fits : VersionedContractData zcash → Prop
  | .v1 data => ∀ config, data.config = some config → config.minChangeAmount < 1000
  | .v4 data => ∀ config, data.config = some config →
      config.refundTimelockSec ≤ defaultUnsafeRefundTimelockSec
  | _ => True

/-- The other fields, empty where the version lacks them. -/
def added (data : VersionedContractData zcash) : AddedFields where
  utxosInProgress := data.utxosInProgress.getD ∅
  extraMsgRelayerWhiteList := data.extraMsgRelayerWhiteList.getD ∅
  postActionMsgTemplates := data.postActionMsgTemplates.getD ∅
  pendingTxLimits := data.pendingTxLimits.getD ∅
  refundRequests := data.refundRequests.getD ∅

/-! ### The migration -/

/-- What an upgrade is to leave: every field as it was stored, or empty if it was not, a ring of the
capacity the configuration asks for, and a valid configuration, so that the next update of it is
accepted. -/
structure UpgradedTo (data : VersionedContractData zcash) (new : ContractData) : Prop where
  shared : new.toSharedFields = data.shared
  added : new.toAddedFields = data.added
  config : ∃ config, new.config = some config ∧
    new.blockBridgeAmounts.capacity = BlockAmountRing.capacityFor config ∧
    config.assertValid = some ()
  update : ∀ roles env c, new.read roles = some c → c.assertDao env = some () →
    ∃ receipt, c.updateConfig env .empty = some receipt

variable {host : Host} {data : VersionedContractData host.zcash}

/-- A conversion that passes on the fields the version has. -/
theorem migrated {config : Config}
    (hmigrate : migrateState host data =
      (data.shared.toContractData config data.added).map .current)
    (hvalid : config.assertValid = some () ↔ data.Fits) :
    ∃ new config, migrateState host data = some (.current new) ∧
      new.toSharedFields = data.shared ∧ new.toAddedFields = data.added ∧
      new.config = some config ∧
      new.blockBridgeAmounts.capacity = BlockAmountRing.capacityFor config ∧
      (config.assertValid = some () ↔ data.Fits) := by
  obtain ⟨new, hnew, hshared, hadded, hconfig, hcapacity⟩ :=
    data.shared.toContractData_spec config data.added
  refine ⟨new, config, ?_, hshared, hadded, hconfig, hcapacity, hvalid⟩
  rw [hmigrate, hnew]
  rfl

/-- Every earlier state is migrated; its configuration comes out valid exactly when the old
settings fit the constants. -/
theorem Legacy.migrates (h : data.Legacy) :
    ∃ new config, migrateState host data = some (.current new) ∧
      new.toSharedFields = data.shared ∧ new.toAddedFields = data.added ∧
      new.config = some config ∧
      new.blockBridgeAmounts.capacity = BlockAmountRing.capacityFor config ∧
      (config.assertValid = some () ↔ data.Fits) := by
  cases data with
  | v0 data =>
    obtain ⟨config, hconfig, hvalid⟩ := h
    refine migrated ?_ (iff_of_true hvalid trivial)
    rw [migrateState, ContractDataV0.into, hconfig]
    rfl
  | v1 data =>
    obtain ⟨config, hconfig, hvalid⟩ := h
    refine migrated ?_ ((ConfigV0.assertValid_into hvalid host).trans ?_)
    · rw [migrateState, ContractDataV1.into, hconfig]
      rfl
    · rw [Fits, hconfig]
      simp only [Option.some.injEq, forall_eq']
  | v2 data =>
    obtain ⟨config, hconfig, hvalid⟩ := h
    have hvalid' : (config.elim ConfigV2.into (ConfigV1.into host)).assertValid = some () :=
      Cfg.elim_of (r := fun c : Config ↦ c.assertValid = some ())
        (fun _ ↦ ConfigV2.assertValid_into) (fun _ hc ↦ ConfigV1.assertValid_into hc host) hvalid
    refine migrated ?_ (iff_of_true hvalid' trivial)
    rw [migrateState, ContractDataV2.into, hconfig]
    rfl
  | v3 data =>
    obtain ⟨config, hconfig, hvalid⟩ := h
    refine migrated ?_ (iff_of_true (ConfigV2.assertValid_into hvalid) trivial)
    rw [migrateState, ContractDataV3.into, hconfig]
    rfl
  | v4 data =>
    obtain ⟨config, hconfig, hvalid⟩ := h
    refine migrated ?_ ((ConfigV3.assertValid_into hvalid).trans ?_)
    · rw [migrateState, ContractDataV4.into, hconfig, added, refundRequests, Cfg.getD_elim]
      rfl
    · rw [Fits, hconfig]
      simp only [Option.some.injEq, forall_eq']
  | v5 data =>
    obtain ⟨config, hconfig, hvalid⟩ := h
    refine migrated ?_ (iff_of_true hvalid trivial)
    rw [migrateState, ContractDataV5.into, hconfig, added, refundRequests, Cfg.getD_elim]
    rfl
  | v6 data =>
    obtain ⟨config, hconfig, hvalid⟩ := h
    refine migrated ?_ (iff_of_true hvalid trivial)
    rw [migrateState, ContractDataV6.into, hconfig]
    rfl
  | v7 data =>
    obtain ⟨config, hconfig, hvalid⟩ := h
    refine migrated ?_ (iff_of_true hvalid trivial)
    rw [migrateState, ContractDataV7.into, hconfig]
    rfl
  | current data => exact h.elim

/-- An upgrade that leaves what it is to leave shows that the old settings fit. -/
theorem Legacy.fits_of_upgraded (h : data.Legacy) {new : ContractData}
    (hmigrate : migrateState host data = some (.current new)) (hnew : data.UpgradedTo new) :
    data.Fits := by
  obtain ⟨new', config, hmigrate', _, _, hconfig, _, hvalid⟩ := h.migrates
  have hsame : new' = new := by
    rw [hmigrate, Option.some.injEq, VersionedContractData.current.injEq] at hmigrate'
    exact hmigrate'.symm
  obtain ⟨config', hconfig', _, hvalid'⟩ := hnew.config
  rw [← hsame, hconfig, Option.some.injEq] at hconfig'
  rw [← hvalid, hconfig']
  exact hvalid'

/-- The migration does what an upgrade is to do exactly when the old settings fit the constants
filled in beside them. -/
theorem Legacy.migrates_iff (h : data.Legacy) :
    (∃ new, migrateState host data = some (.current new) ∧ data.UpgradedTo new) ↔ data.Fits := by
  constructor
  · rintro ⟨new, hmigrate, hnew⟩
    exact h.fits_of_upgraded hmigrate hnew
  · intro hfits
    obtain ⟨new, config, hmigrate, hshared, hadded, hconfig, hcapacity, hvalid⟩ := h.migrates
    have hnew : config.assertValid = some () := hvalid.mpr hfits
    refine ⟨new, hmigrate, hshared, hadded, ⟨config, hconfig, hcapacity, hnew⟩, ?_⟩
    intro roles env c hread hdao
    have hsame : some config = some c.config := hconfig.symm.trans (ContractData.read_spec hread).1
    rw [Contract.updateConfig_empty hdao, ← Option.some.inj hsame]
    exact hnew

end VersionedContractData

/-! ### Two stored states -/

namespace Sample

/-- An account of an earlier version with a transaction to sign, and what else a state holds. -/
def fields : SharedFields where
  accounts := AList.singleton "alice" (.v0 ⟨"alice", some 1, ∅⟩)
  utxos := AList.singleton ⟨0, 0⟩ ⟨"path", [0], 0, 1000⟩
  unavailableUtxos := ∅
  verifiedDepositUtxo := {⟨0, 0⟩}
  btcPendingInfos := ∅
  rbfTxs := ∅
  relayerWhiteList := {"relayer"}
  postActionReceiverIdWhiteList := ∅
  lostFound := AList.singleton "bob" 5
  accCollectedProtocolFee := 4
  curAvailableProtocolFee := 2
  accClaimedProtocolFee := 1
  curReservedProtocolFee := 1
  accProtocolFeeForGas := 0

/-- The sample configuration as the second version stored it, with a minimum change amount. -/
def configV0 (minChangeAmount : ℕ) : ConfigV0 :=
  { config with minChangeAmount := minChangeAmount }

/-- The sample configuration as v0.8.0 stored it, with a refund timelock. -/
def configV3 (refundTimelockSec : ℕ) : ConfigV3 :=
  { config with refundTimelockSec := refundTimelockSec }

/-- A state of the second version with a minimum change amount. -/
def storedV1 (minChangeAmount : ℕ) : VersionedContractData (host false).zcash :=
  .v1 {
    toSharedFields := fields
    config := some (configV0 minChangeAmount)
    postActionMsgTemplates := ∅ }

/-- A state of the Bitcoin build of v0.8.0 with a refund timelock. -/
def storedV4 (refundTimelockSec : ℕ) : VersionedContractData (host false).zcash :=
  .v4 {
    toSharedFields := fields
    config := some (configV3 refundTimelockSec)
    extraMsgRelayerWhiteList := ∅
    postActionMsgTemplates := ∅
    pendingTxLimits := AList.singleton "alice" 2
    refundRequests := (∅ : FiniteMap OutPoint VRefundRequest) }

theorem config_valid : config.assertValid = some () := by decide +kernel

theorem configV0_valid {minChangeAmount : ℕ} (h : minChangeAmount < 10000) :
    (configV0 minChangeAmount).Valid := by
  have hbase : (configV0 1).Valid :=
    ((configV0 1).assertValid_toConfig config.chain 3 2 10 100 10).mp config_valid |>.1
  exact ⟨hbase.range, hbase.sorted, hbase.depositFee, hbase.withdrawFee, h, hbase.gasFee,
    hbase.active, hbase.passive, hbase.deposit⟩

theorem storedV1_legacy {minChangeAmount : ℕ} (h : minChangeAmount < 10000) :
    (storedV1 minChangeAmount).Legacy := ⟨configV0 minChangeAmount, rfl, configV0_valid h⟩

theorem storedV4_legacy (refundTimelockSec : ℕ) : (storedV4 refundTimelockSec).Legacy := by
  have hbase : (configV0 1).Valid := configV0_valid (by decide)
  have hunhealthy : config.minChangeAmount < config.unhealthyUtxoAmount := by decide
  exact ⟨configV3 refundTimelockSec, rfl, hbase, hunhealthy⟩

end Sample

/-- A week of refund timelock survives the upgrade. -/
theorem VersionedContractData.migrates_week :
    ∃ new, migrateState (Sample.host false) (Sample.storedV4 (7 * 24 * 3600)) =
      some (.current new) ∧ (Sample.storedV4 (7 * 24 * 3600)).UpgradedTo new := by
  have hlegacy := Sample.storedV4_legacy (7 * 24 * 3600)
  refine (VersionedContractData.Legacy.migrates_iff hlegacy).mpr ?_
  intro config hconfig
  rw [← Option.some.inj hconfig]
  decide

/-- With fifteen days of refund timelock, or a minimum change amount of 1000, the upgrade leaves a
configuration that the contract rejects. -/
theorem VersionedContractData.migrates_rejected :
    ((Sample.storedV4 (15 * 24 * 3600)).Legacy ∧
      ¬ ∃ new, migrateState (Sample.host false) (Sample.storedV4 (15 * 24 * 3600)) =
        some (.current new) ∧ (Sample.storedV4 (15 * 24 * 3600)).UpgradedTo new) ∧
    ((Sample.storedV1 1000).Legacy ∧
      ¬ ∃ new, migrateState (Sample.host false) (Sample.storedV1 1000) =
        some (.current new) ∧ (Sample.storedV1 1000).UpgradedTo new) := by
  have hlong := Sample.storedV4_legacy (15 * 24 * 3600)
  have hlarge := Sample.storedV1_legacy (by decide : 1000 < 10000)
  refine ⟨⟨hlong, ?_⟩, ⟨hlarge, ?_⟩⟩
  · rintro ⟨new, hmigrate, hnew⟩
    have hfits := hlong.fits_of_upgraded hmigrate hnew _ rfl
    exact absurd hfits (by decide)
  · rintro ⟨new, hmigrate, hnew⟩
    have hfits := hlarge.fits_of_upgraded hmigrate hnew _ rfl
    exact absurd hfits (by decide)

end SatoshiBridge

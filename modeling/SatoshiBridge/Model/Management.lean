import SatoshiBridge.Model.Refund

/-!
# Management

The methods of the DAO: roles, whitelists, limits, templates and the configuration, and the
registration of a deposit whose mint callback was lost.
-/

set_option autoImplicit false
set_option relaxedAutoImplicit false

namespace SatoshiBridge.Contract

variable (host : Host) (env : Env) (c : Contract)

/-- `access_control_any(roles(Role::DAO))` and `assert_one_yocto`. -/
def assertDao : Option Unit := do
  require (c.aclHasRole .dao env.predecessor)
  env.assertOneYocto

/-- A receipt that only changes the state. -/
def done (c : Contract) : Receipt where
  contract := c
  promises := []
  marks := []
  returns := some .unit

/-! ### Roles -/

/-- `acl_grant_role`, required to be new. -/
def grantRole (role : Role) (accountId : AccountId) : Option Contract := do
  require (¬c.aclHasRole role accountId)
  some { c with roles := insert (role, accountId) c.roles }

/-- `acl_revoke_role`. -/
def dropRole (role : Role) (accountId : AccountId) : Contract :=
  { c with roles := c.roles.erase (role, accountId) }

/-- `acl_revoke_role`, required to be held. -/
def revokeRole (role : Role) (accountId : AccountId) : Option Contract := do
  require (c.aclHasRole role accountId)
  some (c.dropRole role accountId)

/-- `add_super_admin`. -/
def addSuperAdmin (accountId : AccountId) : Option Receipt := do
  c.assertDao env
  let c ← c.grantRole .dao accountId
  let c ← c.grantRole .pauseManager accountId
  let c ← c.grantRole .unpauseManager accountId
  some (c.internalUnwrapOrCreateAccount accountId).done

/-- `remove_super_admin`. -/
def removeSuperAdmin (accountId : AccountId) : Option Receipt := do
  c.assertDao env
  require (env.predecessor ≠ accountId)
  let c ← c.revokeRole .dao accountId
  let c ← c.revokeRole .pauseManager accountId
  some (c.dropRole .unpauseManager accountId).done

/-- One step of the loop of `extend_operators`. -/
def extendOperator (c : Contract) (operator : AccountId) : Option Contract := do
  let c ← c.grantRole .operator operator
  some (c.internalUnwrapOrCreateAccount operator)

/-- `extend_operators`. -/
def extendOperators (operators : List AccountId) : Option Receipt := do
  c.assertDao env
  let c ← operators.foldlM extendOperator c
  some c.done

/-- `remove_operators`. -/
def removeOperators (operators : List AccountId) : Option Receipt := do
  c.assertDao env
  let c ← operators.foldlM (fun c operator ↦ c.revokeRole .operator operator) c
  some c.done

/-- The methods of the access control plugin itself, with which the other roles are granted and
revoked by their admins. -/
def aclSetRole (role : Role) (accountId : AccountId) (granted : Bool) : Option Receipt :=
  some (if granted then { c with roles := insert (role, accountId) c.roles }
    else c.dropRole role accountId).done

/-! ### Whitelists, limits and templates -/

/-- Inserts elements that have to be new, one after the other. -/
def extendSet {α : Type} [DecidableEq α] (set : Finset α) (elements : List α) :
    Option (Finset α) :=
  elements.foldlM (fun set a ↦ do require (a ∉ set); some (insert a set)) set

/-- Removes elements that have to be present, one after the other. -/
def shrinkSet {α : Type} [DecidableEq α] (set : Finset α) (elements : List α) :
    Option (Finset α) :=
  elements.foldlM (fun set a ↦ do require (a ∈ set); some (set.erase a)) set

/-- `extend_relayer_white_list`. -/
def extendRelayerWhiteList (relayerIds : List AccountId) : Option Receipt := do
  c.assertDao env
  let list ← extendSet c.relayerWhiteList relayerIds
  some { c with relayerWhiteList := list }.done

/-- `remove_relayer_white_list`. -/
def removeRelayerWhiteList (relayerIds : List AccountId) : Option Receipt := do
  c.assertDao env
  let list ← shrinkSet c.relayerWhiteList relayerIds
  some { c with relayerWhiteList := list }.done

/-- `extend_extra_msg_relayer_white_list`. -/
def extendExtraMsgRelayerWhiteList (relayerIds : List AccountId) : Option Receipt := do
  c.assertDao env
  let list ← extendSet c.extraMsgRelayerWhiteList relayerIds
  some { c with extraMsgRelayerWhiteList := list }.done

/-- `remove_extra_msg_relayer_white_list`. -/
def removeExtraMsgRelayerWhiteList (relayerIds : List AccountId) : Option Receipt := do
  c.assertDao env
  let list ← shrinkSet c.extraMsgRelayerWhiteList relayerIds
  some { c with extraMsgRelayerWhiteList := list }.done

/-- `extend_post_action_receiver_id_white_list`. -/
def extendPostActionReceiverIdWhiteList (receiverIds : List AccountId) : Option Receipt := do
  c.assertDao env
  let list ← extendSet c.postActionReceiverIdWhiteList receiverIds
  some { c with postActionReceiverIdWhiteList := list }.done

/-- `remove_post_action_receiver_id_white_list`. -/
def removePostActionReceiverIdWhiteList (receiverIds : List AccountId) : Option Receipt := do
  c.assertDao env
  let list ← shrinkSet c.postActionReceiverIdWhiteList receiverIds
  some { c with postActionReceiverIdWhiteList := list }.done

/-- `set_pending_tx_limit`. -/
def setPendingTxLimit (accountId : AccountId) (maxPending : Option ℕ) : Option Receipt := do
  c.assertDao env
  match maxPending with
  | some limit =>
    require (1 ≤ limit)
    some { c with pendingTxLimits := c.pendingTxLimits.insert accountId limit }.done
  | none =>
    let _ ← c.pendingTxLimits.lookup accountId
    some { c with pendingTxLimits := c.pendingTxLimits.erase accountId }.done

/-- `extend_post_action_msg_templates`. -/
def extendPostActionMsgTemplates (contractId : AccountId) (templates : Finset String) :
    Option Receipt := do
  c.assertDao env
  require (templates ≠ ∅)
  let known := (c.postActionMsgTemplates.lookup contractId).getD ∅
  require (Disjoint known templates)
  some { c with
    postActionMsgTemplates := c.postActionMsgTemplates.insert contractId (known ∪ templates) }.done

/-- `remove_post_action_msg_templates`. -/
def removePostActionMsgTemplates (contractId : AccountId)
    (templates : Option (Finset String)) : Option Receipt := do
  c.assertDao env
  let known ← c.postActionMsgTemplates.lookup contractId
  let rest := c.postActionMsgTemplates.erase contractId
  match templates with
  | none => some { c with postActionMsgTemplates := rest }.done
  | some templates =>
    require (templates ≠ ∅)
    require (templates ⊆ known)
    let kept := known \ templates
    some { c with
      postActionMsgTemplates := if kept = ∅ then rest else rest.insert contractId kept }.done

/-! ### Configuration -/

/-- `update_config`. -/
def updateConfig (update : ConfigUpdate) : Option Receipt := do
  c.assertDao env
  let config ← update.apply c.config
  let c ← { c with config := config }.resizeBlockAmountRing
  some c.done

/-- `set_confirmations_strategy`. -/
def setConfirmationsStrategy (rangeUpperBound confirmations : ℕ) : Option Receipt := do
  c.assertDao env
  let strategy := c.config.confirmationsStrategy.insert (toString rangeUpperBound) confirmations
  let config := { c.config with confirmationsStrategy := strategy }
  let c ← { c with config := config }.resizeBlockAmountRing
  config.assertValid
  some c.done

/-- `remove_confirmations_strategy`. -/
def removeConfirmationsStrategy (rangeUpperBound : ℕ) : Option Receipt := do
  c.assertDao env
  let _ ← c.config.confirmationsStrategy.lookup (toString rangeUpperBound)
  let strategy := c.config.confirmationsStrategy.erase (toString rangeUpperBound)
  require (strategy.entries ≠ [])
  let config := { c.config with confirmationsStrategy := strategy }
  let c ← { c with config := config }.resizeBlockAmountRing
  config.assertValid
  some c.done

/-! ### Completing a deposit -/

/-- `complete_failed_deposit_mint`. -/
def completeFailedDepositMint (depositMsg : DepositMsg) (txBytes : DepositTxProof)
    (vout protocolFee : ℕ) : Option Receipt := do
  c.assertDao env
  let txSummary ← internalResolveDepositTx host txBytes
  let pendingUtxoInfo ←
    c.internalBuildDepositUtxoInfo host (getDepositPath host depositMsg) txSummary vout
  let key := pendingUtxoInfo.utxoStorageKey
  require (key ∈ c.verifiedDepositUtxo)
  require ((c.utxos.lookup key).isNone)
  require ((c.unavailableUtxos.lookup key).isNone)
  require ((c.refundRequests.lookup key).isNone)
  let c := c.internalSetUtxo key pendingUtxoInfo.utxo
  let c := c.internalRemoveUtxoInProgress key
  let c := c.internalUnwrapOrCreateAccount depositMsg.recipientId
  let c ← (if 0 < protocolFee then c.collectProtocolFee protocolFee else some c)
  some {
    contract := c
    promises := []
    marks := [.utxoAdded [key], .depositCompleted key]
    returns := some .unit }

end SatoshiBridge.Contract

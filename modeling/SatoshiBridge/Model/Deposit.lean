import SatoshiBridge.Model.Contract

/-!
# Deposits

`verify_deposit_v2` asks the light client for the inclusion of the funding transaction; the
callback checks its depth against the ring, marks the outpoint verified and asks the token to mint;
the mint callback registers the UTXO or takes the marks back. A safe deposit mints into the bridge
first and burns again when nothing reached the recipient.
-/

set_option autoImplicit false
set_option relaxedAutoImplicit false

namespace SatoshiBridge

/-- `REQUIRED_BALANCE_FOR_DEPOSIT`, in yoctoNEAR. -/
def requiredBalanceForDeposit : ℕ := 1200000000000000000000

/-- `charge_attached_deposit`; the surplus goes back to the caller. -/
def chargeAttachedDeposit (env : Env) (required : ℕ) : Option Unit :=
  require (required ≤ env.attachedDeposit)

/-- `get_deposit_path`. -/
def getDepositPath (host : Host) (depositMsg : DepositMsg) : Path :=
  host.sha256Hex (host.depositMsgToJson depositMsg)

/-- `assert_post_actions_supported`. -/
def assertPostActionsSupported (host : Host) (depositMsg : DepositMsg) : Option Unit :=
  require (host.zcash → depositMsg.postActions = none)

/-- `is_safe_deposit`. -/
def isSafeDeposit (host : Host) (depositMsg : DepositMsg) : Bool :=
  host.zcash || depositMsg.safeDeposit.isSome

/-! ### Post actions -/

/-- `MAX_POST_ACTIONS_NUM`. -/
def maxPostActionsNum : ℕ := 2

/-- `MAX_TOTAL_POST_ACTIONS_GAS`. -/
def maxTotalPostActionsGas : ℕ := 130 * 10 ^ 12

/-- `MAX_PER_POST_ACTIONS_GAS`. -/
def maxPerPostActionsGas : ℕ := 100 * 10 ^ 12

/-- `MIN_PER_POST_ACTIONS_GAS`. -/
def minPerPostActionsGas : ℕ := 30 * 10 ^ 12

/-- Whether the message of a post action is admitted by the templates of its receiver. -/
def msgIsMatch (host : Host) (templates : Finset String) (msg : String) : Bool :=
  match host.parseJson msg with
  | some value =>
    decide (∃ template ∈ templates, (match host.parseJson template with
      | some templateValue => isStructureEqual templateValue value
      | none => false) = true)
  | none => msg ∈ templates

/-- `inject_utxo_id_in_msg`. -/
def injectIdInMsg (host : Host) (msg utxoId : String) : String :=
  match host.parseJson msg with
  | some value => host.printJson (injectUtxoId utxoId value)
  | none => msg

/-- The same for the storage key of a deposit. -/
def injectUtxoIdInMsg (host : Host) (msg : String) (utxoStorageKey : OutPoint) : String :=
  injectIdInMsg host msg
    (host.showTxid utxoStorageKey.txid ++ "@" ++ toString utxoStorageKey.vout)

namespace Contract

variable (host : Host) (env : Env) (c : Contract)

/-- Whether one post action passes the checks on its own: its receiver, its message and its gas. -/
def postActionAdmitted (postAction : PostAction) : Bool :=
  postAction.receiverId ≠ host.currentAccountId &&
  postAction.receiverId ∈ c.postActionReceiverIdWhiteList &&
  (match c.postActionMsgTemplates.lookup postAction.receiverId with
    | some templates => msgIsMatch host templates postAction.msg
    | none => true) &&
  (match postAction.gas with
    | some gas => minPerPostActionsGas ≤ gas && gas ≤ maxPerPostActionsGas
    | none => true)

/-- The loop of `check_deposit_msg` with its running totals of gas and amount. The amounts are
added with overflow checks before the other checks of an action. -/
def checkPostActions : List PostAction → ℕ → ℕ → Option (Option (ℕ × ℕ))
  | [], totalGas, totalAmount => some (some (totalGas, totalAmount))
  | postAction :: rest, totalGas, totalAmount => do
    let totalAmount ← checkedAdd (2 ^ 128) totalAmount postAction.amount
    if c.postActionAdmitted host postAction then
      checkPostActions rest (totalGas + postAction.gas.getD 0) totalAmount
    else some none

/-- `check_deposit_msg`: invalid post actions are dropped, the deposit goes on without them. -/
def checkDepositMsg (depositMsg : DepositMsg) (actualMintableAmount : ℕ) :
    Option (Option (List PostAction)) :=
  match depositMsg.postActions with
  | none => some none
  | some postActions =>
    if postActions = [] ∨ maxPostActionsNum < postActions.length then some none
    else do
      match ← c.checkPostActions host postActions 0 0 with
      | none => some none
      | some (totalGas, totalAmount) =>
        if maxTotalPostActionsGas < totalGas ∨ actualMintableAmount < totalAmount then some none
        else some (some postActions)

/-! ### Verifying a deposit -/

/-- `internal_build_deposit_utxo_info`. An index is a `usize` of 32 bits in the contract. -/
def internalBuildDepositUtxoInfo (path : Path) (txSummary : DepositTxSummary) (vout : ℕ) :
    Option PendingUTXOInfo := do
  let output ← txSummary.outputs[vout]?
  require (0 < output.value)
  let depositScript ← c.generateUtxoChainScript host path
  require (depositScript = output.scriptPubkey)
  some {
    txId := txSummary.txId
    utxoStorageKey := generateUtxoStorageKey txSummary.txId vout
    utxo := { path := path, txBytes := [], vout := vout, balance := output.value } }

/-- `internal_verify_deposit`. -/
def internalVerifyDeposit (depositAmount : ℕ) (pendingUtxoInfo : PendingUTXOInfo)
    (depositMsg : DepositMsg) : Option Receipt := do
  require (c.config.minDepositAmount ≤ depositAmount)
  let confirmationsDelta :=
    if depositMsg.extraMsg.isNone then c.relayerDelta env.predecessor
    else c.extraMsgRelayerDelta env.predecessor
  let depositFee := c.config.depositBridgeFee.getFee depositAmount
  let mintAmount ← checkedSub depositAmount depositFee
  let (protocolFee, relayerFee) ←
    c.config.depositBridgeFee.getProtocolAndRelayerFee depositFee
  let postActions ← c.checkDepositMsg host depositMsg mintAmount
  some {
    contract := c
    promises := [.verifyDeposit depositMsg.recipientId mintAmount protocolFee relayerFee
      pendingUtxoInfo postActions confirmationsDelta]
    marks := []
    returns := none }

/-- `internal_safe_verify_deposit`. -/
def internalSafeVerifyDeposit (depositAmount : ℕ) (pendingUtxoInfo : PendingUTXOInfo)
    (recipientId : AccountId) (depositMsg : SafeDepositMsg) : Option Receipt := do
  require (c.config.minDepositAmount ≤ depositAmount)
  some {
    contract := c
    promises := [.verifySafeDeposit recipientId depositAmount depositMsg.msg pendingUtxoInfo
      (c.relayerDelta env.predecessor)]
    marks := []
    returns := none }

/-- `internal_verify_deposit_entry`. -/
def internalVerifyDepositEntry (depositMsg : DepositMsg) (txSummary : DepositTxSummary)
    (vout txIndex : ℕ) : Option Receipt := do
  require (depositMsg.safeDeposit = none)
  require (txIndex ≠ 0)
  let pendingUtxoInfo ←
    c.internalBuildDepositUtxoInfo host (getDepositPath host depositMsg) txSummary vout
  c.internalVerifyDeposit host env pendingUtxoInfo.utxo.balance pendingUtxoInfo depositMsg

/-- `internal_safe_verify_deposit_entry`. -/
def internalSafeVerifyDepositEntry (depositMsg : DepositMsg) (txSummary : DepositTxSummary)
    (vout txIndex : ℕ) : Option Receipt := do
  require (txIndex ≠ 0)
  chargeAttachedDeposit env requiredBalanceForDeposit
  let safeDepositMsg := depositMsg.safeDeposit.getD ⟨""⟩
  let pendingUtxoInfo ←
    c.internalBuildDepositUtxoInfo host (getDepositPath host depositMsg) txSummary vout
  c.internalSafeVerifyDeposit env pendingUtxoInfo.utxo.balance pendingUtxoInfo
    depositMsg.recipientId safeDepositMsg

/-- `verify_deposit_v2`. Of the inclusion proof only the transaction index is read here. -/
def verifyDepositV2 (depositMsg : DepositMsg) (txBytes : DepositTxProof) (vout txIndex : ℕ) :
    Option Receipt := do
  env.assertTrustedRelayer
  env.assertNotPaused
  assertPostActionsSupported host depositMsg
  let txSummary ← internalResolveDepositTx host txBytes
  if isSafeDeposit host depositMsg then
    c.internalSafeVerifyDepositEntry host env depositMsg txSummary vout txIndex
  else
    c.internalVerifyDepositEntry host env depositMsg txSummary vout txIndex

/-! ### Callbacks -/

/-- `process_inclusion_and_check`. -/
def processInclusionAndCheck (result : PromiseResult) (pendingUtxoInfo : PendingUTXOInfo)
    (confirmationsDelta : ℕ) : Option (Contract × ℕ) := do
  let info ← result.expectInclusion
  let c ← c.bumpAndCheckConfirmations info.txBlockHeight info.mainchainTipHeight
    pendingUtxoInfo.utxo.balance confirmationsDelta
  some (c, info.txBlockHeight)

/-- `verified_deposit_utxo.insert(..)`, required to be new, and `internal_set_utxo_in_progress`. -/
def claimDepositUtxo (pendingUtxoInfo : PendingUTXOInfo) : Option Contract := do
  require (pendingUtxoInfo.utxoStorageKey ∉ c.verifiedDepositUtxo)
  let c := { c with
    verifiedDepositUtxo := insert pendingUtxoInfo.utxoStorageKey c.verifiedDepositUtxo }
  some (c.internalSetUtxoInProgress pendingUtxoInfo.utxoStorageKey pendingUtxoInfo.utxo)

/-- `verify_deposit_callback`. -/
def verifyDepositCallback (result : PromiseResult) (recipientId : AccountId)
    (mintAmount protocolFee relayerFee : ℕ) (pendingUtxoInfo : PendingUTXOInfo)
    (postActions : Option (List PostAction)) (confirmationsDelta : ℕ) : Option Receipt := do
  let (c, blockHeight) ← c.processInclusionAndCheck result pendingUtxoInfo confirmationsDelta
  let c ← c.claimDepositUtxo pendingUtxoInfo
  some {
    contract := c
    promises := [.mint c.config.nbtcAccountId recipientId mintAmount protocolFee env.signer
      relayerFee postActions pendingUtxoInfo (some blockHeight)]
    marks := [.depositStarted pendingUtxoInfo.utxoStorageKey]
    returns := none }

/-- `verify_safe_deposit_callback`. -/
def verifySafeDepositCallback (result : PromiseResult) (recipientId : AccountId)
    (mintAmount : ℕ) (msg : String) (pendingUtxoInfo : PendingUTXOInfo)
    (confirmationsDelta : ℕ) : Option Receipt := do
  let (c, blockHeight) ← c.processInclusionAndCheck result pendingUtxoInfo confirmationsDelta
  let c ← c.claimDepositUtxo pendingUtxoInfo
  let msg := if msg = "" then none
    else some (injectUtxoIdInMsg host msg pendingUtxoInfo.utxoStorageKey)
  some {
    contract := c
    promises := [.safeMint c.config.nbtcAccountId recipientId mintAmount msg pendingUtxoInfo
      (some blockHeight)]
    marks := [.depositStarted pendingUtxoInfo.utxoStorageKey]
    returns := none }

/-- The common end of the mint callbacks when the mint counts as failed. -/
def revertDeposit (pendingUtxoInfo : PendingUTXOInfo) (bumpedBlockHeight : Option ℕ) : Contract :=
  let c := { c with
    verifiedDepositUtxo := c.verifiedDepositUtxo.erase pendingUtxoInfo.utxoStorageKey }
  c.unbumpBlockAmount bumpedBlockHeight pendingUtxoInfo.utxo.balance

/-- Adds a collected protocol fee to the books, whose counters are `u128`. -/
def collectProtocolFee (protocolFee : ℕ) : Option Contract := do
  let accCollected ← checkedAdd (2 ^ 128) c.accCollectedProtocolFee protocolFee
  let curAvailable ← checkedAdd (2 ^ 128) c.curAvailableProtocolFee protocolFee
  some { c with
    accCollectedProtocolFee := accCollected
    curAvailableProtocolFee := curAvailable }

/-- `mint_callback`. -/
def mintCallback (result : PromiseResult) (recipientId : AccountId) (protocolFee : ℕ)
    (pendingUtxoInfo : PendingUTXOInfo) (bumpedBlockHeight : Option ℕ) : Option Receipt := do
  let isSuccess := result.isSuccess
  let key := pendingUtxoInfo.utxoStorageKey
  let c := c.internalRemoveUtxoInProgress key
  if isSuccess then
    let c := c.internalUnwrapOrCreateAccount recipientId
    let c ← (if 0 < protocolFee then c.collectProtocolFee protocolFee else some c)
    some {
      contract := c.internalSetUtxo key pendingUtxoInfo.utxo
      promises := []
      marks := [.utxoAdded [key], .depositFinalised key]
      returns := some (.bool true) }
  else
    some {
      contract := c.revertDeposit pendingUtxoInfo bumpedBlockHeight
      promises := []
      marks := [.depositReverted key]
      returns := some (.bool false) }

/-- `safe_mint_callback`. -/
def safeMintCallback (result : PromiseResult) (mintAmount : ℕ)
    (pendingUtxoInfo : PendingUTXOInfo) (bumpedBlockHeight : Option ℕ) : Option Receipt := do
  let isSuccess := !result.isRefundRequired
  let key := pendingUtxoInfo.utxoStorageKey
  let c := c.internalRemoveUtxoInProgress key
  if isSuccess then
    some {
      contract := c.internalSetUtxo key pendingUtxoInfo.utxo
      promises := []
      marks := [.utxoAdded [key], .depositFinalised key]
      returns := some (.bool true) }
  else
    some {
      contract := c.revertDeposit pendingUtxoInfo bumpedBlockHeight
      promises := [.burnDetached c.config.nbtcAccountId host.currentAccountId mintAmount
        env.signer 0]
      marks := [.depositReverted key]
      returns := some (.bool false) }

end Contract

end SatoshiBridge

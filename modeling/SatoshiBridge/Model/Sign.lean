import SatoshiBridge.Model.Burn

/-!
# Chain signatures

Each input is signed by a request to the chain signatures contract; the last signature turns the
psbt into the signed transaction and moves it to the verify stage. The same contract provides the
root public key from which every address of the bridge is derived.
-/

set_option autoImplicit false
set_option relaxedAutoImplicit false

namespace SatoshiBridge.Contract

variable (host : Host) (env : Env) (c : Contract)

/-- `internal_sign_btc_transaction`. -/
def internalSignBtcTransaction (btcPendingSignId : Txid) (signIndex keyVersion : ℕ) :
    Option Receipt := do
  let info ← c.internalUnwrapBtcPendingInfo btcPendingSignId
  let signature ← info.signatures[signIndex]?
  require (signature = none)
  let payload ← info.psbt.getHashToSign host signIndex
  let vutxo ← info.vutxos[signIndex]?
  some {
    contract := c
    promises := [.sign info.accountId btcPendingSignId signIndex payload vutxo.path keyVersion]
    marks := []
    returns := none }

/-- `sign_btc_transaction`. A replacement whose original is gone is removed instead of signed. -/
def signBtcTransaction (btcPendingSignId : Txid) (signIndex keyVersion : ℕ) : Option Receipt := do
  env.assertNotPaused
  let info ← c.internalUnwrapBtcPendingInfo btcPendingSignId
  require (info.state.isRefund ∨ env.trustedRelayer = true)
  info.assertPendingSign
  if ∃ originalTxId ∈ info.getOriginalTxId, ¬c.checkBtcPendingInfoExists originalTxId then do
    let account ← c.accounts.lookup info.accountId
    require (btcPendingSignId ∈ account.btcPendingSignIds)
    let c ← c.internalUnwrapMutAccount info.accountId fun account ↦
      { account with btcPendingSignIds := account.btcPendingSignIds.erase btcPendingSignId }
    let (c, _) ← c.internalRemoveBtcPendingInfo btcPendingSignId
    some { contract := c, promises := [], marks := [], returns := some (.bool true) }
  else
    c.internalSignBtcTransaction host btcPendingSignId signIndex keyVersion

/-- The record after one more signature; the last one completes the transaction. -/
def signedPendingInfo (info : BTCPendingInfo) (signIndex : ℕ) (signature : SignatureResponse)
    (scriptSig : ScriptSig) (nowSec : ℕ) : Option BTCPendingInfo := do
  let psbt ← info.psbt.saveSignature signIndex scriptSig
  let info := { info with
    signatures := info.signatures.set signIndex (some signature)
    lastSignTimeSec := nowSec
    psbt := psbt }
  if info.isAllSigned then do
    let txBytesWithSign ← psbt.extractTxBytesWithSign host
    some { info.toPendingVerifyStage with txBytesWithSign := some txBytesWithSign }
  else some info

/-- The owner's lists after the last signature. -/
def Account.finishSigning (account : Account) (btcPendingSignId : Txid) (isOriginalTx : Bool) :
    Account :=
  { account with
    btcPendingSignIds := account.btcPendingSignIds.erase btcPendingSignId
    btcPendingVerifyList :=
      if isOriginalTx then insert btcPendingSignId account.btcPendingVerifyList
      else account.btcPendingVerifyList }

/-- `sign_btc_transaction_callback`. -/
def signBtcTransactionCallback (result : PromiseResult) (accountId : AccountId)
    (btcPendingSignId : Txid) (signIndex : ℕ) : Option Receipt :=
  match result with
  | .failed => some { contract := c, promises := [], marks := [], returns := some (.bool false) }
  | .value (.signature signature) => do
    let info ← c.internalUnwrapBtcPendingInfo btcPendingSignId
    let vutxo ← info.vutxos[signIndex]?
    let rootPublicKey ← c.config.chainSignaturesRootPublicKey
    let previous ← info.signatures[signIndex]?
    require (previous = none)
    let nowSec ← env.nowSec
    let scriptSig ← host.scriptSigOf signature rootPublicKey vutxo.path
    let info' ← signedPendingInfo host info signIndex signature scriptSig nowSec
    let c := c.internalSetBtcPendingInfo btcPendingSignId info'
    let c ←
      if info'.isAllSigned then do
        let account ← c.accounts.lookup accountId
        require (btcPendingSignId ∈ account.btcPendingSignIds)
        c.internalUnwrapMutAccount accountId fun account ↦
          Account.finishSigning account btcPendingSignId info'.getOriginalTxId.isNone
      else some c
    some { contract := c, promises := [], marks := [], returns := some (.bool true) }
  | .value _ => none

/-- `sync_chain_signatures_root_public_key`. -/
def syncChainSignaturesRootPublicKey : Option Receipt := do
  require (c.aclHasRole .dao env.predecessor)
  env.assertOneYocto
  require (c.config.chainSignaturesRootPublicKey = none)
  some { contract := c, promises := [.syncRootPublicKey], marks := [], returns := none }

/-- `sync_root_public_key_callback`. -/
def syncRootPublicKeyCallback (result : PromiseResult) : Option Receipt :=
  match result with
  | .failed => some { contract := c, promises := [], marks := [], returns := some (.bool false) }
  | .value (.publicKey rootPublicKey) =>
    some {
      contract := { c with config := { c.config with
        chainSignaturesRootPublicKey := some rootPublicKey
        changeAddress :=
          some (host.chainAddress c.config.chain rootPublicKey host.currentAccountId) } }
      promises := []
      marks := []
      returns := some (.bool true) }
  | .value _ => none

end SatoshiBridge.Contract

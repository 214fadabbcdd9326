import SatoshiBridge.Ledger.Basic

/-!
# What a step may do to the ledger

One constructor for each kind of change, with everything the code has checked when it makes it. All
methods and callbacks of both builds are of these kinds, and the invariants are proved against them
alone.
-/

set_option autoImplicit false
set_option relaxedAutoImplicit false

namespace SatoshiBridge

/-! ### Coins and payments -/

/-- A stored coin is the one its outpoint names, under the path it is stored with. -/
structure Holds (host : Host) (chain : Chain) (key : OutPoint) (utxo : UTXO) : Prop where
  vout : utxo.vout = key.vout
  txBytes : utxo.txBytes = []
  pays : PaysAt host key ⟨utxo.balance, host.pathScript chain utxo.path⟩

/-- A coin at the deposit address of a message. -/
def IsDeposit (host : Host) (chain : Chain) (key : OutPoint) (utxo : UTXO) : Prop :=
  Holds host chain key utxo ∧ ∃ msg, utxo.path = getDepositPath host msg

/-- A coin at the change address. -/
def IsChange (host : Host) (chain : Chain) (key : OutPoint) (utxo : UTXO) : Prop :=
  Holds host chain key utxo ∧ utxo.path = host.currentAccountId

/-- One output or one note pays an address; every other output is of the kind `others`. -/
inductive Pays (others : TxOut → Prop) (address : Address) (amount : ℕ) (psbt : PsbtWrapper) : Prop
  | output (before after : List TxOut) (script : ScriptBuf)
      (hvout : psbt.vout = before ++ ⟨amount, script⟩ :: after)
      (hscript : address.scriptPubkey = some script)
      (hothers : ∀ o ∈ before ++ after, others o)
      (horchard : psbt.orchard = none)
  | note (parsed : ParsedOrchardBundle) (horchard : psbt.orchard = some parsed)
      (hamount : parsed.output.amount = amount)
      (hrecipient : address.orchardReceiver = some parsed.output.recipientAddr)
      (hothers : ∀ o ∈ psbt.vout, others o)

/-- A transparent output that is change and does not pay the given address. -/
def IsChangeBeside (host : Host) (chain : Chain) (address : Address) (o : TxOut) : Prop :=
  o.scriptPubkey = host.changeScript chain ∧ address.scriptPubkey ≠ some o.scriptPubkey

/-- Every output is change. -/
def PaysChange (host : Host) (chain : Chain) (psbt : PsbtWrapper) : Prop :=
  psbt.orchard = none ∧ ∀ o ∈ psbt.vout, o.scriptPubkey = host.changeScript chain

/-- The inputs cover the outputs and the gas. -/
def BTCPendingInfo.Balanced (info : BTCPendingInfo) : Prop :=
  inputAmount info.vutxos = outputAmount info.psbt.vout + info.psbt.orchardAmount + info.gasFee

/-- The amounts and outputs of a transaction of each kind; `payee` is the address the user or the
refund named. -/
def Payment (host : Host) (chain : Chain) (payee : Option String) (info : BTCPendingInfo) : Prop :=
  info.Balanced ∧
    match info.state.kind with
    | .withdrawOriginal | .withdrawUserRbf _ =>
      info.burnAmount + info.withdrawFee = info.transferAmount ∧
      info.burnAmount = info.actualReceivedAmount + info.gasFee ∧
      ∃ target ∈ payee, ∃ address, host.parseAddress chain target = some address ∧
        Pays (IsChangeBeside host chain address) address info.actualReceivedAmount info.psbt
    | .withdrawCancelRbf _ | .activeUtxoManagementOriginal | .activeUtxoManagementRbf _
    | .activeUtxoManagementCancelRbf _ =>
      info.burnAmount = info.gasFee ∧ PaysChange host chain info.psbt
    | .refund =>
      info.burnAmount = 0 ∧
      info.actualReceivedAmount + info.gasFee = inputAmount info.vutxos ∧
      ∃ target ∈ payee, ∃ address, host.parseAddress chain target = some address ∧
        Pays (fun _ ↦ False) address info.actualReceivedAmount info.psbt

/-- The coins a psbt was given for its inputs. -/
def coinsOf (host : Host) (chain : Chain) (vutxos : List UTXO) : List (Option TxOut) :=
  vutxos.map fun v ↦ some ⟨v.balance, host.pathScript chain v.path⟩

/-! ### Pending transactions -/

/-- A pending transaction nobody has signed. -/
structure Unsigned (host : Host) (info : BTCPendingInfo) : Prop where
  named : info.btcPendingId = host.computeTxid (info.psbt.transaction host)
  txBytes : info.txBytesWithSign = none
  signatures : ∀ signature ∈ info.signatures, signature = none
  stage : info.state.stage = .pendingSign

/-- The state an original starts in. -/
def initialState (gasFee : ℕ) : OriginalState := ⟨.pendingSign, gasFee, none, none⟩

/-- The tokens an original consumes, and their sender. -/
def BTCPendingInfo.incoming (info : BTCPendingInfo) : Option (AccountId × ℕ) :=
  if info.state.isWithdrawRelated then some (info.accountId, info.transferAmount) else none

/-- An original that takes its coins out of `l` and leaves `rest`. -/
structure CreatesOriginal (host : Host) (l : Ledger) (info : BTCPendingInfo)
    (payee : Option String) (rest : FiniteMap OutPoint UTXO) : Prop extends Unsigned host info where
  kind : info.state = .withdrawOriginal (initialState info.gasFee) ∨
    info.state = .activeUtxoManagementOriginal (initialState info.gasFee)
  takes : FiniteMap.takeAll l.utxos info.inputs = some (rest, info.vutxos)
  nonempty : info.inputs ≠ []
  coins : info.psbt.inputsUtxo = coinsOf host l.chain info.vutxos
  signatureCount : info.signatures.length = info.inputs.length
  payment : Payment host l.chain payee info
  ready : l.ready = true
  fresh : l.pendings.lookup info.btcPendingId = none
  noNote : host.zcash = false → info.psbt.orchard = none
  recipient : info.state.isWithdrawRelated = true →
    info.psbt.recipientAddress = if host.zcash then payee else none

/-- The address a replacement by the user pays: the recorded one, or that of the first output of
the signed original that is not change. -/
def Recipient (host : Host) (chain : Chain) (o : BTCPendingInfo) (target : String) : Prop :=
  o.psbt.recipientAddress = some target ∨
    (o.psbt.recipientAddress = none ∧ ∃ tx output, o.getTransaction = some tx ∧
      tx.output.find? (fun out ↦ out.scriptPubkey ≠ host.changeScript chain) = some output ∧
      host.addressOfScript chain output.scriptPubkey = some target)

/-- The kinds of replacement an original admits. -/
inductive ReplacementKind (id : Txid) : PendingInfoState → PendingInfoState → Prop
  | user (s : OriginalState) : s.cancelRbfReserved = none →
      ReplacementKind id (.withdrawOriginal s) (.withdrawUserRbf ⟨.pendingSign, id⟩)
  | cancel (s : OriginalState) :
      ReplacementKind id (.withdrawOriginal s) (.withdrawCancelRbf ⟨.pendingSign, id⟩)
  | activeRbf (s : OriginalState) :
      ReplacementKind id (.activeUtxoManagementOriginal s)
        (.activeUtxoManagementRbf ⟨.pendingSign, id⟩)
  | activeCancel (s : OriginalState) :
      ReplacementKind id (.activeUtxoManagementOriginal s)
        (.activeUtxoManagementCancelRbf ⟨.pendingSign, id⟩)

/-- A replacement `info` of the original `o` stored under `id`, which becomes `o'`; `extra` is
reserved for it. -/
structure Replaces (host : Host) (l : Ledger) (id : Txid) (o o' info : BTCPendingInfo)
    (payee : Option String) (extra : ℕ) : Prop extends Unsigned host info where
  original : l.pendings.lookup id = some o
  originalStage : o.state.stage = .pendingVerify
  kind : ReplacementKind id o.state info.state
  updated : ∃ s s', o.state.originalState = some s ∧ s'.stage = s.stage ∧
    o' = { o with state := o.state.setOriginalState s' }
  reservation : o'.reservation = o.reservation + extra
  usage : info.usage ≤ o'.reservation
  inputs : info.inputs = o.inputs
  coins : info.psbt.inputsUtxo = o.psbt.inputsUtxo
  vutxos : info.vutxos = o.vutxos
  account : info.accountId = o.accountId
  transferAmount : info.transferAmount = o.transferAmount
  withdrawFee : info.withdrawFee = o.withdrawFee
  signatureCount : info.signatures.length = o.signatures.length
  payment : Payment host l.chain payee info
  recipient : ∀ target ∈ payee, Recipient host l.chain o target
  noNote : host.zcash = false → info.psbt.orchard = none
  gas : host.zcash = false → ∃ maxGasFee, o.getMaxGasFee = some maxGasFee ∧
    maxGasFee < info.gasFee ∧ o'.getMaxGasFee = some info.gasFee
  ready : l.ready = true
  fresh : l.pendings.lookup info.btcPendingId = none

/-- One more signature on a pending transaction, and possibly the last. -/
structure Signs (host : Host) (info info' : BTCPendingInfo) : Prop where
  missing : ∃ signature ∈ info.signatures, signature = none
  transaction : info'.psbt.transaction host = info.psbt.transaction host
  inputs : info'.inputs = info.inputs
  coins : info'.psbt.inputsUtxo = info.psbt.inputsUtxo
  vout : info'.psbt.vout = info.psbt.vout
  orchard : info'.psbt.orchard = info.psbt.orchard
  recipient : info'.psbt.recipientAddress = info.psbt.recipientAddress
  count : info'.signatures.length = info.signatures.length
  same : ∃ psbt signatures nowSec, ((∃ signature ∈ signatures, signature = none) ∧ info' =
      { info with psbt := psbt, signatures := signatures, lastSignTimeSec := nowSec }) ∨
    ((∀ signature ∈ signatures, signature ≠ none) ∧ ∃ signed : SignedTransaction,
      signed.tx = info.psbt.transaction host ∧ info' =
      { info with
        psbt := psbt
        signatures := signatures
        lastSignTimeSec := nowSec
        txBytesWithSign := some signed
        state := info.state.setStage .pendingVerify })

/-- A pending transaction that its methods may drop: a replacement outside the burn stage, or a
refund. -/
def Droppable (info : BTCPendingInfo) : Prop :=
  (info.state.originalTxId ≠ none ∧ info.state.stage ≠ .pendingBurn) ∨
    info.state.isRefund = true

/-! ### Refunds -/

/-- A refund request describes the deposit it is stored for. -/
structure RequestFor (host : Host) (chain : Chain) (key : OutPoint) (request : RefundRequest) :
    Prop where
  named : request.utxoStorageKey = key
  vout : request.vout = key.vout
  txBytes : request.txBytes = []
  pays : ∃ msg, request.depositMsg host = some msg ∧
    PaysAt host key ⟨request.amount, host.depositScript chain msg⟩ ∧
    ∀ address ∈ msg.refundAddress, request.refundAddress = address

/-- What `execute_refund` resolves in a ledger, for a request of the message `msg`. -/
structure Resolves (env : Env) (l : Ledger) (msg : DepositMsg) (call : ExecuteRefundCall) :
    Prop where
  caller : call.caller = env.predecessor
  isPrivileged : call.isPrivileged = (decide ((Role.dao, env.predecessor) ∈ l.roles) ||
    decide ((Role.refundOperator, env.predecessor) ∈ l.roles))
  refundTimelockSec : call.refundTimelockSec = l.refundTimelockSec
  unsafeRefundTimelockSec : call.unsafeRefundTimelockSec = l.unsafeRefundTimelockSec
  timelockSec : call.timelockSec =
    if msg.refundAddress.isSome then if call.isPrivileged then 0 else call.refundTimelockSec
    else call.unsafeRefundTimelockSec

/-- What `execute_refund` resolves in a ledger. -/
def Resolved (host : Host) (env : Env) (l : Ledger) (call : ExecuteRefundCall) : Prop :=
  ∃ request msg, l.requests.lookup call.utxoStorageKey = some request ∧
    request.depositMsg host = some msg ∧ Resolves env l msg call

/-- A refund of `request` built for `call`. -/
structure CreatesRefund (host : Host) (l : Ledger) (call : ExecuteRefundCall)
    (request : RefundRequest) (info : BTCPendingInfo) (nowSec : ℕ) : Prop
    extends Unsigned host info where
  stored : l.requests.lookup call.utxoStorageKey = some request
  time : request.createdAtSec + call.timelockSec ≤ nowSec
  free : call.utxoStorageKey ∉ l.verified ∨ request.executed = true
  createTime : info.createTimeSec = nowSec
  kind : info.state = .refund (initialState info.gasFee)
  account : info.accountId = call.caller
  transferAmount : info.transferAmount = 0
  gasFee : info.gasFee = request.gasFee
  signatureCount : info.signatures.length = 1
  inputs : request.txBytes = [] → ∃ msg, request.depositMsg host = some msg ∧
    info.inputs = [⟨request.utxoStorageKey.txid, request.vout⟩] ∧
    info.vutxos = [⟨getDepositPath host msg, [], request.vout, request.amount⟩] ∧
    info.psbt.inputsUtxo = coinsOf host l.chain info.vutxos
  payment : Payment host l.chain (some request.refundAddress) info
  fresh : l.pendings.lookup info.btcPendingId = none

/-! ### Causes -/

/-- Why the ledger changes: a call, the answer to a promise, or an answer whose callback had no
effect. -/
inductive Cause
  | call (env : Env) (method : Method)
  | answer (env : Env) (promise : Promise) (result : PromiseResult)
  | lost (promise : Promise) (result : PromiseResult)

namespace Cause

/-- The promise that is answered. -/
def taken : Cause → Multiset Promise
  | call _ _ => 0
  | answer _ promise _ | lost promise _ => {promise}

/-- The ledger before its step, from what remains when the answered promise is taken out. -/
def before (cause : Cause) (l : Ledger) : Ledger :=
  { l with inflight := cause.taken + l.inflight }

/-- The tokens a step has to account for, and their sender. -/
def brings : Cause → Option (AccountId × ℕ)
  | call _ method => method.brings
  | answer _ promise _ => promise.brings
  | lost _ _ => none

/-- The environment of a step. -/
def env : Cause → Option Env
  | call env _ | answer env _ _ => some env
  | lost _ _ => none

/-- The causes that create a transaction from the given tokens and their sender. -/
def Builds : Cause → Option (AccountId × ℕ) → Prop
  | call _ method, incoming => method.brings = incoming
  | answer _ (.ftOnTransfer senderId amount ..) _, incoming => some (senderId, amount) = incoming
  | answer _ (.activeUtxoManagement ..) _, incoming | answer _ (.rbf ..) _, incoming =>
    none = incoming
  | _, _ => False

/-- An answer that changes nothing. -/
def Ignored : Cause → Prop
  | answer _ (.burnDetached ..) _ | answer _ (.sign ..) _ | answer _ .syncRootPublicKey _ => True
  | answer _ (.transferNbtc ..) result | answer _ (.withdrawProtocolFee ..) result =>
    result.isSuccess = true
  | _ => False

end Cause

/-- The tokens the post actions of a deposit pass on. -/
def postActionsAmount (postActions : Option (List PostAction)) : ℕ :=
  ((postActions.getD []).map PostAction.amount).sum

/-- What the code has checked when a call schedules a promise that moves nothing yet. -/
def Issued (host : Host) (env : Env) (method : Method) (l : Ledger) : Promise → Prop
  | .verifyDeposit _ mintAmount protocolFee relayerFee info postActions _ =>
    IsDeposit host l.chain info.utxoStorageKey info.utxo ∧
    mintAmount + protocolFee + relayerFee = info.utxo.balance ∧
    postActionsAmount postActions ≤ mintAmount
  | .verifySafeDeposit _ mintAmount _ info _ =>
    IsDeposit host l.chain info.utxoStorageKey info.utxo ∧ mintAmount = info.utxo.balance
  | .verifyWithdraw txId _ =>
    ∃ info, l.pendings.lookup txId = some info ∧ info.state.isWithdrawRelated = true
  | .verifyActiveUtxoManagement txId _ =>
    ∃ info, l.pendings.lookup txId = some info ∧ info.state.isActiveUtxoManagementRelated = true
  | .verifyRefundFinalize _ _ | .sign .. | .syncRootPublicKey => True
  | .requestRefund msg refundAddress txId output vout _ =>
    PaysAt host ⟨txId, vout⟩ output ∧ ∀ address ∈ msg.refundAddress, address = refundAddress
  | .activeUtxoManagement .. => host.zcash = true
  | .rbf method accountId id _ data _ => host.zcash = true ∧
    (method ≠ .withdrawRbf → data = none) ∧
    (method = .cancelWithdraw ∨ method = .cancelActiveUtxoManagement →
      ∃ o, l.pendings.lookup id = some o ∧ o.accountId = accountId)
  | .executeRefund call data =>
    host.zcash = true ∧ method = .executeRefund call.utxoStorageKey data ∧
      Resolved host env l call
  | .ftOnTransfer senderId amount _ _ _ _ _ =>
    host.zcash = true ∧ method.brings = some (senderId, amount)
  | .mint .. | .safeMint .. | .burnDetached .. | .withdrawBurn .. | .activeUtxoManagementBurn ..
  | .transferNbtc .. | .withdrawProtocolFee .. => False

/-- The mint a verified deposit asks for. -/
inductive Mints (token signer : AccountId) (info : PendingUTXOInfo) : Promise → Promise → Prop
  | standard (recipientId : AccountId) (mintAmount protocolFee relayerFee : ℕ)
      (postActions : Option (List PostAction)) (delta : ℕ) (height : Option ℕ) :
      Mints token signer info
        (.verifyDeposit recipientId mintAmount protocolFee relayerFee info postActions delta)
        (.mint token recipientId mintAmount protocolFee signer relayerFee postActions info height)
  | safe (recipientId : AccountId) (mintAmount : ℕ) (msg : String) (msg' : Option String)
      (delta : ℕ) (height : Option ℕ) :
      Mints token signer info
        (.verifySafeDeposit recipientId mintAmount msg info delta)
        (.safeMint token recipientId mintAmount msg' info height)

namespace Promise

/-- The protocol fee collected when a mint succeeds. -/
def mintFee : Promise → ℕ
  | mint _ _ _ protocolFee _ _ _ _ _ => protocolFee
  | _ => 0

/-- The burn that follows a failed mint: a safe mint leaves the tokens with the bridge. -/
def mintRevert (token bridge signer : AccountId) : Promise → Multiset Promise
  | safeMint _ _ mintAmount _ _ _ => {burnDetached token bridge mintAmount signer 0}
  | _ => 0

end Promise

/-- The burn of a confirmed transaction, as a withdrawal or as active management. -/
inductive BurnOf (token : AccountId) (info : BTCPendingInfo) (txId : Txid) : Bool → Promise → Prop
  | withdraw (relayer : AccountId) (relayerFee protocolFee : ℕ)
      (hfee : protocolFee + relayerFee = info.withdrawFee) :
      BurnOf token info txId true
        (.withdrawBurn token info.accountId info.burnAmount relayer relayerFee txId protocolFee)
  | active (relayer : AccountId) :
      BurnOf token info txId false
        (.activeUtxoManagementBurn token info.accountId info.burnAmount relayer txId)

/-- What confirming `info` takes of the reservation of `o`, by the callback of a withdrawal. -/
def withdrawUsage (info : BTCPendingInfo) (reserved : ℕ) : ℕ :=
  if 0 < reserved ∧ info.state.isWithdrawCancelRbf = true then
    info.burnAmount - (info.transferAmount - info.withdrawFee)
  else 0

/-- The transfer that gives back what a confirmed cancellation did not burn. -/
def refundTransfer (token : AccountId) (info : BTCPendingInfo) : Multiset Promise :=
  if 0 < Contract.cancelRefund info then
    {.transferNbtc token info.accountId (Contract.cancelRefund info)}
  else 0

/-- A transaction that is confirmed, with the original of its family. -/
structure Commits (l : Ledger) (txId : Txid) (info o : BTCPendingInfo) (tx : Transaction) :
    Prop where
  pending : l.pendings.lookup txId = some info
  original : l.pendings.lookup (info.root txId) = some o
  tx : info.getTransaction = some tx
  ready : l.ready = true

/-- The coins a confirmed transaction gives to the bridge. -/
def Ledger.change (host : Host) (l : Ledger) (txId : Txid) (tx : Transaction) :
    List (OutPoint × UTXO) :=
  Contract.changeUtxos host (host.changeScript l.chain) txId tx.output

/-- The ledger after a confirmed transaction has been settled with the given fees. -/
def Ledger.settle (host : Host) (l : Ledger) (txId : Txid) (info : BTCPendingInfo)
    (tx : Transaction) (fees : Fees) : Ledger :=
  { l with
    utxos := FiniteMap.insertAll l.utxos (l.change host txId tx)
    pendings := (l.pendings.erase (info.root txId)).erase txId
    fees := fees
    log := l.log ++ [.utxoAdded ((l.change host txId tx).map Prod.fst),
      .committed txId (info.root txId)] }

/-- What one step may do, on the ledger from which the answered promise is taken out. `Completes`
says for which deposits a registration by hand is possible. -/
inductive Effect (host : Host) (Completes : Ledger → OutPoint → Prop) :
    Cause → Ledger → Ledger → Prop
  | configure {l : Ledger} (env : Env) (method : Method) (token : AccountId)
      (roles : Finset (Role × AccountId)) (refundTimelockSec unsafeRefundTimelockSec : ℕ)
      (accounts : Set AccountId) (hbrings : method.brings = none)
      (haccounts : l.accounts ⊆ accounts) :
      Effect host Completes (.call env method) l { l with
        token := token
        roles := roles
        refundTimelockSec := refundTimelockSec
        unsafeRefundTimelockSec := unsafeRefundTimelockSec
        accounts := accounts }
  | ignore {l : Ledger} (cause : Cause) (h : cause.Ignored) : Effect host Completes cause l l
  | lose {l : Ledger} (p : Promise) (result : PromiseResult) :
      Effect host Completes (.lost p result) l { l with log := l.log ++ p.lostMarks result }
  | setKey {l : Ledger} (env : Env) (result : PromiseResult) :
      Effect host Completes (.answer env .syncRootPublicKey result) l { l with ready := true }
  | issue {l : Ledger} (env : Env) (method : Method) (p : Promise)
      (hissued : Issued host env method l p) (hbrings : method.brings = p.brings) :
      Effect host Completes (.call env method) l { l with inflight := p ::ₘ l.inflight }
  | begin {l : Ledger} (env : Env) (p m : Promise) (result : PromiseResult)
      (info : PendingUTXOInfo) (hmints : Mints l.token env.signer info p m)
      (hnew : info.utxoStorageKey ∉ l.verified) :
      Effect host Completes (.answer env p result) l { l with
        verified := insert info.utxoStorageKey l.verified
        inProgress := l.inProgress.insert info.utxoStorageKey info.utxo
        inflight := m ::ₘ l.inflight
        log := l.log ++ [.depositStarted info.utxoStorageKey] }
  | finish {l : Ledger} (env : Env) (m : Promise) (result : PromiseResult)
      (info : PendingUTXOInfo) (accounts : Set AccountId) (hinfo : m.mintInfo = some info)
      (hminted : m.minted result = true) (haccounts : l.accounts ⊆ accounts)
      (hroom : 0 < m.mintFee → l.fees.HasRoom m.mintFee) :
      Effect host Completes (.answer env m result) l { l with
        inProgress := l.inProgress.erase info.utxoStorageKey
        utxos := l.utxos.insert info.utxoStorageKey info.utxo
        accounts := accounts
        fees := l.fees.collect m.mintFee
        log := l.log ++ [.utxoAdded [info.utxoStorageKey],
          .depositFinalised info.utxoStorageKey] }
  | revert {l : Ledger} (env : Env) (m : Promise) (result : PromiseResult)
      (info : PendingUTXOInfo) (hinfo : m.mintInfo = some info)
      (hminted : m.minted result = false) :
      Effect host Completes (.answer env m result) l { l with
        inProgress := l.inProgress.erase info.utxoStorageKey
        verified := l.verified.erase info.utxoStorageKey
        inflight := m.mintRevert l.token host.currentAccountId env.signer + l.inflight
        log := l.log ++ [.depositReverted info.utxoStorageKey] }
  | complete {l : Ledger} (env : Env) (method : Method) (key : OutPoint) (utxo : UTXO)
      (fee : ℕ) (accounts : Set AccountId) (hbrings : method.brings = none)
      (hguard : Completes l key) (hdeposit : IsDeposit host l.chain key utxo)
      (hverified : key ∈ l.verified) (hutxo : l.utxos.lookup key = none)
      (hrequest : l.requests.lookup key = none) (haccounts : l.accounts ⊆ accounts)
      (hroom : 0 < fee → l.fees.HasRoom fee) :
      Effect host Completes (.call env method) l { l with
        inProgress := l.inProgress.erase key
        utxos := l.utxos.insert key utxo
        accounts := accounts
        fees := l.fees.collect fee
        log := l.log ++ [.utxoAdded [key], .depositCompleted key] }
  | collectFee {l : Ledger} (env : Env) (method : Method) (senderId : AccountId) (amount : ℕ)
      (hbrings : method.brings = some (senderId, amount)) (hroom : l.fees.HasRoom amount) :
      Effect host Completes (.call env method) l { l with fees := l.fees.collect amount }
  | create {l : Ledger} (cause : Cause) (info : BTCPendingInfo) (payee : Option String)
      (rest : FiniteMap OutPoint UTXO) (fees : Fees) (accounts : Set AccountId)
      (hcreates : CreatesOriginal host l info payee rest)
      (hfees : Fees.Reserves info.reservation l.fees fees)
      (hbuilds : cause.Builds info.incoming)
      (haccounts : l.accounts ⊆ accounts) (howner : info.accountId ∈ accounts) :
      Effect host Completes cause l { l with
        utxos := rest
        pendings := l.pendings.insert info.btcPendingId info
        fees := fees
        accounts := accounts
        log := l.log ++ [.utxoRemoved info.inputs info.btcPendingId, .created info payee] }
  | replace {l : Ledger} (cause : Cause) (id : Txid) (o o' info : BTCPendingInfo)
      (payee : Option String) (extra : ℕ) (fees : Fees)
      (hreplaces : Replaces host l id o o' info payee extra)
      (hfees : Fees.Reserves extra l.fees fees) (hbuilds : cause.Builds none) :
      Effect host Completes cause l { l with
        pendings := (l.pendings.insert id o').insert info.btcPendingId info
        fees := fees
        log := l.log ++ [.created info payee] }
  | sign {l : Ledger} (env : Env) (accountId : AccountId) (id : Txid) (signIndex : ℕ)
      (payload : List UInt8) (path : Path) (keyVersion : ℕ) (result : PromiseResult)
      (info info' : BTCPendingInfo) (hpending : l.pendings.lookup id = some info)
      (hsigns : Signs host info info') :
      Effect host Completes
        (.answer env (.sign accountId id signIndex payload path keyVersion) result) l
        { l with pendings := l.pendings.insert id info' }
  | attest {l : Ledger} (env : Env) (p burn : Promise) (result : PromiseResult) (txId : Txid)
      (withdraw : Bool) (info : BTCPendingInfo) (hverifies : p.verifies = some (txId, withdraw))
      (hpending : l.pendings.lookup txId = some info)
      (hstage : info.state.stage = .pendingVerify) (hrefund : info.state.isRefund = false)
      (hburn : BurnOf l.token info txId withdraw burn) :
      Effect host Completes (.answer env p result) l { l with
        pendings := l.pendings.insert txId
          { info with state := info.state.setStage .pendingBurn }
        inflight := burn ::ₘ l.inflight
        log := l.log ++ [.attested txId (info.root txId)] }
  | burnFailed {l : Ledger} (env : Env) (p : Promise) (result : PromiseResult) (txId : Txid)
      (info : BTCPendingInfo) (hburns : p.burns = some txId) (hfailed : result.isSuccess = false)
      (hpending : l.pendings.lookup txId = some info) :
      Effect host Completes (.answer env p result) l { l with
        pendings := l.pendings.insert txId info.toPendingVerifyStage }
  | commitWithdraw {l : Ledger} (env : Env) (token account relayer : AccountId)
      (amount relayerFee : ℕ) (txId : Txid) (protocolFee : ℕ) (result : PromiseResult)
      (info o : BTCPendingInfo) (tx : Transaction) (s : OriginalState) (fees : Fees)
      (hsuccess : result.isSuccess = true) (hcommits : Commits l txId info o tx)
      (hstate : o.state.originalState = some s)
      (hfees : Fees.Releases (s.cancelRbfReserved.getD 0)
        (withdrawUsage info (s.cancelRbfReserved.getD 0)) l.fees fees)
      (hroom : 0 < protocolFee → fees.HasRoom protocolFee) :
      Effect host Completes
        (.answer env (.withdrawBurn token account amount relayer relayerFee txId protocolFee)
          result) l
        { l.settle host txId info tx (fees.collect protocolFee) with
          inflight := refundTransfer l.token info + l.inflight }
  | commitActive {l : Ledger} (env : Env) (token account relayer : AccountId) (amount : ℕ)
      (txId : Txid) (result : PromiseResult) (info o : BTCPendingInfo) (tx : Transaction)
      (s : OriginalState) (fees : Fees) (hsuccess : result.isSuccess = true)
      (hcommits : Commits l txId info o tx) (hstate : o.state.originalState = some s)
      (hfees : Fees.Releases s.maxGasFee info.burnAmount l.fees fees) :
      Effect host Completes
        (.answer env (.activeUtxoManagementBurn token account amount relayer txId) result) l
        (l.settle host txId info tx fees)
  | discard {l : Ledger} (env : Env) (method : Method) (ids : List Txid)
      (rest : FiniteMap Txid BTCPendingInfo) (infos : List BTCPendingInfo)
      (hbrings : method.brings = none)
      (htakes : FiniteMap.takeAll l.pendings ids = some (rest, infos))
      (hdroppable : ∀ info ∈ infos, Droppable info) :
      Effect host Completes (.call env method) l { l with pendings := rest }
  | claim {l : Ledger} (env : Env) (method : Method) (amount : ℕ) (hbrings : method.brings = none)
      (hentry : l.lostFound.lookup env.predecessor = some amount) :
      Effect host Completes (.call env method) l { l with
        lostFound := l.lostFound.erase env.predecessor
        inflight := .transferNbtc l.token env.predecessor amount ::ₘ l.inflight }
  | transferFailed {l : Ledger} (env : Env) (token account : AccountId) (amount : ℕ)
      (result : PromiseResult) (hfailed : result.isSuccess = false) :
      Effect host Completes (.answer env (.transferNbtc token account amount) result) l { l with
        lostFound := l.lostFound.insert account ((l.lostFound.lookup account).getD 0 + amount) }
  | withdrawFee {l : Ledger} (env : Env) (method : Method) (amount : ℕ)
      (hbrings : method.brings = none) (hamount : amount ≤ l.fees.available) :
      Effect host Completes (.call env method) l { l with
        fees := { l.fees with
          available := l.fees.available - amount
          claimed := l.fees.claimed + amount }
        inflight := .withdrawProtocolFee l.token env.predecessor amount ::ₘ l.inflight }
  | feeFailed {l : Ledger} (env : Env) (token receiver : AccountId) (amount claimed : ℕ)
      (result : PromiseResult) (hfailed : result.isSuccess = false)
      (hclaimed : claimed + amount = l.fees.claimed) :
      Effect host Completes (.answer env (.withdrawProtocolFee token receiver amount) result) l
        { l with fees := { l.fees with
            available := l.fees.available + amount
            claimed := claimed } }
  | request {l : Ledger} (env : Env) (msg : DepositMsg) (refundAddress : String) (txId : Txid)
      (output : TxOut) (vout : ℕ) (gasFee : Option ℕ) (result : PromiseResult)
      (request : RefundRequest) (hscript : output.scriptPubkey = host.depositScript l.chain msg)
      (hnew : (⟨txId, vout⟩ : OutPoint) ∉ l.verified)
      (hnone : l.requests.lookup ⟨txId, vout⟩ = none)
      (hrequest : request = ⟨host.depositMsgToJson msg, ⟨txId, vout⟩, [], vout, output.value,
        refundAddress, request.gasFee, request.createdAtSec, false⟩) :
      Effect host Completes
        (.answer env (.requestRefund msg refundAddress txId output vout gasFee) result) l
        { l with
          requests := l.requests.insert ⟨txId, vout⟩ request
          log := l.log ++ [.refundRequested request] }
  | reject {l : Ledger} (env : Env) (method : Method) (key : OutPoint) (request : RefundRequest)
      (hbrings : method.brings = none) (hentry : l.requests.lookup key = some request)
      (hexecuted : request.executed = false) :
      Effect host Completes (.call env method) l { l with requests := l.requests.erase key }
  | refund {l : Ledger} (cause : Cause) (call : ExecuteRefundCall) (request : RefundRequest)
      (info : BTCPendingInfo) (nowSec : ℕ) (accounts : Set AccountId)
      (hcall : (∃ env data result, cause = .answer env (.executeRefund call data) result) ∨
        ∃ env data, cause = .call env (.executeRefund call.utxoStorageKey data) ∧
          Resolved host env l call)
      (hcreates : CreatesRefund host l call request info nowSec)
      (haccounts : l.accounts ⊆ accounts) (howner : info.accountId ∈ accounts) :
      Effect host Completes cause l { l with
        pendings := l.pendings.insert info.btcPendingId info
        verified := insert call.utxoStorageKey l.verified
        requests := l.requests.insert call.utxoStorageKey { request with executed := true }
        accounts := accounts
        log := l.log ++ [.created info (some request.refundAddress),
          .refundCreated call request info nowSec] }
  | finalizeRefund {l : Ledger} (env : Env) (txId : Txid) (confirmations : ℕ)
      (result : PromiseResult) (info : BTCPendingInfo) (key : OutPoint)
      (hpending : l.pendings.lookup txId = some info) (hrefund : info.state.isRefund = true)
      (hkey : info.inputs = [key]) :
      Effect host Completes (.answer env (.verifyRefundFinalize txId confirmations) result) l
        { l with
          requests := l.requests.erase key
          pendings := l.pendings.erase txId
          log := l.log ++ [.refundFinalised txId key] }

/-- One step of the ledger. -/
def Ledger.Step (host : Host) (Completes : Ledger → OutPoint → Prop) (l l' : Ledger) : Prop :=
  ∃ cause mid, l = Cause.before cause mid ∧ Effect host Completes cause mid l'

end SatoshiBridge

import SatoshiBridge.Model.Nbtc
import SatoshiBridge.Model.System

/-!
# The bridge and its token as one system

The bridge beside the contract of its token. A promise of the bridge to the token is executed there
before its callback can run; everybody else calls the token too, and the token calls the receivers
of its transfers, one of which is the bridge. Every receipt is an action of its own, so the actions
interleave in every order. The receivers of transfers, and the other callees of the bridge, may
answer anything.
-/

set_option autoImplicit false
set_option relaxedAutoImplicit false

namespace SatoshiBridge

/-- What surrounds the two contracts: the host of the bridge, the standard token, the account of the
token, and `serde_json::from_str::<TokenReceiverMessage>`. -/
structure Setting where
  host : Host
  ft : FungibleToken
  nbtcId : AccountId
  readMessage : String → Option TokenReceiverMessage

/-! ### Calls of the token -/

/-- A call of the token by the bridge. -/
structure NbtcCall where
  token : AccountId
  method : NbtcMethod
  attachedDeposit : ℕ
  staticGas : ℕ

/-- `GAS_FOR_MINT_CALL`. -/
def gasForMintCall : ℕ := 90 * 10 ^ 12

/-- `GAS_FOR_BURN_CALL`. -/
def gasForBurnCall : ℕ := 5 * 10 ^ 12

/-- `GAS_FOR_TOKEN_TRANSFER`. -/
def gasForTokenTransfer : ℕ := 20 * 10 ^ 12

namespace Promise

/-- The call a promise makes, if it goes to the token. -/
def nbtcCall : Promise → Option NbtcCall
  | mint token recipientId mintAmount protocolFee relayerAccountId relayerFee postActions _ _ =>
    some ⟨token, .mint recipientId mintAmount protocolFee relayerAccountId relayerFee postActions,
      0, gasForMintCall⟩
  | safeMint token recipientId mintAmount msg _ _ =>
    some ⟨token, .safeMint recipientId mintAmount msg, 1, gasForMintCall⟩
  | burnDetached token burnAccountId burnAmount relayerAccountId relayerFee =>
    some ⟨token, .burn burnAccountId burnAmount relayerAccountId relayerFee, 0, gasForBurnCall⟩
  | withdrawBurn token burnAccountId burnAmount relayerAccountId relayerFee _ _ =>
    some ⟨token, .burn burnAccountId burnAmount relayerAccountId relayerFee, 0, gasForBurnCall⟩
  | activeUtxoManagementBurn token burnAccountId burnAmount relayerAccountId _ =>
    some ⟨token, .burn burnAccountId burnAmount relayerAccountId 0, 0, gasForBurnCall⟩
  | transferNbtc token accountId amount =>
    some ⟨token, .ftTransfer accountId amount none, 1, gasForTokenTransfer⟩
  | withdrawProtocolFee token receiverId amount =>
    some ⟨token, .ftTransfer receiverId amount none, 1, gasForTokenTransfer⟩
  | _ => none

/-- Whether a call of the token may run out of gas. The burn nobody awaits is given what it
needs. -/
def mayFail : Promise → Bool
  | burnDetached .. => false
  | _ => true

end Promise

/-- How far the call of a promise has come. A safe mint may transfer the tokens to a receiver and
resolve the transfer before it answers. -/
inductive Stage
  | waiting
  | transferring (t : Transfer)
  | resolving (t : Transfer) (result : PromiseResult)
  | answered (result : PromiseResult)
deriving DecidableEq

/-- Whether the token has something to execute for a call. -/
def Stage.executes : Stage → Bool
  | waiting | resolving .. => true
  | _ => false

/-- The stage of a call after its method has run. -/
def NbtcAnswer.stage : NbtcAnswer → Stage
  | value v => .answered (.value v)
  | transfer t => .transferring t

/-! ### Receipts of the token that no promise of the bridge awaits -/

/-- A transfer whose receiver is still to be called, its `ft_resolve_transfer`, and the detached
post actions of a mint. -/
inductive Flow
  | transfer (t : Transfer)
  | resolve (senderId receiverId : AccountId) (amount : ℕ) (result : PromiseResult)
  | postActions (senderId : AccountId) (postActions : List PostAction)
  | postAction (senderId : AccountId) (postAction : PostAction)

/-- The resolution of a transfer whose receiver has answered. -/
def Transfer.resolve (t : Transfer) (result : PromiseResult) : Flow :=
  .resolve t.senderId t.receiverId t.amount result

/-- What a method of the token that nobody awaits leaves in flight. -/
def NbtcAnswer.flows : NbtcAnswer → List Flow
  | value _ => []
  | transfer t => [.transfer t]

/-- The post actions a method of the token leaves in flight. -/
def NbtcReceipt.detached {ft : FungibleToken} (receipt : NbtcReceipt ft) : List Flow :=
  match receipt.postActions with
  | some (senderId, postActions) => [.postActions senderId postActions]
  | none => []

/-- One receipt of the token itself; a panic leaves nothing behind. A transfer waits for its
receiver. -/
def Flow.run {ft : FungibleToken} (nbtc : NbtcContract ft) (prepaidGas : ℕ) :
    Flow → Option (NbtcContract ft × List Flow)
  | transfer _ => none
  | resolve senderId receiverId amount result =>
    match nbtc.ftResolveTransfer senderId receiverId amount result with
    | some (nbtc', _) => some (nbtc', [])
    | none => some (nbtc, [])
  | postActions senderId actions => some (nbtc, actions.map (.postAction senderId))
  | postAction senderId action =>
    match nbtc.handlePostAction prepaidGas senderId action with
    | some (nbtc', t) => some (nbtc', [.transfer t])
    | none => some (nbtc, [])

/-- Whether the token executes a receipt itself. -/
def Flow.isOwn : Flow → Bool
  | transfer _ => false
  | _ => true

/-! ### Actions -/

structure World (σ : Setting) where
  contract : Contract
  inflight : List (Promise × Stage)
  log : List Mark
  nbtc : NbtcContract σ.ft
  flows : List Flow

/-- `call`, `callback` and `lose` are those of the bridge. `execute` runs the call of a promise to
the token, `fail` lets it run out of gas, `receive` is the answer of the receiver of a safe mint and
`resolve` its `ft_resolve_transfer`. `nbtc` is a call of the token by somebody else than the bridge,
`onTransfer` the `ft_on_transfer` of the bridge, the only method the token calls there, `answer`
that of another receiver or of a bridge that ran out of gas, `run` a receipt of the token itself and
`expire` one that ran out of gas. -/
inductive WorldAction
  | call (env : Env) (method : Method)
  | callback (index : ℕ) (env : Env) (result : PromiseResult)
  | lose (index : ℕ) (result : PromiseResult)
  | execute (index : ℕ)
  | fail (index : ℕ)
  | receive (index : ℕ) (result : PromiseResult)
  | resolve (index : ℕ)
  | nbtc (env : NbtcEnv) (method : NbtcMethod)
  | onTransfer (index : ℕ) (env : Env)
  | answer (index : ℕ) (result : PromiseResult)
  | run (index prepaidGas : ℕ)
  | expire (index : ℕ)

namespace World

variable {σ : Setting}

/-- The bridge alone. -/
def sys (w : World σ) : Sys := ⟨w.contract, w.inflight.map Prod.fst, w.log⟩

/-- `ft_total_supply` of the token. -/
def totalSupply (w : World σ) : ℕ := σ.ft.ftTotalSupply w.nbtc.token

/-- `ft_balance_of` the bridge. -/
def balance (w : World σ) : ℕ := σ.ft.ftBalanceOf w.nbtc.token σ.host.currentAccountId

/-- No promise of the bridge is in flight. Receipts of the token may be. -/
def Quiet (w : World σ) : Prop := w.inflight = []

/-- The state after a receipt of the bridge. -/
def apply (w : World σ) (receipt : Receipt) : World σ :=
  { w with
    contract := receipt.contract
    inflight := w.inflight ++ receipt.promises.map fun p ↦ (p, .waiting)
    log := w.log ++ receipt.marks }

/-- The call of a promise has come further. -/
def advance (w : World σ) (index : ℕ) (p : Promise) (stage : Stage) : World σ :=
  { w with inflight := w.inflight.set index (p, stage) }

/-- The state without a promise. -/
def take (w : World σ) (index : ℕ) : World σ :=
  { w with inflight := w.inflight.eraseIdx index }

/-- The state after a promise whose callback had no effect. -/
def drop (w : World σ) (index : ℕ) (p : Promise) (result : PromiseResult) : World σ :=
  { w.take index with log := w.log ++ p.lostMarks result }

/-- The state with more receipts of the token in flight. -/
def send (w : World σ) (flows : List Flow) : World σ := { w with flows := w.flows ++ flows }

/-- The state with one of these receipts replaced by what it has left. -/
def next (w : World σ) (index : ℕ) (flows : List Flow) : World σ :=
  { w with flows := w.flows.eraseIdx index ++ flows }

/-- What the answer of a callback leaves in flight: the transfer the promise continued is
resolved. -/
def resolution (σ : Setting) (result : PromiseResult) : Promise → List Flow
  | .ftOnTransfer senderId amount .. =>
    [.resolve senderId σ.host.currentAccountId amount result]
  | _ => []

/-- The same for a method that may answer with a promise. -/
def resolutions (returns : Option ReturnValue) (resolve : PromiseResult → List Flow) : List Flow :=
  match returns with
  | some v => resolve (.value v)
  | none => []

/-- The answers a callback may be given: that of the token if the call went there. -/
def Answered (σ : Setting) (p : Promise) (stage : Stage) (result : PromiseResult) : Prop :=
  (∀ call ∈ p.nbtcCall, call.token = σ.nbtcId → stage = .answered result) ∧
    p.Answers σ.host result

instance (p : Promise) (stage : Stage) (result : PromiseResult) :
    Decidable (Answered σ p stage result) :=
  inferInstanceAs (Decidable (_ ∧ _))

/-- The receipt in which the token executes a call of the bridge. -/
def nbtcEnv (σ : Setting) (call : NbtcCall) : NbtcEnv :=
  ⟨σ.nbtcId, σ.host.currentAccountId, call.attachedDeposit, call.staticGas⟩

/-- The token executes the call of a promise. -/
def execute (w : World σ) (index : ℕ) (p : Promise) (call : NbtcCall) : World σ :=
  match w.nbtc.call (nbtcEnv σ call) call.method with
  | some receipt => { (w.advance index p receipt.answer.stage).send receipt.detached with
      nbtc := receipt.contract }
  | none => w.advance index p (.answered .failed)

/-- The token resolves the transfer of a safe mint. -/
def resolve (w : World σ) (index : ℕ) (p : Promise) (t : Transfer) (result : PromiseResult) :
    World σ :=
  match w.nbtc.ftResolveTransfer t.senderId t.receiverId t.amount result with
  | some (nbtc, usedAmount) =>
    { w.advance index p (.answered (.value (.u128 usedAmount))) with nbtc := nbtc }
  | none => w.advance index p (.answered .failed)

/-- The token calls the bridge. -/
def onTransfer (w : World σ) (index : ℕ) (env : Env) (t : Transfer) : World σ :=
  let receipt : Option Receipt := do
    let msg ← σ.readMessage t.msg
    w.contract.ftOnTransfer σ.host env t.senderId t.amount msg
  match receipt with
  | some receipt => (w.apply receipt).next index
      (resolutions receipt.returns fun result ↦ [t.resolve result])
  | none => w.next index [t.resolve .failed]

/-- The callback of a promise runs. -/
def callback (w : World σ) (index : ℕ) (env : Env) (p : Promise) (result : PromiseResult) :
    World σ :=
  match w.contract.callback σ.host env result p with
  | some receipt => ((w.take index).apply receipt).send
      (resolutions receipt.returns fun result ↦ resolution σ result p)
  | none => (w.drop index p result).send (resolution σ .failed p)

/-- One action. -/
def exec (w : World σ) : WorldAction → Option (World σ)
  | .call env method => do
    require (env.predecessor ≠ σ.nbtcId)
    let receipt ← w.contract.call σ.host env method
    some (w.apply receipt)
  | .callback index env result => do
    let (p, stage) ← w.inflight[index]?
    require (Answered σ p stage result)
    some (w.callback index env p result)
  | .lose index result => do
    let (p, stage) ← w.inflight[index]?
    require (Answered σ p stage result)
    some ((w.drop index p result).send (resolution σ .failed p))
  | .execute index => do
    let (p, stage) ← w.inflight[index]?
    let call ← p.nbtcCall
    require (call.token = σ.nbtcId ∧ stage = .waiting)
    some (w.execute index p call)
  | .fail index => do
    let (p, stage) ← w.inflight[index]?
    let call ← p.nbtcCall
    require (call.token = σ.nbtcId ∧ stage.executes ∧ p.mayFail)
    some (w.advance index p (.answered .failed))
  | .receive index result => do
    match ← w.inflight[index]? with
    | (p, .transferring t) => some (w.advance index p (.resolving t result))
    | _ => none
  | .resolve index => do
    match ← w.inflight[index]? with
    | (p, .resolving t result) => some (w.resolve index p t result)
    | _ => none
  | .nbtc env method => do
    require (env.currentAccountId = σ.nbtcId ∧ env.predecessor ≠ σ.host.currentAccountId)
    let receipt ← w.nbtc.call env method
    some { w.send (receipt.answer.flows ++ receipt.detached) with nbtc := receipt.contract }
  | .onTransfer index env => do
    match ← w.flows[index]? with
    | .transfer t => do
      require (t.receiverId = σ.host.currentAccountId ∧ env.predecessor = σ.nbtcId)
      some (w.onTransfer index env t)
    | _ => none
  | .answer index result => do
    match ← w.flows[index]? with
    | .transfer t => do
      require (t.receiverId = σ.host.currentAccountId → result = .failed)
      some (w.next index [t.resolve result])
    | _ => none
  | .run index prepaidGas => do
    let flow ← w.flows[index]?
    let (nbtc, flows) ← flow.run w.nbtc prepaidGas
    some { w.next index flows with nbtc := nbtc }
  | .expire index => do
    let flow ← w.flows[index]?
    require flow.isOwn
    some (w.next index [])

/-! ### Runs -/

/-- The two contracts have just been constructed for each other. -/
def Initial (w : World σ) : Prop :=
  ∃ env config controller, Contract.new env config = some w.contract ∧
    config.nbtcAccountId = σ.nbtcId ∧
    NbtcContract.new controller σ.host.currentAccountId = some w.nbtc ∧
    w.inflight = [] ∧ w.flows = [] ∧ w.log = []

/-- The actions a guard allows to a bridge that keeps its token: deposits are completed by hand as
the guard says, and no `update_config` names another token. -/
def Allowed (guard : Sys.Guard) (w : World σ) : WorldAction → Prop
  | .call _ (.updateConfig update) => ∀ id ∈ update.nbtcAccountId, id = σ.nbtcId
  | .call env method => Sys.Allowed σ.host guard w.sys (.call env method)
  | _ => True

/-- The actions of a run in which no deposit is completed by hand and no callback runs out of
gas. -/
def Answering (w : World σ) : WorldAction → Prop
  | .lose .. => False
  | a => w.Allowed Sys.never a

/-- The states reached by runs that keep to a guard. -/
abbrev Reachable (guard : Sys.Guard) (w : World σ) : Prop :=
  Transition.Reachable Initial exec (Allowed guard) w

/-- The states reached by runs in which no callback runs out of gas. -/
abbrev ReachableAnswering (w : World σ) : Prop := Transition.Reachable Initial exec Answering w

end World

end SatoshiBridge

import SatoshiBridge.Library.Balances
import SatoshiBridge.Model.Contract

/-!
# The nBTC token

The contract of the token: minting and burning for the bridge, and the transfers, storage methods
and post actions of everybody. It keeps its accounts in the `FungibleToken` of the NEAR standards,
which is not part of the repository: its operations are a parameter, and `FungibleToken.Standard`
says that they keep the books of a token as NEP-141 and NEP-145 document them.
-/

set_option autoImplicit false
set_option relaxedAutoImplicit false

namespace SatoshiBridge

/-- What a method of the token reads from its receipt. -/
structure NbtcEnv where
  currentAccountId : AccountId
  predecessor : AccountId
  attachedDeposit : ℕ
  prepaidGas : ℕ
deriving DecidableEq

/-! ### The standard token -/

/-- `FungibleToken` of the NEAR standards; `none` is a panic. The two transfer methods stand for the
part that moves tokens: the call of the receiver is scheduled by the caller of the operation. -/
structure FungibleToken where
  State : Type
  new : State
  accounts : State → Balances AccountId
  ftTotalSupply : State → ℕ
  internalRegisterAccount : State → AccountId → Option State
  internalDeposit : State → AccountId → ℕ → Option State
  internalWithdraw : State → AccountId → ℕ → Option State
  internalTransfer : State → AccountId → AccountId → ℕ → Option State
  ftTransfer : NbtcEnv → State → AccountId → ℕ → Option State
  ftTransferCall : NbtcEnv → State → AccountId → ℕ → Option State
  /-- The new state, the amount used and the amount burnt. -/
  internalFtResolveTransfer : State → AccountId → AccountId → ℕ → PromiseResult →
    Option (State × ℕ × ℕ)
  storageDeposit : NbtcEnv → State → Option AccountId → Option Bool → Option State
  storageWithdraw : NbtcEnv → State → Option ℕ → Option State
  internalStorageUnregister : NbtcEnv → State → Option Bool → Option State

/-- `ft_balance_of`. -/
def FungibleToken.ftBalanceOf (ft : FungibleToken) (t : ft.State) (accountId : AccountId) : ℕ :=
  (ft.accounts t).balance accountId

/-- The part of a transfer that its receiver has answered not to have used; all of it when the
answer is no amount. -/
def unusedAmount (amount : ℕ) : PromiseResult → ℕ
  | .value (.u128 unused) => min amount unused
  | _ => amount

/-- The documented behaviour of the standard token: every operation that succeeds is the operation
of its name on the books, and an account can always burn what it has. -/
structure FungibleToken.Standard (ft : FungibleToken) : Prop where
  new_accounts : ft.accounts ft.new = ∅
  ftTotalSupply : ∀ t, ft.ftTotalSupply t = (ft.accounts t).supply
  internalRegisterAccount : ∀ {t t' a}, ft.internalRegisterAccount t a = some t' →
    (ft.accounts t).register a = some (ft.accounts t')
  internalDeposit : ∀ {t t' a n}, ft.internalDeposit t a n = some t' →
    (ft.accounts t).deposit a n = some (ft.accounts t')
  internalWithdraw : ∀ {t t' a n}, ft.internalWithdraw t a n = some t' →
    (ft.accounts t).withdraw a n = some (ft.accounts t')
  internalWithdraw_of_le : ∀ {t a n}, a ∈ ft.accounts t → n ≤ (ft.accounts t).balance a →
    ∃ t', ft.internalWithdraw t a n = some t'
  internalTransfer : ∀ {t t' sender receiver n},
    ft.internalTransfer t sender receiver n = some t' →
    (ft.accounts t).transfer sender receiver n = some (ft.accounts t')
  ftTransfer : ∀ {env t t' receiver n}, ft.ftTransfer env t receiver n = some t' →
    (ft.accounts t).transfer env.predecessor receiver n = some (ft.accounts t')
  ftTransferCall : ∀ {env t t' receiver n}, ft.ftTransferCall env t receiver n = some t' →
    (ft.accounts t).transfer env.predecessor receiver n = some (ft.accounts t')
  internalFtResolveTransfer : ∀ {t t' sender receiver n result used burnt},
    ft.internalFtResolveTransfer t sender receiver n result = some (t', used, burnt) →
    ∃ returned, (ft.accounts t).giveBack sender receiver (unusedAmount n result)
      = (ft.accounts t', returned, burnt) ∧ used + returned = n
  storageDeposit : ∀ {env t t' accountId only}, ft.storageDeposit env t accountId only = some t' →
    ft.accounts t' = ft.accounts t ∨
      (ft.accounts t).register (accountId.getD env.predecessor) = some (ft.accounts t')
  storageWithdraw : ∀ {env t t' amount}, ft.storageWithdraw env t amount = some t' →
    ft.accounts t' = ft.accounts t
  internalStorageUnregister : ∀ {env t t' force},
    ft.internalStorageUnregister env t force = some t' →
    ft.accounts t' = (ft.accounts t).erase env.predecessor

/-! ### The contract -/

/-- The state of the token contract, without its metadata. -/
structure NbtcContract (ft : FungibleToken) where
  controller : AccountId
  bridgeId : AccountId
  token : ft.State
  withdrawRelayerAddress : Option AccountId

/-- A transfer whose receiver is to be called with `ft_on_transfer`. -/
structure Transfer where
  senderId : AccountId
  receiverId : AccountId
  amount : ℕ
  msg : String
deriving DecidableEq

/-- What a method answers with: a value, or the result of the `ft_resolve_transfer` that follows the
receiver's answer. -/
inductive NbtcAnswer
  | value (v : ReturnValue)
  | transfer (t : Transfer)

/-- The effect of one receipt of the token; `postActions` is the detached `handle_post_actions`. -/
structure NbtcReceipt (ft : FungibleToken) where
  contract : NbtcContract ft
  answer : NbtcAnswer
  postActions : Option (AccountId × List PostAction)

/-- `GAS_FOR_FT_TRANSFER_CALL`. -/
def gasForFtTransferCall : ℕ := 30 * 10 ^ 12

/-- `WITHDRAW_MEMO_PREFIX`. -/
def withdrawMemoPrefix : String := "WITHDRAW_TO:"

/-- The methods of the token that change its state. -/
inductive NbtcMethod
  | setController (controller : AccountId)
  | safeMint (accountId : AccountId) (amount : ℕ) (msg : Option String)
  | mint (mintAccountId : AccountId) (mintAmount protocolFee : ℕ) (relayerAccountId : AccountId)
      (relayerFee : ℕ) (postActions : Option (List PostAction))
  | burn (burnAccountId : AccountId) (burnAmount : ℕ) (relayerAccountId : AccountId)
      (relayerFee : ℕ)
  | ftTransfer (receiverId : AccountId) (amount : ℕ) (memo : Option String)
  | ftTransferCall (receiverId : AccountId) (amount : ℕ) (memo : Option String) (msg : String)
  | storageDeposit (accountId : Option AccountId) (registrationOnly : Option Bool)
  | storageWithdraw (amount : Option ℕ)
  | storageUnregister (force : Option Bool)
  | setWithdrawRelayerAddress (relayer : AccountId)

namespace NbtcContract

variable {ft : FungibleToken} (env : NbtcEnv) (c : NbtcContract ft)

/-- `Contract::new` of the token. -/
def new (controller bridgeId : AccountId) : Option (NbtcContract ft) := do
  let token ← ft.internalRegisterAccount ft.new bridgeId
  some ⟨controller, bridgeId, token, none⟩

/-- `assert_bridge`. -/
def assertBridge : Option Unit := require (c.bridgeId = env.predecessor)

/-- `assert_controller`. -/
def assertController : Option Unit := require (env.predecessor = c.controller)

/-- A receipt with a value. -/
def returning (c : NbtcContract ft) (v : ReturnValue) : NbtcReceipt ft := ⟨c, .value v, none⟩

/-- `set_controller`. -/
def setController (controller : AccountId) : Option (NbtcReceipt ft) := do
  require (env.attachedDeposit = 1)
  c.assertController env
  some (returning { c with controller := controller } .unit)

/-- `set_withdraw_relayer_address`. -/
def setWithdrawRelayerAddress (relayer : AccountId) : Option (NbtcReceipt ft) := do
  require (env.attachedDeposit = 1)
  c.assertController env
  some (returning { c with withdrawRelayerAddress := some relayer } .unit)

/-- The receiver of `ft_transfer`: tokens sent to the token itself for a withdrawal go on to the
relayer, once there is one. -/
def ftTransferReceiver (receiverId : AccountId) (memo : Option String) : AccountId :=
  if receiverId = env.currentAccountId ∧ memo.any fun m ↦ m.startsWith withdrawMemoPrefix then
    c.withdrawRelayerAddress.getD receiverId
  else receiverId

/-- `ft_transfer`. -/
def ftTransfer (receiverId : AccountId) (amount : ℕ) (memo : Option String) :
    Option (NbtcContract ft) := do
  let token ← ft.ftTransfer env c.token (c.ftTransferReceiver env receiverId memo) amount
  some { c with token := token }

/-- `ft_transfer_call`. -/
def ftTransferCall (receiverId : AccountId) (amount : ℕ) (msg : String) :
    Option (NbtcReceipt ft) := do
  let token ← ft.ftTransferCall env c.token receiverId amount
  some ⟨{ c with token := token }, .transfer ⟨env.predecessor, receiverId, amount, msg⟩, none⟩

/-- `safe_mint`. -/
def safeMint (accountId : AccountId) (amount : ℕ) (msg : Option String) :
    Option (NbtcReceipt ft) := do
  c.assertBridge env
  require (accountId ≠ c.bridgeId)
  let token ← ft.internalDeposit c.token c.bridgeId amount
  let c := { c with token := token }
  if (ft.accounts token).lookup accountId = none then some (returning c (.u128 0))
  else match msg with
    | some msg => c.ftTransferCall env accountId amount msg
    | none => do
      let c ← c.ftTransfer env accountId amount none
      some (returning c (.u128 amount))

/-- The token with an account registered if it is missing. -/
def registered (token : ft.State) (accountId : AccountId) : Option ft.State :=
  if (ft.accounts token).lookup accountId = none then ft.internalRegisterAccount token accountId
  else some token

/-- `mint_inner`. -/
def mintInner (token : ft.State) (accountId : AccountId) (amount : ℕ) : Option ft.State := do
  let token ← registered token accountId
  ft.internalDeposit token accountId amount

/-- `mint_inner` for a fee, which is skipped when it is zero. -/
def mintFee (token : ft.State) (accountId : AccountId) (fee : ℕ) : Option ft.State :=
  if 0 < fee then mintInner token accountId fee else some token

/-- `mint`. -/
def mint (mintAccountId : AccountId) (mintAmount protocolFee : ℕ) (relayerAccountId : AccountId)
    (relayerFee : ℕ) (postActions : Option (List PostAction)) : Option (NbtcReceipt ft) := do
  c.assertBridge env
  let token ← mintInner c.token mintAccountId mintAmount
  let token ← mintFee token c.bridgeId protocolFee
  let token ← mintFee token relayerAccountId relayerFee
  some ⟨{ c with token := token }, .value .unit, postActions.map fun as ↦ (mintAccountId, as)⟩

/-- The fee the bridge pays the relayer of a burn. -/
def payRelayer (token : ft.State) (bridgeId relayerAccountId : AccountId) (relayerFee : ℕ) :
    Option ft.State :=
  if 0 < relayerFee then do
    let token ← registered token relayerAccountId
    ft.internalTransfer token bridgeId relayerAccountId relayerFee
  else some token

/-- `burn`. The account it is for stands in the event only. -/
def burn (_burnAccountId : AccountId) (burnAmount : ℕ) (relayerAccountId : AccountId)
    (relayerFee : ℕ) : Option (NbtcReceipt ft) := do
  c.assertBridge env
  let token ← ft.internalWithdraw c.token c.bridgeId burnAmount
  let token ← payRelayer token c.bridgeId relayerAccountId relayerFee
  some (returning { c with token := token } .unit)

/-- `storage_deposit`, `storage_withdraw` and `storage_unregister`, whose answers nothing reads. -/
def storing (token : Option ft.State) : Option (NbtcReceipt ft) := do
  let token ← token
  some (returning { c with token := token } .other)

/-- The method a call names. -/
def call : NbtcMethod → Option (NbtcReceipt ft)
  | .setController controller => c.setController env controller
  | .safeMint accountId amount msg => c.safeMint env accountId amount msg
  | .mint mintAccountId mintAmount protocolFee relayerAccountId relayerFee postActions =>
    c.mint env mintAccountId mintAmount protocolFee relayerAccountId relayerFee postActions
  | .burn burnAccountId burnAmount relayerAccountId relayerFee =>
    c.burn env burnAccountId burnAmount relayerAccountId relayerFee
  | .ftTransfer receiverId amount memo => do
    let c ← c.ftTransfer env receiverId amount memo
    some (returning c .unit)
  | .ftTransferCall receiverId amount _ msg => c.ftTransferCall env receiverId amount msg
  | .storageDeposit accountId registrationOnly =>
    c.storing (ft.storageDeposit env c.token accountId registrationOnly)
  | .storageWithdraw amount => c.storing (ft.storageWithdraw env c.token amount)
  | .storageUnregister force => c.storing (ft.internalStorageUnregister env c.token force)
  | .setWithdrawRelayerAddress relayer => c.setWithdrawRelayerAddress env relayer

/-- `ft_resolve_transfer`, with the amount it answers. -/
def ftResolveTransfer (senderId receiverId : AccountId) (amount : ℕ) (result : PromiseResult) :
    Option (NbtcContract ft × ℕ) := do
  let (token, usedAmount, _) ←
    ft.internalFtResolveTransfer c.token senderId receiverId amount result
  some ({ c with token := token }, usedAmount)

/-- `handle_post_action`: the transfer is made, and its receiver is to be called. -/
def handlePostAction (prepaidGas : ℕ) (senderId : AccountId) (postAction : PostAction) :
    Option (NbtcContract ft × Transfer) := do
  require (gasForFtTransferCall < prepaidGas)
  require (postAction.receiverId ≠ c.bridgeId)
  let token ← ft.internalTransfer c.token senderId postAction.receiverId postAction.amount
  some ({ c with token := token },
    ⟨senderId, postAction.receiverId, postAction.amount, postAction.msg⟩)

end NbtcContract

end SatoshiBridge

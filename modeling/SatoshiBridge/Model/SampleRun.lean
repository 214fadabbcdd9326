import SatoshiBridge.Model.SampleHost
import SatoshiBridge.Model.System

/-!
# Runs of the sample bridge

A configuration, callers and the usual sequences of actions over the sample host. Runs built from
them can be evaluated, and a run that completes no deposit by hand keeps to every guard.
-/

set_option autoImplicit false
set_option relaxedAutoImplicit false

namespace SatoshiBridge

/-- Whether an action is something else than the completion of a deposit by hand. -/
def Action.plain : Action → Bool
  | .call _ (.completeFailedDepositMint ..) => false
  | _ => true

theorem Sys.allowed_of_plain {host : Host} {guard : Guard} {s : Sys} {a : Action}
    (h : a.plain = true) : Allowed host guard s a := by
  cases a with
  | call env method =>
    cases method with
    | completeFailedDepositMint => cases h
    | _ => trivial
  | callback => trivial
  | lose => trivial

/-- The weakest guard allows every action. -/
theorem Sys.allowed_always {host : Host} (s : Sys) (a : Action) : Allowed host always s a := by
  cases a with
  | call env method =>
    cases method with
    | completeFailedDepositMint => exact fun _ _ ↦ trivial
    | _ => trivial
  | callback => trivial
  | lose => trivial

namespace Sample

def config : Config where
  chain := .bitcoinMainnet
  btcLightClientAccountId := "lc"
  nbtcAccountId := "nbtc"
  chainSignaturesAccountId := "mpc"
  chainSignaturesRootPublicKey := none
  changeAddress := none
  confirmationsStrategy := AList.singleton "1000000" 2
  confirmationsDelta := 1
  extraMsgConfirmationsDelta := 3
  depositBridgeFee := ⟨0, 0, 0⟩
  withdrawBridgeFee := ⟨0, 0, 0⟩
  minDepositAmount := 1
  minWithdrawAmount := 1
  minChangeAmount := 1
  maxChangeAmount := 10000
  minBtcGasFee := 1
  maxBtcGasFee := 1000
  maxWithdrawalInputNumber := 10
  maxChangeNumber := 10
  maxActiveUtxoManagementInputNumber := 10
  maxActiveUtxoManagementOutputNumber := 10
  activeManagementLowerLimit := 0
  activeManagementUpperLimit := 100
  passiveManagementLowerLimit := 0
  passiveManagementUpperLimit := 100
  rbfNumLimit := 10
  maxBtcTxPendingSec := 0
  unhealthyUtxoAmount := 2
  refundTimelockSec := 10
  unsafeRefundTimelockSec := 100
  expiryHeightGap := 10

/-- An unpaused receipt of a trusted relayer. -/
def env (predecessor : AccountId) (sec attachedDeposit : ℕ) : Env where
  predecessor := predecessor
  signer := predecessor
  blockTimestamp := sec * 10 ^ 9
  attachedDeposit := attachedDeposit
  trustedRelayer := true
  paused := false
  publicWithdrawPaused := false

/-! ### Answers -/

def included : PromiseResult := .value (.inclusion (some ⟨100, 200⟩))

def confirmed : PromiseResult := .value (.bool true)

def signed : PromiseResult := .value (.signature ⟨"", "", 0⟩)

def done : PromiseResult := .value .unit

/-! ### Sequences of actions -/

/-- The root public key arrives. -/
def sync : List Action :=
  [.call (env "dao" 0 1) .syncChainSignaturesRootPublicKey,
    .callback 0 (env bridge 0 0) (.value (.publicKey "root"))]

/-- A standard deposit, up to the mint in flight. -/
def beginDeposit (msg : DepositMsg) (vout : ℕ) : List Action :=
  [.call (env "relayer" 1 0) (.verifyDepositV2 msg (.full [0]) vout 1),
    .callback 0 (env bridge 1 0) included]

/-- A standard deposit. -/
def deposit (msg : DepositMsg) (vout : ℕ) : List Action :=
  beginDeposit msg vout ++ [.callback 0 (env bridge 1 0) done]

/-- The only input of a pending transaction is signed. -/
def sign (id : Txid) : List Action :=
  [.call (env "relayer" 2 0) (.signBtcTransaction id 0 0),
    .callback 0 (env bridge 2 0) signed]

/-- A pending transaction is confirmed and its tokens burnt. -/
def settle (id : Txid) : List Action :=
  [.call (env "relayer" 5 0) (.verifyWithdrawV2 id),
    .callback 0 (env bridge 5 0) confirmed,
    .callback 0 (env bridge 5 0) done]

/-- A refund request for an output of the funding transaction, by the DAO. -/
def requestRefund (msg : DepositMsg) (vout gasFee : ℕ) : List Action :=
  [.call (env "dao" 1 requiredBalanceForRequestRefund)
      (.requestRefund msg "bob-address" (.full [0]) vout (some gasFee)),
    .callback 0 (env bridge 1 0) included]

/-- The request is executed after its timelock. -/
def executeRefund (key : OutPoint) : List Action :=
  [.call (env "relayer" 200 requiredBalanceForExecuteRefund) (.executeRefund key none)]

/-- Alice withdraws her coin and the withdrawal is signed. -/
def signedWithdrawal : List Action :=
  sync ++ deposit aliceMsg 0 ++
    [.call (env "nbtc" 1 0) (.ftOnTransfer "alice" 1000
      (.withdraw bridge [⟨0, 0⟩] [⟨990, Numbering.word 0⟩] none none))] ++ sign 2

/-- The operators cancel the withdrawal of Alice with more gas than it pays. -/
def cancelledWithdrawal : List Action :=
  signedWithdrawal ++ [.call (env "dao" 4 1) (.cancelWithdraw 2 [⟨980, Numbering.word 0⟩])] ++
    sign 4

/-- The withdrawal is confirmed, its coin is registered again and withdrawn as before. The
cancellation is still there. -/
def withdrawnAgain : List Action :=
  cancelledWithdrawal ++ settle 2 ++
    [.call (env "dao" 6 1) (.completeFailedDepositMint aliceMsg (.full [0]) 0 0),
      .call (env "nbtc" 6 0) (.ftOnTransfer "alice" 1000
        (.withdraw bridge [⟨0, 0⟩] [⟨990, Numbering.word 0⟩] none none))]

/-- A gift to the protocol. -/
def donate (amount : ℕ) : List Action :=
  [.call (env "nbtc" 1 0) (.ftOnTransfer "donor" amount .depositProtocolFee)]

/-- The DAO moves the coin of Alice to change, at the expense of the protocol. -/
def manage : List Action :=
  [.call (env "dao" 6 1) (.activeUtxoManagement [⟨0, 0⟩] [⟨990, Numbering.word 0⟩])]

/-! ### Runs -/

/-- The state after a list of actions on a new contract of a host with a configuration. -/
noncomputable def afterWith (host : Host) (config : Config) (actions : List Action) :
    Option Sys := do
  let contract ← Contract.new (env "dao" 0 0) config
  Transition.execAll (Sys.exec host) ⟨contract, [], []⟩ actions

/-- The state after a list of actions on a new contract of a host. -/
noncomputable def afterIn (host : Host) (actions : List Action) : Option Sys :=
  afterWith host config actions

/-- The state after a list of actions on a new contract. -/
noncomputable def after (actions : List Action) : Option Sys := afterIn (host false) actions

theorem reachesOf {host : Host} {config : Config} {guard : Sys.Guard} {actions : List Action}
    {s : Sys} (hallowed : ∀ s a, a ∈ actions → Sys.Allowed host guard s a)
    (h : afterWith host config actions = some s) : Sys.Reachable host guard s := by
  simp only [afterWith, Option.bind_eq_bind, Option.bind_eq_some_iff] at h
  obtain ⟨contract, hnew, hexec⟩ := h
  have hinit : Sys.Initial ⟨contract, [], []⟩ := ⟨env "dao" 0 0, config, hnew, rfl, rfl⟩
  exact ⟨_, hinit, Transition.runs_of_execAll hallowed hexec⟩

theorem reachesWith {host : Host} {config : Config} {guard : Sys.Guard} {actions : List Action}
    {s : Sys} (hplain : actions.all Action.plain = true)
    (h : afterWith host config actions = some s) : Sys.Reachable host guard s :=
  reachesOf (fun _ a ha ↦ Sys.allowed_of_plain (List.all_eq_true.mp hplain a ha)) h

theorem reachesIn {host : Host} {guard : Sys.Guard} {actions : List Action} {s : Sys}
    (hplain : actions.all Action.plain = true) (h : afterIn host actions = some s) :
    Sys.Reachable host guard s := reachesWith hplain h

theorem reachesAlways {actions : List Action} {s : Sys} (h : after actions = some s) :
    Sys.Reachable (host false) Sys.always s := reachesOf (fun s a _ ↦ Sys.allowed_always s a) h

theorem reaches {guard : Sys.Guard} {actions : List Action} {s : Sys}
    (hplain : actions.all Action.plain = true) (h : after actions = some s) :
    Sys.Reachable (host false) guard s := reachesIn hplain h

end Sample

end SatoshiBridge

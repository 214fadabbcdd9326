import SatoshiBridge.Invariants.Whereabouts
import SatoshiBridge.Ledger.Simulation
import SatoshiBridge.Model.SampleRun
import SatoshiBridge.Origins.Creations
import SatoshiBridge.Origins.Runs

/-!
# Who commissions transactions

In every run, a transaction the bridge has created goes back to a call of the account that may ask
for it, and has passed the rules of its chain and the limits of the configuration of that moment.
The Zcash build creates its transactions in callbacks, in other receipts than the calls: what is
checked in a call is remembered in the promise, and what depends on the state is checked in the
callback.
-/

set_option autoImplicit false
set_option relaxedAutoImplicit false

namespace SatoshiBridge.Sys

open Transition (Once InOrder)

/-! ### What a run has seen -/

/-- A call of this kind, from an account for which the bridge is not paused: `env.paused` is what
the pausing plugin answers for the caller, and DAO accounts are exempt. -/
abbrev Accepted (method : Method) (caller : Contract → Env → Prop) : Transition.Event Sys Action :=
  Accepts fun c env m ↦ m = method ∧ env.paused = false ∧ caller c env

/-- A call of this kind was accepted. -/
def CallAccepted (steps : Steps) (method : Method) (caller : Contract → Env → Prop) : Prop :=
  Once (Accepted method caller) steps

/-- The transaction is created in a receipt that meets a condition, at a block height in the Zcash
build. -/
def Creation (host : Host) (info : BTCPendingInfo) (payee : Option String)
    (condition : Contract → Env → Option ℕ → Prop) : Transition.Event Sys Action :=
  fun before a after ↦ ∃ env height, Resumes a env height ∧ height.isSome = host.zcash ∧
    Enters (.created info payee) before after ∧ condition before.contract env height

/-- The transaction was created. -/
def Made (host : Host) (steps : Steps) (info : BTCPendingInfo) (payee : Option String)
    (condition : Contract → Env → Option ℕ → Prop) : Prop :=
  Once (Creation host info payee condition) steps

/-- The transaction was created for an accepted call: by the call itself, or in the Zcash build in a
later receipt. -/
def MadeFor (host : Host) (steps : Steps) (info : BTCPendingInfo) (payee : Option String)
    (method : Method) (caller : Contract → Env → Prop)
    (condition : Contract → Env → Option ℕ → Prop) : Prop :=
  if host.zcash = true then
    InOrder [Creation host info payee condition, Accepted method caller] steps
  else
    Once (fun before a after ↦ Creation host info payee condition before a after ∧
      Accepted method caller before a after) steps

/-- The outputs of a replacement are those of the call. The Zcash build takes none for those of the
original. -/
def Keeps (host : Host) (info : BTCPendingInfo) (output : List TxOut) : Prop :=
  info.psbt.vout = output ∨ host.zcash = true ∧ output = []

/-- Who asked for a transaction, by its kind: the token for a withdrawal, with the amount, the coins
and the outputs of the transfer; the owner for a replacement of his withdrawal; DAO and operator
accounts for active management and for cancellations of what is overdue, where only a DAO account
may spend more gas than the user has paid for; anybody for a refund whose timelock has passed. What
depends on the state is checked when the transaction is created. -/
inductive Commissioned (host : Host) (steps : Steps) (info : BTCPendingInfo) :
    Option String → Prop
  | withdrawal (state : OriginalState) (target : String) (maxGasFee : Option ℕ)
      (data : Option ChainSpecificData) (hkind : info.state = .withdrawOriginal state)
      (hgas : ∀ m ∈ maxGasFee, info.gasFee ≤ m)
      (hmade : MadeFor host steps info (some target)
        (.ftOnTransfer info.accountId info.transferAmount
          (.withdraw target info.inputs info.psbt.vout maxGasFee data))
        (fun c env ↦ env.predecessor = c.config.nbtcAccountId ∧
          c.config.minWithdrawAmount ≤ info.transferAmount ∧
          (env.publicWithdrawPaused = false ∨
            c.aclHasRole .trustedWithdrawSender info.accountId = true))
        fun c _ _ ↦ info.withdrawFee = c.config.withdrawBridgeFee.getFee info.transferAmount) :
      Commissioned host steps info (some target)
  | withdrawRbf (id : Txid) (target : String) (output : List TxOut)
      (data : Option ChainSpecificData) (hkind : info.state = .withdrawUserRbf ⟨.pendingSign, id⟩)
      (houtput : Keeps host info output)
      (hmade : MadeFor host steps info (some target) (.withdrawRbf id output data)
        (fun c env ↦ env.predecessor = info.accountId ∧
          c.requiredBalanceForWithdrawRbf host ≤ env.attachedDeposit)
        fun c _ _ ↦ ∃ o state, c.btcPendingInfos.lookup id = some o ∧
          o.accountId = info.accountId ∧ o.state = .withdrawOriginal state ∧
          state.cancelRbfReserved = none) :
      Commissioned host steps info (some target)
  | cancelWithdraw (id : Txid) (caller : AccountId) (output : List TxOut)
      (hkind : info.state = .withdrawCancelRbf ⟨.pendingSign, id⟩)
      (houtput : Keeps host info output)
      (hmade : MadeFor host steps info none (.cancelWithdraw id output)
        (fun c env ↦ env.predecessor = caller ∧ c.Privileged env)
        fun c env _ ↦ (∃ o, c.btcPendingInfos.lookup id = some o ∧ o.accountId = info.accountId ∧
            c.Overdue env o) ∧
          (info.transferAmount < info.withdrawFee + info.gasFee →
            c.aclHasRole .dao caller = true)) :
      Commissioned host steps info none
  | activeUtxoManagement (state : OriginalState)
      (hkind : info.state = .activeUtxoManagementOriginal state)
      (hmade : MadeFor host steps info none (.activeUtxoManagement info.inputs info.psbt.vout)
        (fun c env ↦ env.predecessor = info.accountId ∧ c.Privileged env)
        fun c _ _ ↦ info.gasFee ≤ c.curAvailableProtocolFee) :
      Commissioned host steps info none
  | activeUtxoManagementRbf (id : Txid) (output : List TxOut)
      (hkind : info.state = .activeUtxoManagementRbf ⟨.pendingSign, id⟩)
      (houtput : Keeps host info output)
      (hmade : MadeFor host steps info none (.activeUtxoManagementRbf id output)
        (fun c env ↦ env.predecessor = info.accountId ∧ c.Privileged env)
        fun c _ _ ↦ ∃ o state, c.btcPendingInfos.lookup id = some o ∧
          o.accountId = info.accountId ∧ o.state = .activeUtxoManagementOriginal state) :
      Commissioned host steps info none
  | cancelActiveUtxoManagement (id : Txid) (output : List TxOut)
      (hkind : info.state = .activeUtxoManagementCancelRbf ⟨.pendingSign, id⟩)
      (houtput : Keeps host info output)
      (hmade : MadeFor host steps info none (.cancelActiveUtxoManagement id output)
        (fun c env ↦ c.Privileged env)
        fun c env _ ↦ ∃ o, c.btcPendingInfos.lookup id = some o ∧ o.accountId = info.accountId ∧
          c.Overdue env o) :
      Commissioned host steps info none
  | refund (state : OriginalState) (call : ExecuteRefundCall) (request : RefundRequest)
      (data : Option ChainSpecificData) (hkind : info.state = .refund state)
      (hmade : MadeFor host steps info (some request.refundAddress)
        (.executeRefund call.utxoStorageKey data)
        (fun c env ↦ env.predecessor = info.accountId ∧
          c.resolveExecuteRefundTimelock host env call.utxoStorageKey = some call)
        fun c env _ ↦ c.refundRequests.lookup call.utxoStorageKey = some request ∧
          ∃ nowSec, env.nowSec = some nowSec ∧
            request.createdAtSec + call.timelockSec ≤ nowSec) :
      Commissioned host steps info (some request.refundAddress)

variable {host : Host} {guard : Guard} {s : Sys} {steps : Steps} {info : BTCPendingInfo}
  {payee : Option String}

/-- The receipt behind a transaction: what it went on with was asked for, by the same call in the
Bitcoin build and by an earlier one in the Zcash build. -/
theorem History.made (h : History host guard steps s)
    (hcreated : Mark.created info payee ∈ s.log) :
    ∃ p c env height receipt, Once (Asks host p) steps ∧ height.isSome = host.zcash ∧
      c.resume host env height p = some receipt ∧ Mark.created info payee ∈ receipt.marks ∧
      ∀ method caller condition, condition c env height →
        (∀ c env m, c.Requests host env m p → m = method ∧ env.paused = false ∧ caller c env) →
        MadeFor host steps info payee method caller condition := by
  obtain ⟨p, ⟨step, hmem, hcontinues⟩, hasked⟩ := h.created hcreated
  obtain ⟨env, height, receipt, hresumes, hbuild, hresume, hmark⟩ := hcontinues.resumed
  refine ⟨p, step.before.contract, env, height, receipt, hasked, hbuild, hresume, hmark,
    fun method caller condition hcondition hcall ↦ ?_⟩
  have hcreation : Creation host info payee condition step.before step.action step.after :=
    ⟨env, height, hresumes, hbuild, hcontinues.entered, hcondition⟩
  obtain ⟨earlier, hearlier, _, _, hsuffix⟩ := h.taken hmem
  rcases hcontinues.source with hwaiting | hasks
  · have hzcash := Reachable.awaits _ hearlier.reachable p hwaiting hcontinues.creates_promise
    have hbefore := History.asked (Promise.asked_of_creates hcontinues.creates_promise) earlier
      step.before hearlier hwaiting
    rw [MadeFor, if_pos hzcash]
    exact ⟨step, earlier, hsuffix, hcreation, .of_once (accepts_imp hbefore hcall)⟩
  · obtain ⟨callEnv, m, haction, hrequests⟩ := hasks
    rw [haction] at hresumes
    cases hresumes with
    | call =>
      have hbitcoin : ¬host.zcash = true := by
        rw [← hbuild]
        exact Bool.false_ne_true
      rw [MadeFor, if_neg hbitcoin]
      exact ⟨step, hmem, hcreation, _, m, haction, hcall _ _ _ hrequests⟩

/-! ### Samples -/

/-- The transactions a history has created. -/
def createdIn (log : List Mark) : List (BTCPendingInfo × Option String) :=
  log.filterMap fun
    | .created info payee => some (info, payee)
    | _ => none

/-- What is read off a list of created transactions is read off one of them. -/
theorem created_of_map {β : Type} {f : BTCPendingInfo × Option String → β} {log : List Mark}
    {b : β} (h : b ∈ (createdIn log).map f) :
    ∃ info payee, Mark.created info payee ∈ log ∧ f (info, payee) = b := by
  obtain ⟨x, hx, hf⟩ := List.mem_map.mp h
  obtain ⟨m, hm, hsome⟩ := List.mem_filterMap.mp hx
  cases m with
  | created info payee =>
    rw [Option.some.injEq] at hsome
    rw [← hsome] at hf
    exact ⟨info, payee, hm, hf⟩
  | _ => cases hsome

/-! ### Replacements -/

theorem keeps_of_outputs {height : Option ℕ} {output : List TxOut} {o : BTCPendingInfo}
    (hbuild : height.isSome = host.zcash)
    (h : info.psbt.vout = output ∧ InMoney height output ∨
      height.isSome = true ∧ output = [] ∧ info.psbt.vout = o.psbt.vout) :
    Keeps host info output := by
  rcases h with ⟨hsame, _⟩ | ⟨hzcash, hempty, _⟩
  · exact Or.inl hsame
  · exact Or.inr ⟨hbuild.symm.trans hzcash, hempty⟩

/-- Only users attach data to their replacements. -/
theorem data_of_asks {rbf : RbfMethod} {accountId predecessor : AccountId} {id : Txid}
    {output : List TxOut} {data : Option ChainSpecificData}
    (h : Once (Asks host (.rbf rbf accountId id output data predecessor)) steps) :
    rbf ≠ .withdrawRbf → data = none := by
  obtain ⟨_, _, env, method, _, hasks, _, _⟩ := h
  exact hasks.data

theorem commissioned_replacement {rbf : RbfMethod} {accountId predecessor : AccountId} {id : Txid}
    {output : List TxOut} {data : Option ChainSpecificData} {c : Contract} {env : Env}
    {height : Option ℕ} {o : BTCPendingInfo} (hbuild : height.isSome = host.zcash)
    (hmade : ∀ method caller condition, condition c env height →
      (∀ c env m, c.Requests host env m (.rbf rbf accountId id output data predecessor) →
        m = method ∧ env.paused = false ∧ caller c env) →
      MadeFor host steps info payee method caller condition)
    (hnew : c.NewReplacement host env height rbf accountId id output predecessor o info payee) :
    Commissioned host steps info payee := by
  have hkeeps := keeps_of_outputs hbuild hnew.outputs
  cases hnew.rules with
  | withdrawRbf state target hkind hstate hactive howner hlimits =>
    refine .withdrawRbf id target output data hstate hkeeps (hmade _ _ _
      ⟨o, state, hnew.original, hnew.owner.symm, hkind, hactive⟩ fun c env method hrequests ↦ ?_)
    obtain ⟨hasks, hpredecessor, hpaused⟩ := hrequests
    rw [hnew.owner, howner]
    cases hasks with
    | withdrawRbf _ _ _ hdeposit => exact ⟨rfl, hpaused, rfl, hdeposit⟩
  | cancelWithdraw state hkind hstate hage hexcess hlimits =>
    refine .cancelWithdraw id predecessor output hstate hkeeps (hmade _ _ _
      ⟨⟨o, hnew.original, hnew.owner.symm, hage⟩, hexcess⟩ fun c env method hrequests ↦ ?_)
    obtain ⟨hasks, hpredecessor, hpaused⟩ := hrequests
    cases hasks with
    | cancelWithdraw _ _ _ hrole _ => exact ⟨rfl, hpaused, hpredecessor.symm, hrole⟩
  | activeUtxoManagementRbf state hkind hstate howner hlimits =>
    refine .activeUtxoManagementRbf id output hstate hkeeps (hmade _ _ _
      ⟨o, state, hnew.original, hnew.owner.symm, hkind⟩ fun c env method hrequests ↦ ?_)
    obtain ⟨hasks, hpredecessor, hpaused⟩ := hrequests
    rw [hnew.owner, howner]
    cases hasks with
    | activeUtxoManagementRbf _ _ hrole => exact ⟨rfl, hpaused, rfl, hrole⟩
  | cancelActiveUtxoManagement state hkind hstate hage hlimits =>
    refine .cancelActiveUtxoManagement id output hstate hkeeps (hmade _ _ _
      ⟨o, hnew.original, hnew.owner.symm, hage⟩ fun c env method hrequests ↦ ?_)
    obtain ⟨hasks, hpredecessor, hpaused⟩ := hrequests
    cases hasks with
    | cancelActiveUtxoManagement _ _ _ hrole _ => exact ⟨rfl, hpaused, hrole⟩

/-! ### All transactions -/

/-- Every transaction that the bridge has created goes back to a call of the account that may ask
for it, by the same receipt in the Bitcoin build and by an earlier one in the Zcash build. -/
theorem History.commissioned (h : History host guard steps s)
    (hcreated : Mark.created info payee ∈ s.log) : Commissioned host steps info payee := by
  obtain ⟨p, c, env, height, receipt, hasked, hbuild, hresume, hmark, hmade⟩ := h.made hcreated
  cases p with
  | ftOnTransfer senderId amount target input output maxGasFee data =>
    have hnew := resume_withdrawal hbuild hresume hmark
    obtain ⟨state, hkind⟩ := hnew.kind
    rw [hnew.payee] at hmade ⊢
    have hfee : info.withdrawFee = c.config.withdrawBridgeFee.getFee info.transferAmount := by
      rw [hnew.transfer]
      exact hnew.fee
    refine .withdrawal state target maxGasFee data hkind hnew.maxGas
      (hmade _ _ _ hfee fun c env method hrequests ↦ ?_)
    obtain ⟨hmethod, hpredecessor, hamount, hpaused, hsender⟩ := hrequests
    rw [hnew.owner, hnew.transfer, hnew.inputs, hnew.outputs]
    exact ⟨hmethod, hpaused, hpredecessor, hamount, hsender⟩
  | activeUtxoManagement accountId input output =>
    have hnew := resume_management hbuild hresume hmark
    obtain ⟨state, hkind⟩ := hnew.kind
    rw [hnew.payee] at hmade ⊢
    refine .activeUtxoManagement state hkind
      (hmade _ _ _ hnew.available fun c env method hrequests ↦ ?_)
    obtain ⟨hmethod, haccount, hrole, hpaused⟩ := hrequests
    rw [hnew.owner, hnew.inputs, hnew.outputs]
    exact ⟨hmethod, hpaused, haccount.symm, hrole⟩
  | rbf method accountId id output data predecessor =>
    obtain ⟨o, hnew⟩ := resume_replacement hbuild (data_of_asks hasked) hresume hmark
    exact commissioned_replacement hbuild hmade hnew
  | executeRefund call data =>
    obtain ⟨request, hnew⟩ := resume_refund hbuild hresume hmark
    obtain ⟨state, hkind⟩ := hnew.kind
    rw [hnew.payee] at hmade ⊢
    refine .refund state call request data hkind
      (hmade _ _ _ ⟨hnew.stored, hnew.timelock⟩ fun c env method hrequests ↦ ?_)
    obtain ⟨hmethod, hcall, hpaused⟩ := hrequests
    refine ⟨hmethod, hpaused, ?_, hcall⟩
    rw [hnew.owner]
    exact resolveExecuteRefundTimelock_caller hcall
  | _ => cases hresume

/-- The cancellation of the withdrawal of Alice was asked for by the DAO. -/
theorem commissioned_cancellation :
    ∃ s steps info, Sample.after Sample.cancelledWithdrawal = some s ∧
      History (Sample.host false) always steps s ∧ Mark.created info none ∈ s.log ∧
      info.accountId = "alice" ∧ Commissioned (Sample.host false) steps info none := by
  have hrun : (Sample.after Sample.cancelledWithdrawal).map (fun s ↦
      (createdIn s.log).map fun x ↦ (x.1.accountId, x.1.getOriginalTxId, x.2)) =
      some [("alice", none, some Sample.bridge), ("alice", some 2, none)] := by decide +kernel
  obtain ⟨s, hs, hfacts⟩ := Option.map_eq_some_iff.mp hrun
  have hmem : ("alice", some 2, none) ∈ (createdIn s.log).map fun x ↦
      (x.1.accountId, x.1.getOriginalTxId, x.2) := by
    rw [hfacts]
    exact List.mem_cons_of_mem _ (List.mem_singleton_self _)
  obtain ⟨info, payee, hcreated, hinfo⟩ := created_of_map hmem
  rw [Prod.mk.injEq, Prod.mk.injEq] at hinfo
  obtain ⟨haccount, _, rfl⟩ := hinfo
  have hreach : Reachable (Sample.host false) always s := Sample.reaches (by decide) hs
  obtain ⟨steps, hsteps⟩ := Transition.Reachable.history s hreach
  exact ⟨s, steps, info, hs, hsteps, hcreated, haccount, History.commissioned hsteps hcreated⟩

/-! ### Rules -/

/-- The limits that a new transaction of a kind has passed. -/
def Limited (host : Host) (c : Contract) (env : Env) (info : BTCPendingInfo)
    (payee : Option String) : Prop :=
  match info.state with
  | .withdrawOriginal _ => ∃ target ∈ payee, ∃ address,
    host.parseAddress c.config.chain target = some address ∧ c.PaymentLimits env address info ∧
      c.CoinLimits (info.psbt.beside address).length info.inputs.length
  | .withdrawUserRbf _ => ∃ target ∈ payee, ∃ address,
    host.parseAddress c.config.chain target = some address ∧ c.PaymentLimits env address info
  | .withdrawCancelRbf _ => c.ChangeLimits false true info
  | .activeUtxoManagementOriginal _ => c.ChangeLimits true false info ∧
    info.gasFee ≤ c.curAvailableProtocolFee ∧
    (isMergeUnhealthyUtxos info.psbt.vout.length info.vutxos c.config.unhealthyUtxoAmount = false →
      info.inputs.length ≤ c.config.maxActiveUtxoManagementInputNumber ∧
        info.psbt.vout.length ≤ c.config.maxActiveUtxoManagementOutputNumber)
  | .activeUtxoManagementRbf _ => c.ChangeLimits true false info
  | .activeUtxoManagementCancelRbf _ => c.ChangeLimits true true info
  | .refund _ => c.config.minChangeAmount ≤ info.actualReceivedAmount

/-- What a step that creates a transaction has checked, for every request that leads to it. -/
theorem Continues.checked {p : Promise} {before after : Sys} {a : Action}
    (h : Continues host p info payee before a after) (hasked : Once (Asks host p) steps) :
    ∃ env height, Resumes a env height ∧ height.isSome = host.zcash ∧
      ChainRules host before.contract.config height info ∧
      Limited host before.contract env info payee ∧
      (InMoney height info.psbt.vout ∨ ∃ id o, before.contract.btcPendingInfos.lookup id = some o ∧
        info.psbt.vout = o.psbt.vout) := by
  obtain ⟨env, height, receipt, hresumes, hbuild, hresume, hmark⟩ := h.resumed
  refine ⟨env, height, hresumes, hbuild, ?_⟩
  cases p with
  | ftOnTransfer senderId amount target input output maxGasFee data =>
    have hnew := resume_withdrawal hbuild hresume hmark
    obtain ⟨state, hkind⟩ := hnew.kind
    refine ⟨hnew.chain, ?_, Or.inl hnew.values⟩
    rw [Limited, hkind, hnew.payee]
    exact ⟨target, rfl, hnew.limits⟩
  | activeUtxoManagement accountId input output =>
    have hnew := resume_management hbuild hresume hmark
    obtain ⟨state, hkind⟩ := hnew.kind
    refine ⟨hnew.chain, ?_, Or.inl hnew.values⟩
    rw [Limited, hkind, hnew.inputs, hnew.outputs]
    exact ⟨hnew.limits, hnew.available, hnew.numbers⟩
  | rbf method accountId id output data predecessor =>
    obtain ⟨o, hnew⟩ := resume_replacement hbuild (data_of_asks hasked) hresume hmark
    refine ⟨hnew.chain, ?_, ?_⟩
    · rw [Limited]
      cases hnew.rules with
      | withdrawRbf state target hkind hstate hactive howner hlimits =>
        rw [hstate]
        exact ⟨target, rfl, hlimits⟩
      | cancelWithdraw state hkind hstate hage hexcess hlimits =>
        rw [hstate]
        exact hlimits
      | activeUtxoManagementRbf state hkind hstate howner hlimits =>
        rw [hstate]
        exact hlimits
      | cancelActiveUtxoManagement state hkind hstate hage hlimits =>
        rw [hstate]
        exact hlimits
    · rcases hnew.outputs with ⟨houtput, hvalues⟩ | ⟨_, _, hkept⟩
      · rw [houtput]
        exact Or.inl hvalues
      · exact Or.inr ⟨id, o, hnew.original, hkept⟩
  | executeRefund call data =>
    obtain ⟨request, hnew⟩ := resume_refund hbuild hresume hmark
    obtain ⟨state, hkind⟩ := hnew.kind
    refine ⟨hnew.chain, ?_, Or.inl hnew.values⟩
    rw [Limited, hkind]
    exact hnew.floor
  | _ => cases hresume

/-- Every transaction that the bridge has created was within the limits of the configuration of its
receipt. -/
theorem History.limited (h : History host guard steps s)
    (hcreated : Mark.created info payee ∈ s.log) :
    Made host steps info payee fun c env _ ↦ Limited host c env info payee := by
  obtain ⟨p, ⟨step, hmem, hcontinues⟩, hasked⟩ := h.created hcreated
  obtain ⟨env, height, hresumes, hbuild, _, hlimited, _⟩ := hcontinues.checked hasked
  exact ⟨step, hmem, env, height, hresumes, hbuild, hcontinues.entered, hlimited⟩

/-- The withdrawal of Alice is within the limits. -/
theorem limited_withdrawal :
    ∃ s steps info, Sample.after Sample.signedWithdrawal = some s ∧
      History (Sample.host false) always steps s ∧
      Mark.created info (some Sample.bridge) ∈ s.log ∧
      Made (Sample.host false) steps info (some Sample.bridge) fun c env _ ↦
        Limited (Sample.host false) c env info (some Sample.bridge) := by
  have hrun : (Sample.after Sample.signedWithdrawal).map (fun s ↦
      (createdIn s.log).map Prod.snd) = some [some Sample.bridge] := by decide +kernel
  obtain ⟨s, hs, hfacts⟩ := Option.map_eq_some_iff.mp hrun
  have hmem : some Sample.bridge ∈ (createdIn s.log).map Prod.snd := by
    rw [hfacts]
    exact List.mem_singleton_self _
  obtain ⟨info, payee, hcreated, rfl⟩ := created_of_map hmem
  have hreach : Reachable (Sample.host false) always s := Sample.reaches (by decide) hs
  obtain ⟨steps, hsteps⟩ := Transition.Reachable.history s hreach
  exact ⟨s, steps, info, hs, hsteps, hcreated, History.limited hsteps hcreated⟩

/-! ### Amounts of Zcash transactions -/

/-- No Zcash transaction pays more than the total supply: what keeps the outputs of a pending
transaction keeps those of an earlier one of the history. -/
theorem History.inMoney (laws : host.ReadsAddresses) (hzcash : host.zcash = true)
    (h : History host guard steps s) : ∀ info payee, Mark.created info payee ∈ s.log →
      ∀ o ∈ info.psbt.vout, o.value ≤ maxMoney := by
  induction h with
  | start hs =>
    obtain ⟨_, _, _, _, hlog⟩ := hs
    intro info payee hmem
    rw [hlog] at hmem
    exact absurd hmem List.not_mem_nil
  | next h ha he ih =>
    intro info payee hmem
    have hreach := h.reachable
    rcases exec_continues (Reachable.awaits _ hreach) he hmem with hold | ⟨p, hcontinues⟩
    · exact ih info payee hold
    · have hasked := History.requested h hcontinues
      obtain ⟨env, height, _, hbuild, _, _, hvalues | ⟨id, o, ho, hkept⟩⟩ :=
        hcontinues.checked hasked
      · exact hvalues (hbuild.trans hzcash)
      · have hreached := Reachable.anytime laws hreach
        obtain ⟨first, firstPayee, hfirst, hcarries⟩ := hreached.descended id o ho
        rw [hkept, hcarries.vout]
        exact ih first firstPayee hfirst

/-- Every transaction that the bridge has created met the rules of its chain in its receipt, and no
output of a Zcash transaction exceeds the total supply, kept outputs included. -/
theorem History.built (laws : host.ReadsAddresses) (h : History host guard steps s)
    (hcreated : Mark.created info payee ∈ s.log) :
    (Made host steps info payee fun c _ height ↦ ChainRules host c.config height info) ∧
      (host.zcash = true → ∀ o ∈ info.psbt.vout, o.value ≤ maxMoney) := by
  refine ⟨?_, fun hzcash ↦ h.inMoney laws hzcash info payee hcreated⟩
  obtain ⟨p, ⟨step, hmem, hcontinues⟩, hasked⟩ := h.created hcreated
  obtain ⟨env, height, hresumes, hbuild, hrules, _⟩ := hcontinues.checked hasked
  exact ⟨step, hmem, env, height, hresumes, hbuild, hcontinues.entered, hrules⟩

/-- A withdrawal of Alice in the Zcash build, where every deposit is safe and the block height is
asked for. -/
def zcashWithdrawal : List Action :=
  Sample.sync ++
    [.call (Sample.env "relayer" 1 requiredBalanceForDeposit)
      (.verifyDepositV2 Sample.aliceMsg (.full [0]) 0 1),
    .callback 0 (Sample.env Sample.bridge 1 0) Sample.included,
    .callback 0 (Sample.env Sample.bridge 1 0) (.value (.u128 1000)),
    .call (Sample.env "nbtc" 1 0) (.ftOnTransfer "alice" 1000
      (.withdraw Sample.bridge [⟨0, 0⟩] [⟨990, Numbering.word 0⟩] none none)),
    .callback 0 (Sample.env Sample.bridge 1 0) (.value (.height 3000000))]

/-- It expires after the gap, in the branch that was active then. -/
theorem built_zcash :
    ∃ s steps info payee, Sample.afterWith (Sample.host true)
        { Sample.config with chain := .zcashMainnet } zcashWithdrawal = some s ∧
      History (Sample.host true) always steps s ∧ Mark.created info payee ∈ s.log ∧
      info.psbt.expiryHeight = 3000010 ∧ info.psbt.branchId = some .nu6 ∧
      (Made (Sample.host true) steps info payee fun c _ height ↦
        ChainRules (Sample.host true) c.config height info) ∧
      ∀ o ∈ info.psbt.vout, o.value ≤ maxMoney := by
  have hrun : (Sample.afterWith (Sample.host true)
      { Sample.config with chain := .zcashMainnet } zcashWithdrawal).map (fun s ↦
        (createdIn s.log).map fun x ↦ (x.1.psbt.expiryHeight, x.1.psbt.branchId)) =
      some [(3000010, some .nu6)] := by decide +kernel
  obtain ⟨s, hs, hfacts⟩ := Option.map_eq_some_iff.mp hrun
  have hmem : (3000010, some BranchId.nu6) ∈ (createdIn s.log).map fun x ↦
      (x.1.psbt.expiryHeight, x.1.psbt.branchId) := by
    rw [hfacts]
    exact List.mem_singleton_self _
  obtain ⟨info, payee, hcreated, hinfo⟩ := created_of_map hmem
  rw [Prod.mk.injEq] at hinfo
  have hreach : Reachable (Sample.host true) always s := Sample.reachesWith (by decide) hs
  obtain ⟨steps, hsteps⟩ := Transition.Reachable.history s hreach
  obtain ⟨hmade, hvalues⟩ :=
    History.built (Sample.host_lawful true).toReadsAddresses hsteps hcreated
  exact ⟨s, steps, info, payee, hs, hsteps, hcreated, hinfo.1, hinfo.2, hmade, hvalues rfl⟩

end SatoshiBridge.Sys

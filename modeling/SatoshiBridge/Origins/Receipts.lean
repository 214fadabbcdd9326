import SatoshiBridge.Desk.Quiet
import SatoshiBridge.Origins.Requests

/-!
# What receipts bring and what they leave

One specification for each method and each callback. A call leaves the promises it asks for, and the
transactions it creates are those that follow such a request. A callback asks for nothing; it
creates a transaction only when it continues a request. Few receipts change the window, and those
that only ask, mint or pay leave the desk as well.
-/

set_option autoImplicit false
set_option relaxedAutoImplicit false

namespace SatoshiBridge

variable {host : Host} {env : Env} {c c' : Contract} {receipt : Receipt}

/-! ### Receipts of one kind -/

theorem Receipt.Plain.silent {returns : Option ReturnValue} :
    Receipt.Plain { contract := c, promises := [], marks := [], returns := returns } where
  promises := fun _ hp ↦ absurd hp List.not_mem_nil
  marks := fun _ _ hm ↦ absurd hm List.not_mem_nil

/-! ### What creates transactions asks for nothing -/

/-- A receipt that leaves the window and no promise. -/
structure Receipt.Creates (c : Contract) (receipt : Receipt) : Prop where
  window : receipt.contract.window = c.window
  promises : receipt.promises = []

/-- Creating a withdrawal takes the coins and lists the new transaction. -/
theorem createBtcPendingInfo_creates {senderId : AccountId} {amount : ℕ} {target : String}
    {psbt : PsbtWrapper} {maxGasFee : Option ℕ}
    (h : c.createBtcPendingInfo host env senderId amount target psbt maxGasFee = some receipt) :
    receipt.Creates c := by
  obtain ⟨c₁, _, _, _, _, _, _, _, _, _, _, _, _, hvutxos, rfl, _, _, _, _, _, _, _, _, _, _,
    hinsert, hsign⟩ := createBtcPendingInfo_inv h
  have hcreated := (window_createAccount c₁ senderId).trans (window_generateVutxos hvutxos)
  exact ⟨window_list hcreated hinsert hsign, rfl⟩

/-- Creating active management reserves protocol fees besides. -/
theorem createActiveUtxoManagementPendingInfo_creates {accountId : AccountId} {psbt : PsbtWrapper}
    (h : c.createActiveUtxoManagementPendingInfo host env accountId psbt = some receipt) :
    receipt.Creates c := by
  obtain ⟨c₁, _, _, _, _, _, _, _, _, _, _, hvutxos, _, _, _, _, _, hinsert, hsign⟩ :=
    createActiveUtxoManagementPendingInfo_inv h
  have htaken : c₁.window = c.window := window_generateVutxos hvutxos
  refine ⟨window_list ?_ hinsert hsign, rfl⟩
  exact htaken

/-- A replacement is stored, then listed for its owner. -/
theorem finishRbf_creates {method : RbfMethod} {accountId predecessor : AccountId} {id : Txid}
    {psbt : PsbtWrapper}
    (h : c.finishRbf host env method accountId id psbt predecessor = some receipt) :
    receipt.Creates c := by
  simp only [Contract.finishRbf, Option.bind_eq_bind, Option.bind_eq_some_iff, Option.some.injEq,
    Prod.exists] at h
  obtain ⟨c₁, info, payee, hrbf, c₂, hsign, rfl⟩ := h
  exact ⟨(window_mutAccount hsign).trans (internalRbf_window hrbf), rfl⟩

/-- Creating a refund marks its request as executed. -/
theorem finalizeRefundWithPsbt_creates {call : ExecuteRefundCall} {request : RefundRequest}
    {psbt : PsbtWrapper} {refundAmount : ℕ}
    (h : c.finalizeRefundWithPsbt host env call request psbt refundAmount = some receipt) :
    receipt.Creates c := by
  obtain ⟨_, _, c₃, _, _, _, _, _, rfl, _, _, hinsert, hsign⟩ := finalizeRefundWithPsbt_inv h
  have hlisted : c₃.window = c.window :=
    window_list (window_createAccount c call.caller) hinsert hsign
  exact ⟨hlisted, rfl⟩

/-- Whatever a request becomes, in a call or in a callback. -/
theorem resume_creates {height : Option ℕ} {p : Promise}
    (h : c.resume host env height p = some receipt) : receipt.Creates c := by
  cases p with
  | ftOnTransfer =>
    simp only [Contract.resume, Option.bind_eq_bind, Option.bind_eq_some_iff] at h
    obtain ⟨_, _, h⟩ := h
    exact createBtcPendingInfo_creates h
  | activeUtxoManagement =>
    simp only [Contract.resume, Option.bind_eq_bind, Option.bind_eq_some_iff] at h
    obtain ⟨_, _, h⟩ := h
    exact createActiveUtxoManagementPendingInfo_creates h
  | rbf =>
    simp only [Contract.resume, Option.bind_eq_bind, Option.bind_eq_some_iff] at h
    obtain ⟨_, _, _, _, h⟩ := h
    exact finishRbf_creates h
  | executeRefund =>
    simp only [Contract.resume, Option.bind_eq_bind, Option.bind_eq_some_iff] at h
    obtain ⟨_, _, _, _, _, _, h⟩ := h
    exact finalizeRefundWithPsbt_creates h
  | _ => cases h

/-! ### Calls -/

/-- What a call leaves is what it asks for; what it creates follows from a request at once. -/
structure Receipt.Follows (host : Host) (env : Env) (c : Contract) (method : Method)
    (receipt : Receipt) : Prop where
  promises : ∀ p ∈ receipt.promises, p.asked = true → c.Requests host env method p
  awaits : ∀ p ∈ receipt.promises, p.creates = true → host.zcash = true
  marks : ∀ info payee, Mark.created info payee ∈ receipt.marks → ∃ p,
    host.zcash = false ∧ c.Requests host env method p ∧ c.resume host env none p = some receipt

namespace Receipt.Follows

variable {method : Method}

theorem plain (h : receipt.Plain) : receipt.Follows host env c method where
  promises := by
    intro p hp hasked
    rw [h.promises p hp] at hasked
    cases hasked
  awaits := by
    intro p hp hcreates
    have hasked := Promise.asked_of_creates hcreates
    rw [h.promises p hp] at hasked
    cases hasked
  marks := fun info payee hm ↦ absurd hm (h.marks info payee)

theorem asking {p : Promise} {returns : Option ReturnValue} (h : c.Requests host env method p)
    (hawaits : p.creates = false ∨ host.zcash = true) :
    Receipt.Follows host env c method
      { contract := c', promises := [p], marks := [], returns := returns } where
  promises := by
    intro q hq _
    rw [List.mem_singleton.mp hq]
    exact h
  awaits := by
    intro q hq hcreates
    rw [List.mem_singleton.mp hq] at hcreates
    rcases hawaits with hplain | hzcash
    · rw [hplain] at hcreates
      cases hcreates
    · exact hzcash
  marks := fun _ _ hm ↦ absurd hm List.not_mem_nil

theorem resumed {p : Promise} (hbuild : host.zcash = false) (h : c.Requests host env method p)
    (hresume : c.resume host env none p = some receipt) : receipt.Follows host env c method where
  promises := by
    intro q hq
    rw [(resume_creates hresume).promises] at hq
    exact absurd hq List.not_mem_nil
  awaits := by
    intro q hq
    rw [(resume_creates hresume).promises] at hq
    exact absurd hq List.not_mem_nil
  marks := fun _ _ _ ↦ ⟨p, hbuild, h, hresume⟩

end Receipt.Follows

theorem paused_of_assertNotPaused {u : Unit} (h : env.assertNotPaused = some u) :
    env.paused = false := by
  simpa [Env.assertNotPaused] using h

theorem trusted_of_assertTrustedRelayer {u : Unit} (h : env.assertTrustedRelayer = some u) :
    env.trustedRelayer = true := by
  simpa [Env.assertTrustedRelayer] using h

theorem privileged_of_assertDaoOrOperator {u : Unit} (h : c.assertDaoOrOperator env = some u) :
    c.Privileged env := by
  simpa [Contract.assertDaoOrOperator, Contract.Privileged] using h

/-- A relayer asks for the inclusion of a funding transaction, in the standard flow with the fees
and the post actions that were checked. -/
theorem verifyDepositV2_receipt {msg : DepositMsg} {txBytes : DepositTxProof} {vout txIndex : ℕ}
    (h : c.verifyDepositV2 host env msg txBytes vout txIndex = some receipt) :
    receipt.Follows host env c (.verifyDepositV2 msg txBytes vout txIndex) ∧
      Still c receipt.contract := by
  simp only [Contract.verifyDepositV2, Option.bind_eq_bind, Option.bind_eq_some_iff] at h
  obtain ⟨_, htrusted, _, hpaused, _, _, summary, hsummary, h⟩ := h
  have hrelayer := trusted_of_assertTrustedRelayer htrusted
  have hunpaused := paused_of_assertNotPaused hpaused
  split at h
  · rename_i hsafe
    simp only [Contract.internalSafeVerifyDepositEntry, Contract.internalSafeVerifyDeposit,
      chargeAttachedDeposit, Option.bind_eq_bind, Option.bind_eq_some_iff, require_eq_some,
      Option.some.injEq, exists_and_left, exists_const] at h
    obtain ⟨_, hdeposit, info, hinfo, hamount, rfl⟩ := h
    exact ⟨.asking ⟨msg, ⟨⟨txBytes, vout, txIndex, summary, rfl, hsummary, hinfo⟩, hrelayer,
      hunpaused, hamount, (if_pos (Or.inl hsafe)).symm⟩, rfl, hsafe, rfl, rfl, hdeposit⟩
      (Or.inl rfl), .of_eq rfl rfl⟩
  · rename_i hsafe
    simp only [Contract.internalVerifyDepositEntry, Contract.internalVerifyDeposit,
      Option.bind_eq_bind, Option.bind_eq_some_iff, require_eq_some, checkedSub_eq_some,
      Option.some.injEq, exists_and_left, exists_const, Prod.exists] at h
    obtain ⟨_, _, info, hinfo, hamount, mintAmount, hmint, protocolFee, relayerFee, hfees,
      postActions, hactions, rfl⟩ := h
    have hstandard := Bool.eq_false_of_not_eq_true hsafe
    refine ⟨.asking ⟨msg, ⟨⟨txBytes, vout, txIndex, summary, rfl, hsummary, hinfo⟩, hrelayer,
      hunpaused, hamount, ?_⟩, rfl, hstandard, hactions, hmint,
      BridgeFee.getProtocolAndRelayerFee_spec hfees⟩ (Or.inl rfl), .of_eq rfl rfl⟩
    unfold Contract.depositDelta
    rw [hstandard]
    cases msg.extraMsg with
    | none => rfl
    | some text => rfl

/-- A relayer asks for the inclusion of a pending transaction, whatever its kind. -/
theorem verifyWithdrawV2_receipt (host : Host) {txId : Txid}
    (h : c.verifyWithdrawV2 env txId = some receipt) :
    receipt.Follows host env c (.verifyWithdrawV2 txId) ∧
      Still c receipt.contract := by
  simp only [Contract.verifyWithdrawV2, Option.bind_eq_bind, Option.bind_eq_some_iff] at h
  obtain ⟨_, htrusted, _, hpaused, info, _, h⟩ := h
  have hrelayer := trusted_of_assertTrustedRelayer htrusted
  have hunpaused := paused_of_assertNotPaused hpaused
  split at h
  · simp only [Contract.internalVerifyWithdrawEntry, Option.bind_eq_bind, Option.bind_eq_some_iff,
      Option.some.injEq] at h
    obtain ⟨_, _, _, _, _, _, _, _, rfl⟩ := h
    exact ⟨.asking ⟨rfl, hrelayer, hunpaused⟩ (Or.inl rfl), .of_eq rfl rfl⟩
  · split at h
    · simp only [Contract.internalVerifyActiveUtxoManagementEntry, Option.bind_eq_bind,
        Option.bind_eq_some_iff, Option.some.injEq] at h
      obtain ⟨_, _, _, _, _, _, _, _, rfl⟩ := h
      exact ⟨.asking ⟨rfl, hrelayer, hunpaused⟩ (Or.inl rfl), .of_eq rfl rfl⟩
    · simp only [Contract.internalVerifyRefundFinalizeEntry, Option.bind_eq_bind,
        Option.bind_eq_some_iff, Option.some.injEq] at h
      obtain ⟨_, _, _, _, _, _, _, _, rfl⟩ := h
      exact ⟨.asking ⟨rfl, hrelayer, hunpaused⟩ (Or.inl rfl), .of_eq rfl rfl⟩

/-- The inclusion of a deposit is asked for before its refund is requested. -/
theorem requestRefund_receipt {msg : DepositMsg} {refundAddress : String} {txBytes : DepositTxProof}
    {vout : ℕ} {gasFee : Option ℕ}
    (h : c.requestRefund host env msg refundAddress txBytes vout gasFee = some receipt) :
    receipt.Follows host env c (.requestRefund msg refundAddress txBytes vout gasFee) ∧
      Still c receipt.contract := by
  simp only [Contract.requestRefund, Contract.internalRequestRefund, Option.bind_eq_bind,
    Option.bind_eq_some_iff, require_eq_some, exists_const] at h
  obtain ⟨_, hpaused, hrole, _, h⟩ := h
  have hunpaused := paused_of_assertNotPaused hpaused
  cases txBytes <;>
  · simp only [Option.bind_eq_some_iff, Option.some.injEq] at h
    obtain ⟨_, _, _, _, _, _, summary, hsummary, output, houtput, rfl⟩ := h
    exact ⟨.asking ⟨_, summary, rfl, hsummary, rfl, houtput, hunpaused, hrole⟩ (Or.inl rfl),
      .of_eq rfl rfl⟩

/-- One signature is asked for; a replacement whose original is gone is dropped instead. -/
theorem signBtcTransaction_receipt {id : Txid} {signIndex keyVersion : ℕ}
    (h : c.signBtcTransaction host env id signIndex keyVersion = some receipt) :
    receipt.Follows host env c (.signBtcTransaction id signIndex keyVersion) ∧
      receipt.contract.window = c.window := by
  simp only [Contract.signBtcTransaction, Contract.internalUnwrapBtcPendingInfo,
    Option.bind_eq_bind, Option.bind_eq_some_iff, require_eq_some, exists_const] at h
  obtain ⟨_, hpaused, info, hinfo, hrole, _, _, h⟩ := h
  split at h
  · simp only [Option.bind_eq_some_iff, Option.some.injEq, Prod.exists] at h
    obtain ⟨_, _, _, _, c₁, hmut, c₂, _, hremove, rfl⟩ := h
    exact ⟨.plain .silent, (window_removeBtcPendingInfo hremove).trans (window_mutAccount hmut)⟩
  · rename_i horiginal
    simp only [Contract.internalSignBtcTransaction, Contract.internalUnwrapBtcPendingInfo,
      Option.bind_eq_bind, Option.bind_eq_some_iff, require_eq_some, Option.some.injEq,
      exists_and_left, exists_const] at h
    obtain ⟨info', hinfo', signature, hsignature, hnone, payload, hpayload, vutxo, hvutxo, rfl⟩ := h
    rw [hinfo, Option.some.injEq] at hinfo'
    subst hinfo' hnone
    have hroots : ∀ root ∈ info.getOriginalTxId, c.checkBtcPendingInfoExists root = true := by
      intro root hroot
      by_contra hgone
      exact horiginal ⟨root, hroot, hgone⟩
    exact ⟨.asking ⟨info, vutxo, rfl, hinfo, rfl, hsignature, hpayload, hvutxo, rfl, hroots, hrole,
      paused_of_assertNotPaused hpaused⟩ (Or.inl rfl), rfl⟩

/-- The DAO asks the signer for its root key. -/
theorem syncChainSignaturesRootPublicKey_receipt (host : Host)
    (h : c.syncChainSignaturesRootPublicKey env = some receipt) :
    receipt.Follows host env c .syncChainSignaturesRootPublicKey ∧
      Still c receipt.contract := by
  simp only [Contract.syncChainSignaturesRootPublicKey, Option.bind_eq_bind,
    Option.bind_eq_some_iff, require_eq_some, Option.some.injEq, exists_and_left,
    exists_const] at h
  obtain ⟨hdao, _, _, _, rfl⟩ := h
  exact ⟨.asking ⟨rfl, hdao⟩ (Or.inl rfl), .of_eq rfl rfl⟩

/-- The DAO has the token pay out protocol fees, which are taken from what is available at once. -/
theorem withdrawProtocolFee_receipt (host : Host) {wanted : Option ℕ}
    (h : c.withdrawProtocolFee env wanted = some receipt) :
    receipt.Follows host env c (.withdrawProtocolFee wanted) ∧
      Still c receipt.contract := by
  simp only [Contract.withdrawProtocolFee, Option.bind_eq_bind, Option.bind_eq_some_iff,
    require_eq_some, Option.some.injEq, exists_and_left, exists_const] at h
  obtain ⟨hdao, _, _, hamount, rfl⟩ := h
  exact ⟨.asking ⟨⟨wanted, rfl⟩, rfl, rfl, hdao, hamount.1, hamount.2⟩ (Or.inl rfl),
    .of_eq rfl rfl⟩

/-! ### Calls that create transactions -/

/-- The token hands over a transfer: a donation is collected, and a withdrawal is created or asked
for. -/
theorem ftOnTransfer_receipt {senderId : AccountId} {amount : ℕ} {msg : TokenReceiverMessage}
    (h : c.ftOnTransfer host env senderId amount msg = some receipt) :
    receipt.Follows host env c (.ftOnTransfer senderId amount msg) ∧
      receipt.contract.window = c.window := by
  obtain ⟨hpaused, hamount, hpredecessor, haccepted⟩ := ftOnTransfer_inv h
  have hnotPaused := paused_of_assertNotPaused hpaused
  cases haccepted with
  | collected => exact ⟨.plain .silent, rfl⟩
  | asked target input output maxGasFee data hzcash hsender =>
    exact ⟨.asking (p := .ftOnTransfer senderId amount target input output maxGasFee data)
      ⟨rfl, hpredecessor, hamount, hnotPaused, hsender⟩ (Or.inr hzcash), rfl⟩
  | created target input output maxGasFee data psbt _ hbitcoin hsender hpsbt hcreate =>
    have hrequests : c.Requests host env
        (.ftOnTransfer senderId amount (.withdraw target input output maxGasFee data))
        (.ftOnTransfer senderId amount target input output maxGasFee data) :=
      ⟨rfl, hpredecessor, hamount, hnotPaused, hsender⟩
    have hresume : c.resume host env none
        (.ftOnTransfer senderId amount target input output maxGasFee data) = some receipt :=
      Option.bind_eq_some_iff.mpr ⟨psbt, hpsbt, hcreate⟩
    exact ⟨.resumed hbitcoin hrequests hresume, (resume_creates hresume).window⟩

/-- Active management is created, or asked for in the Zcash build. -/
theorem activeUtxoManagement_receipt {input : List OutPoint} {output : List TxOut}
    (h : c.activeUtxoManagement host env input output = some receipt) :
    receipt.Follows host env c (.activeUtxoManagement input output) ∧
      receipt.contract.window = c.window := by
  simp only [Contract.activeUtxoManagement, Option.bind_eq_bind, Option.bind_eq_some_iff,
    require_eq_some, exists_const] at h
  obtain ⟨hrole, _, hpaused, _, _, h⟩ := h
  have hrequests : c.Requests host env (.activeUtxoManagement input output)
      (.activeUtxoManagement env.predecessor input output) :=
    ⟨rfl, rfl, hrole, paused_of_assertNotPaused hpaused⟩
  split at h
  · rename_i hzcash
    rw [Option.some.injEq] at h
    rw [← h]
    exact ⟨.asking hrequests (Or.inr hzcash), rfl⟩
  · rename_i hzcash
    have hresume : c.resume host env none
        (.activeUtxoManagement env.predecessor input output) = some receipt := h
    exact ⟨.resumed (Bool.eq_false_of_not_eq_true hzcash) hrequests hresume,
      (resume_creates hresume).window⟩

/-- The RBF methods, once their callers are checked. -/
theorem rbfChainSpecific_receipt {method : Method} {rbf : RbfMethod} {accountId : AccountId}
    {id : Txid} {output : List TxOut} {data : Option ChainSpecificData}
    (hasks : c.AsksRbf host env method rbf accountId id output data)
    (hpaused : env.paused = false) {u : Unit}
    (hcapacity : c.requirePendingSignCapacity accountId = some u)
    (h : c.rbfChainSpecific host env rbf accountId id output data = some receipt) :
    receipt.Follows host env c method ∧
      receipt.contract.window = c.window := by
  have hrequests : c.Requests host env method
      (.rbf rbf accountId id output data env.predecessor) := ⟨hasks, rfl, hpaused⟩
  unfold Contract.rbfChainSpecific at h
  split at h
  · rename_i hzcash
    rw [Option.some.injEq] at h
    rw [← h]
    exact ⟨.asking hrequests (Or.inr hzcash), rfl⟩
  · rename_i hzcash
    have hresume : c.resume host env none (.rbf rbf accountId id output data env.predecessor) =
        some receipt := by
      simp only [Option.bind_eq_bind, Option.bind_eq_some_iff] at h
      obtain ⟨original, horiginal, h⟩ := h
      simp only [Contract.resume, Contract.rbfPsbt, hcapacity, horiginal, Option.bind_eq_bind,
        Option.bind_some]
      exact h
    exact ⟨.resumed (Bool.eq_false_of_not_eq_true hzcash) hrequests hresume,
      (resume_creates hresume).window⟩

theorem withdrawRbf_receipt {id : Txid} {output : List TxOut} {data : Option ChainSpecificData}
    (h : c.withdrawRbf host env id output data = some receipt) :
    receipt.Follows host env c (.withdrawRbf id output data) ∧
      receipt.contract.window = c.window := by
  simp only [Contract.withdrawRbf, chargeAttachedDeposit, Option.bind_eq_bind,
    Option.bind_eq_some_iff, require_eq_some, exists_const] at h
  obtain ⟨_, hpaused, _, hcapacity, hdeposit, h⟩ := h
  exact rbfChainSpecific_receipt (.withdrawRbf id output data hdeposit)
    (paused_of_assertNotPaused hpaused) hcapacity h

theorem cancelWithdraw_receipt {id : Txid} {output : List TxOut}
    (h : c.cancelWithdraw host env id output = some receipt) :
    receipt.Follows host env c (.cancelWithdraw id output) ∧
      receipt.contract.window = c.window := by
  simp only [Contract.cancelWithdraw, Contract.internalUnwrapBtcPendingInfo, Option.bind_eq_bind,
    Option.bind_eq_some_iff] at h
  obtain ⟨_, hrole, _, hpaused, _, _, o, ho, _, hcapacity, h⟩ := h
  exact rbfChainSpecific_receipt
    (.cancelWithdraw id output o (privileged_of_assertDaoOrOperator hrole) ho)
    (paused_of_assertNotPaused hpaused) hcapacity h

theorem activeUtxoManagementRbf_receipt {id : Txid} {output : List TxOut}
    (h : c.activeUtxoManagementRbf host env id output = some receipt) :
    receipt.Follows host env c (.activeUtxoManagementRbf id output) ∧
      receipt.contract.window = c.window := by
  simp only [Contract.activeUtxoManagementRbf, Option.bind_eq_bind, Option.bind_eq_some_iff] at h
  obtain ⟨_, hrole, _, hpaused, _, _, _, hcapacity, h⟩ := h
  exact rbfChainSpecific_receipt
    (.activeUtxoManagementRbf id output (privileged_of_assertDaoOrOperator hrole))
    (paused_of_assertNotPaused hpaused) hcapacity h

theorem cancelActiveUtxoManagement_receipt {id : Txid} {output : List TxOut}
    (h : c.cancelActiveUtxoManagement host env id output = some receipt) :
    receipt.Follows host env c (.cancelActiveUtxoManagement id output) ∧
      receipt.contract.window = c.window := by
  simp only [Contract.cancelActiveUtxoManagement, Contract.internalUnwrapBtcPendingInfo,
    Option.bind_eq_bind, Option.bind_eq_some_iff] at h
  obtain ⟨_, hrole, _, hpaused, _, _, o, ho, _, hcapacity, h⟩ := h
  exact rbfChainSpecific_receipt
    (.cancelActiveUtxoManagement id output o (privileged_of_assertDaoOrOperator hrole) ho)
    (paused_of_assertNotPaused hpaused) hcapacity h

/-- A refund is created with the timelock that was resolved for its caller, or asked for with it. -/
theorem executeRefund_receipt {key : OutPoint} {data : Option ChainSpecificData}
    (h : c.executeRefund host env key data = some receipt) :
    receipt.Follows host env c (.executeRefund key data) ∧
      receipt.contract.window = c.window := by
  simp only [Contract.executeRefund, Option.bind_eq_bind, Option.bind_eq_some_iff] at h
  obtain ⟨_, hpaused, call, hcall, h⟩ := h
  have hkey : call.utxoStorageKey = key := (resolveExecuteRefundTimelock_spec 0 [] hcall).1.symm
  have hrequests : c.Requests host env (.executeRefund key data) (.executeRefund call data) := by
    rw [← hkey] at hcall ⊢
    exact ⟨rfl, hcall, paused_of_assertNotPaused hpaused⟩
  split at h
  · rename_i hzcash
    rw [Option.some.injEq] at h
    rw [← h]
    exact ⟨.asking hrequests (Or.inr hzcash), rfl⟩
  · rename_i hzcash
    have hresume : c.resume host env none (.executeRefund call data) = some receipt := by
      simp only [Contract.internalExecuteRefund, Option.bind_eq_bind] at h
      simp only [Contract.resume, Contract.refundPsbt, Option.bind_eq_bind, Option.bind_assoc]
      exact h
    exact ⟨.resumed (Bool.eq_false_of_not_eq_true hzcash) hrequests hresume,
      (resume_creates hresume).window⟩

/-! ### The other calls -/

/-- An orphan is dropped. -/
theorem clearInvalidPendingVerifyRbf_receipt {id : Txid}
    (h : c.clearInvalidPendingVerifyRbf env id = some receipt) :
    receipt.Plain ∧ receipt.contract.window = c.window := by
  simp only [Contract.clearInvalidPendingVerifyRbf, Option.bind_eq_bind, Option.bind_eq_some_iff,
    Option.some.injEq] at h
  obtain ⟨_, _, c₁, hclear, rfl⟩ := h
  exact ⟨.silent, (internalClearInvalidPendingVerifyRbf_discards hclear).window⟩

theorem batchClearInvalidPendingVerifyRbf_receipt {ids : List Txid}
    (h : c.batchClearInvalidPendingVerifyRbf env ids = some receipt) :
    receipt.Plain ∧ receipt.contract.window = c.window := by
  simp only [Contract.batchClearInvalidPendingVerifyRbf, Option.bind_eq_bind,
    Option.bind_eq_some_iff, Option.some.injEq] at h
  obtain ⟨_, _, c₁, hclear, rfl⟩ := h
  exact ⟨.silent, (foldlM_clear_discards hclear).window⟩

/-- What is owed to the caller is paid by the token. -/
theorem claimLostFound_receipt (h : c.claimLostFound env = some receipt) :
    receipt.Plain ∧ Still c receipt.contract := by
  simp only [Contract.claimLostFound, Option.bind_eq_bind, Option.bind_eq_some_iff,
    Option.some.injEq] at h
  obtain ⟨_, _, _, _, _, _, rfl⟩ := h
  refine ⟨⟨fun p hp ↦ ?_, fun _ _ hm ↦ absurd hm List.not_mem_nil⟩, .of_eq rfl rfl⟩
  rw [List.mem_singleton.mp hp]
  rfl

theorem rejectRefund_receipt {key : OutPoint} (h : c.rejectRefund env key = some receipt) :
    receipt.Plain ∧ Still c receipt.contract := by
  simp only [Contract.rejectRefund, Option.bind_eq_bind, Option.bind_eq_some_iff,
    Option.some.injEq] at h
  obtain ⟨_, _, _, _, _, _, rfl⟩ := h
  exact ⟨.silent, .of_eq rfl rfl⟩

/-- A refund that will not be mined is dropped. -/
theorem removeRefundPendingTxId_receipt {txId : Txid}
    (h : c.removeRefundPendingTxId env txId = some receipt) :
    receipt.Plain ∧ receipt.contract.window = c.window := by
  simp only [Contract.removeRefundPendingTxId, Option.bind_eq_bind, Option.bind_eq_some_iff,
    Option.some.injEq, Prod.exists] at h
  obtain ⟨_, _, _, _, _, _, _, _, _, _, _, _, c₁, removed, hremove, c₂, hmut, rfl⟩ := h
  exact ⟨.silent, (window_mutAccount hmut).trans (window_removeBtcPendingInfo hremove)⟩

/-- A deposit is completed by hand: its coin is registered and its fee collected. -/
theorem completeFailedDepositMint_receipt {msg : DepositMsg} {txBytes : DepositTxProof}
    {vout protocolFee : ℕ}
    (h : c.completeFailedDepositMint host env msg txBytes vout protocolFee = some receipt) :
    receipt.Plain ∧ Still c receipt.contract := by
  simp only [Contract.completeFailedDepositMint, collectIfPositive_eq_some, Option.bind_eq_bind,
    Option.bind_eq_some_iff, Option.some.injEq] at h
  obtain ⟨_, _, _, _, _, _, _, _, _, _, _, _, _, _, _, ⟨_, rfl⟩, rfl⟩ := h
  refine ⟨⟨fun p hp ↦ absurd hp List.not_mem_nil, fun info payee hm ↦ ?_⟩,
    .of_eq (desk_createAccount _ msg.recipientId) (window_createAccount _ msg.recipientId)⟩
  simp at hm

/-- A call leaves what it asks for and creates what follows from a request at once. Only methods
that write the configuration change the window. -/
theorem call_receipt {method : Method} (h : c.call host env method = some receipt) :
    receipt.Follows host env c method ∧
      (method.configures = false → receipt.contract.window = c.window) := by
  have hplain (hp : receipt.Plain ∧ receipt.contract.window = c.window) :
      receipt.Follows host env c method ∧
        (method.configures = false → receipt.contract.window = c.window) :=
    ⟨.plain hp.1, fun _ ↦ hp.2⟩
  cases method with
  | verifyDepositV2 => exact (verifyDepositV2_receipt h).imp_right fun hs _ ↦ hs.window
  | verifyWithdrawV2 => exact (verifyWithdrawV2_receipt host h).imp_right fun hs _ ↦ hs.window
  | withdrawRbf => exact (withdrawRbf_receipt h).imp_right fun hw _ ↦ hw
  | cancelWithdraw => exact (cancelWithdraw_receipt h).imp_right fun hw _ ↦ hw
  | activeUtxoManagement => exact (activeUtxoManagement_receipt h).imp_right fun hw _ ↦ hw
  | activeUtxoManagementRbf => exact (activeUtxoManagementRbf_receipt h).imp_right fun hw _ ↦ hw
  | cancelActiveUtxoManagement =>
    exact (cancelActiveUtxoManagement_receipt h).imp_right fun hw _ ↦ hw
  | clearInvalidPendingVerifyRbf => exact hplain (clearInvalidPendingVerifyRbf_receipt h)
  | batchClearInvalidPendingVerifyRbf => exact hplain (batchClearInvalidPendingVerifyRbf_receipt h)
  | claimLostFound => exact hplain ((claimLostFound_receipt h).imp_right Still.window)
  | requestRefund => exact (requestRefund_receipt h).imp_right fun hs _ ↦ hs.window
  | rejectRefund => exact hplain ((rejectRefund_receipt h).imp_right Still.window)
  | executeRefund => exact (executeRefund_receipt h).imp_right fun hw _ ↦ hw
  | removeRefundPendingTxId => exact hplain (removeRefundPendingTxId_receipt h)
  | ftOnTransfer => exact (ftOnTransfer_receipt h).imp_right fun hw _ ↦ hw
  | signBtcTransaction => exact (signBtcTransaction_receipt h).imp_right fun hw _ ↦ hw
  | withdrawProtocolFee => exact (withdrawProtocolFee_receipt host h).imp_right fun hs _ ↦ hs.window
  | completeFailedDepositMint =>
    exact hplain ((completeFailedDepositMint_receipt h).imp_right Still.window)
  | syncChainSignaturesRootPublicKey =>
    exact (syncChainSignaturesRootPublicKey_receipt host h).imp_right fun hs _ ↦ hs.window
  | _ =>
    refine ⟨?_, fun hconfigures ↦ ?_⟩
    · obtain ⟨c', rfl, _⟩ := call_manages rfl h
      exact .plain .silent
    · obtain ⟨c', rfl, hsame⟩ := call_administers rfl hconfigures h
      exact hsame.window

/-! ### Callbacks -/

/-- A deposit deep enough is counted and claimed, then minted. -/
theorem verifyDepositCallback_receipt {result : PromiseResult} {recipientId : AccountId}
    {mintAmount protocolFee relayerFee delta : ℕ} {info : PendingUTXOInfo}
    {postActions : Option (List PostAction)}
    (h : c.verifyDepositCallback env result recipientId mintAmount protocolFee relayerFee info
      postActions delta = some receipt) : receipt.Plain ∧ Quiet c receipt.contract := by
  obtain ⟨_, _, _, hcheck, hclaim⟩ := verifyDepositCallback_inv h
  exact ⟨⟨by simp [Promise.asked], by simp⟩, claimDeposit_quiet hcheck hclaim⟩

theorem verifySafeDepositCallback_receipt {result : PromiseResult} {recipientId : AccountId}
    {mintAmount delta : ℕ} {msg : String} {info : PendingUTXOInfo}
    (h : c.verifySafeDepositCallback host result recipientId mintAmount msg info delta
      = some receipt) : receipt.Plain ∧ Quiet c receipt.contract := by
  obtain ⟨_, _, _, hcheck, hclaim⟩ := verifySafeDepositCallback_inv h
  exact ⟨⟨by simp [Promise.asked], by simp⟩, claimDeposit_quiet hcheck hclaim⟩

/-- A failed mint takes the claim and the count back. -/
theorem mintCallback_receipt {result : PromiseResult} {recipientId : AccountId} {protocolFee : ℕ}
    {info : PendingUTXOInfo} {height : Option ℕ}
    (h : c.mintCallback result recipientId protocolFee info height = some receipt) :
    receipt.Plain ∧ Quiet c receipt.contract := by
  simp only [Contract.mintCallback] at h
  split at h
  · simp only [Option.bind_eq_bind, Option.bind_eq_some_iff, collectIfPositive_eq_some,
      Option.some.injEq] at h
    obtain ⟨_, ⟨_, rfl⟩, rfl⟩ := h
    exact ⟨⟨by simp, by simp⟩, .of_eq (desk_createAccount _ recipientId)⟩
  · rw [Option.some.injEq] at h
    rw [← h]
    exact ⟨⟨by simp, by simp⟩, .of_eq (desk_unbump _ height info.utxo.balance)⟩

/-- A safe mint that came back is burnt again. -/
theorem safeMintCallback_receipt {result : PromiseResult} {mintAmount : ℕ} {info : PendingUTXOInfo}
    {height : Option ℕ}
    (h : c.safeMintCallback host env result mintAmount info height = some receipt) :
    receipt.Plain ∧ Quiet c receipt.contract := by
  simp only [Contract.safeMintCallback] at h
  split at h
  · rw [Option.some.injEq] at h
    rw [← h]
    exact ⟨⟨by simp [Promise.asked], by simp⟩, .of_eq rfl⟩
  · rw [Option.some.injEq] at h
    rw [← h]
    exact ⟨⟨by simp [Promise.asked], by simp⟩, .of_eq (desk_unbump _ height info.utxo.balance)⟩

/-- A confirmed withdrawal moves to the burn stage. -/
theorem internalVerifyWithdrawCallback_receipt {result : PromiseResult} {txId : Txid}
    (h : c.internalVerifyWithdrawCallback env result txId = some receipt) :
    receipt.Plain ∧ receipt.contract.window = c.window := by
  simp only [Contract.internalVerifyWithdrawCallback, Contract.verifyWithdrawBurnPromise,
    Option.bind_eq_bind, Option.bind_eq_some_iff, Option.some.injEq, Prod.exists] at h
  obtain ⟨_, _, hmove, _, ⟨_, _, _, _, _, rfl⟩, rfl⟩ := h
  obtain ⟨_, _, _, _, rfl, rfl⟩ := moveToBurnStage_spec hmove
  exact ⟨⟨by simp [Promise.asked], by simp⟩, rfl⟩

theorem verifyActiveUtxoManagementCallback_receipt {result : PromiseResult} {txId : Txid}
    (h : c.verifyActiveUtxoManagementCallback env result txId = some receipt) :
    receipt.Plain ∧ receipt.contract.window = c.window := by
  simp only [Contract.verifyActiveUtxoManagementCallback,
    Contract.verifyActiveUtxoManagementBurnPromise, Option.bind_eq_bind, Option.bind_eq_some_iff,
    Option.some.injEq, Prod.exists] at h
  obtain ⟨_, _, hmove, _, ⟨_, _, rfl⟩, rfl⟩ := h
  obtain ⟨_, _, _, _, rfl, rfl⟩ := moveToBurnStage_spec hmove
  exact ⟨⟨by simp [Promise.asked], by simp⟩, rfl⟩

/-- A burnt withdrawal is settled, with a refund to its owner where it was cancelled; a failed burn
moves it back. -/
theorem verifyWithdrawBurnCallback_receipt {result : PromiseResult} {txId : Txid} {protocolFee : ℕ}
    (h : c.verifyWithdrawBurnCallback host result txId protocolFee = some receipt) :
    receipt.Plain ∧ receipt.contract.window = c.window := by
  cases verifyWithdrawBurnCallback_inv h with
  | burnt _ _ _ info _ _ _ hinfo _ hregister hsettle _ hremove =>
    obtain ⟨hregistered, hpendings⟩ := registerChange_keeps hregister
    rw [← hpendings] at hinfo
    have hsettled := (settleWithdraw_spec hsettle hinfo).window.trans hregistered
    have hremoved := window_removeBtcPendingInfo hremove
    refine ⟨⟨fun p hp ↦ ?_, by simp⟩, Eq.trans hremoved hsettled⟩
    dsimp only at hp
    split at hp
    · rw [List.mem_singleton.mp hp]
      rfl
    · exact absurd hp List.not_mem_nil
  | failed => exact ⟨.silent, rfl⟩

/-- Active management is settled alike, with nothing to pay back. -/
theorem verifyActiveUtxoManagementBurnCallback_receipt {result : PromiseResult} {txId : Txid}
    (h : c.verifyActiveUtxoManagementBurnCallback host result txId = some receipt) :
    receipt.Plain ∧ receipt.contract.window = c.window := by
  cases verifyActiveUtxoManagementBurnCallback_inv h with
  | burnt _ _ _ info _ _ _ hinfo hregister hsettle hremove =>
    obtain ⟨hregistered, hpendings⟩ := registerChange_keeps hregister
    rw [← hpendings] at hinfo
    have hsettled := (settleActiveUtxoManagement_spec hsettle hinfo).window.trans hregistered
    exact ⟨⟨by simp, by simp⟩, (window_removeBtcPendingInfo hremove).trans hsettled⟩
  | failed => exact ⟨.silent, rfl⟩

/-- A confirmed refund is over. -/
theorem verifyRefundFinalizeCallback_receipt {result : PromiseResult} {txId : Txid}
    (h : c.verifyRefundFinalizeCallback result txId = some receipt) :
    receipt.Plain ∧ receipt.contract.window = c.window := by
  simp only [Contract.verifyRefundFinalizeCallback, Option.bind_eq_bind, Option.bind_eq_some_iff,
    Option.some.injEq, Prod.exists] at h
  obtain ⟨_, _, _, _, _, _, _, _, _, _, c₁, removed, hremove, c₂, hmut, rfl⟩ := h
  have hremoved := window_removeBtcPendingInfo hremove
  exact ⟨⟨by simp, by simp⟩, (window_mutAccount hmut).trans hremoved⟩

/-- A request is stored once its deposit is confirmed. -/
theorem requestRefundCallback_receipt {result : PromiseResult} {msg : DepositMsg}
    {refundAddress : String} {txId : Txid} {output : TxOut} {vout : ℕ} {gasFee : Option ℕ}
    (h : c.requestRefundCallback host env result msg refundAddress txId output vout gasFee
      = some receipt) : receipt.Plain ∧ Still c receipt.contract := by
  simp only [Contract.requestRefundCallback, Option.bind_eq_bind, Option.bind_eq_some_iff,
    Option.some.injEq] at h
  obtain ⟨_, _, _, _, _, _, _, _, _, _, _, _, _, _, _, _, _, _, rfl⟩ := h
  exact ⟨⟨by simp, by simp⟩, .of_eq rfl rfl⟩

/-- What could not be transferred is owed. -/
theorem transferNbtcCallback_receipt {result : PromiseResult} {accountId : AccountId} {amount : ℕ}
    (h : c.transferNbtcCallback result accountId amount = some receipt) :
    receipt.Plain ∧ Still c receipt.contract := by
  unfold Contract.transferNbtcCallback at h
  split at h <;>
  · rw [Option.some.injEq] at h
    rw [← h]
    exact ⟨.silent, .of_eq rfl rfl⟩

/-- Fees that could not be paid out are available again. -/
theorem withdrawProtocolFeeCallback_receipt {result : PromiseResult} {amount : ℕ}
    (h : c.withdrawProtocolFeeCallback result amount = some receipt) :
    receipt.Plain ∧ Still c receipt.contract := by
  unfold Contract.withdrawProtocolFeeCallback at h
  split at h
  · rw [Option.some.injEq] at h
    rw [← h]
    exact ⟨.silent, .of_eq rfl rfl⟩
  · simp only [Option.bind_eq_bind, Option.bind_eq_some_iff, Option.some.injEq] at h
    obtain ⟨_, _, rfl⟩ := h
    exact ⟨.silent, .of_eq rfl rfl⟩

/-- A signature is entered, and the last one moves the transaction to the verify list. -/
theorem signBtcTransactionCallback_receipt {result : PromiseResult} {accountId : AccountId}
    {id : Txid} {signIndex : ℕ}
    (h : c.signBtcTransactionCallback host env result accountId id signIndex = some receipt) :
    receipt.Plain ∧ receipt.contract.window = c.window := by
  unfold Contract.signBtcTransactionCallback at h
  split at h
  · rw [Option.some.injEq] at h
    rw [← h]
    exact ⟨.silent, rfl⟩
  · simp only [Option.bind_eq_bind, Option.bind_eq_some_iff] at h
    obtain ⟨_, _, _, _, _, _, _, _, _, _, _, _, _, _, _, _, h⟩ := h
    split at h
    · simp only [Option.bind_eq_some_iff, Option.some.injEq] at h
      obtain ⟨_, _, _, _, c₁, hmut, rfl⟩ := h
      have hlisted := window_mutAccount hmut
      exact ⟨.silent, hlisted⟩
    · rw [Option.bind_some, Option.some.injEq] at h
      rw [← h]
      exact ⟨.silent, rfl⟩
  · cases h

theorem syncRootPublicKeyCallback_receipt {result : PromiseResult}
    (h : c.syncRootPublicKeyCallback host result = some receipt) :
    receipt.Plain ∧ Still c receipt.contract := by
  unfold Contract.syncRootPublicKeyCallback at h
  split at h
  · rw [Option.some.injEq] at h
    rw [← h]
    exact ⟨.silent, .of_eq rfl rfl⟩
  · rw [Option.some.injEq] at h
    rw [← h]
    exact ⟨.silent, .of_eq rfl rfl⟩
  · cases h

/-- A callback creates nothing and asks for nothing, or it goes on with a request at the block
height it was given. Only the callbacks of deposits and mints change the window. -/
theorem callback_receipt {p : Promise} {result : PromiseResult}
    (h : c.callback host env result p = some receipt) :
    (receipt.Plain ∧
      (p.depositInfo = none → receipt.contract.window = c.window)) ∨
    ∃ height, result.expectHeight = some height ∧
      c.resume host env (some height) p = some receipt := by
  have hkept (hp : receipt.Plain ∧ receipt.contract.window = c.window) :
      receipt.Plain ∧
        (p.depositInfo = none → receipt.contract.window = c.window) :=
    hp.imp_right fun hw _ ↦ hw
  cases p with
  | verifyDeposit =>
    exact Or.inl ⟨(verifyDepositCallback_receipt h).1, fun hinfo ↦ by cases hinfo⟩
  | verifySafeDeposit =>
    exact Or.inl ⟨(verifySafeDepositCallback_receipt h).1, fun hinfo ↦ by cases hinfo⟩
  | mint => exact Or.inl ⟨(mintCallback_receipt h).1, fun hinfo ↦ by cases hinfo⟩
  | safeMint => exact Or.inl ⟨(safeMintCallback_receipt h).1, fun hinfo ↦ by cases hinfo⟩
  | burnDetached =>
    cases h
    exact Or.inl ⟨.silent, fun _ ↦ rfl⟩
  | verifyWithdraw => exact Or.inl (hkept (internalVerifyWithdrawCallback_receipt h))
  | verifyActiveUtxoManagement =>
    exact Or.inl (hkept (verifyActiveUtxoManagementCallback_receipt h))
  | withdrawBurn => exact Or.inl (hkept (verifyWithdrawBurnCallback_receipt h))
  | activeUtxoManagementBurn =>
    exact Or.inl (hkept (verifyActiveUtxoManagementBurnCallback_receipt h))
  | verifyRefundFinalize => exact Or.inl (hkept (verifyRefundFinalizeCallback_receipt h))
  | requestRefund =>
    exact Or.inl (hkept ((requestRefundCallback_receipt h).imp_right Still.window))
  | transferNbtc =>
    exact Or.inl (hkept ((transferNbtcCallback_receipt h).imp_right Still.window))
  | withdrawProtocolFee =>
    exact Or.inl (hkept ((withdrawProtocolFeeCallback_receipt h).imp_right Still.window))
  | sign => exact Or.inl (hkept (signBtcTransactionCallback_receipt h))
  | syncRootPublicKey =>
    exact Or.inl (hkept ((syncRootPublicKeyCallback_receipt h).imp_right Still.window))
  | ftOnTransfer =>
    obtain ⟨height, hheight, h⟩ := Option.bind_eq_some_iff.mp h
    refine Or.inr ⟨height, hheight, ?_⟩
    simp only [Contract.resume, Contract.withdrawPsbt, Option.bind_eq_bind, Option.bind_assoc]
    exact h
  | activeUtxoManagement => exact Or.inr (Option.bind_eq_some_iff.mp h)
  | rbf =>
    obtain ⟨height, hheight, h⟩ := Option.bind_eq_some_iff.mp h
    refine Or.inr ⟨height, hheight, ?_⟩
    simp only [Contract.resume, Contract.rbfPsbt, Option.bind_eq_bind, Option.bind_assoc]
    exact h
  | executeRefund => exact Or.inr (Option.bind_eq_some_iff.mp h)

end SatoshiBridge

import SatoshiBridge.Origins.Receipts

/-!
# Every receipt is one step of the desk

The methods and callbacks that touch pending transactions, lists or families, one after the other.
-/

set_option autoImplicit false
set_option relaxedAutoImplicit false

namespace SatoshiBridge

open Desk (Keeps)

variable {host : Host} {Burns : Txid → Prop} {env : Env} {c c' : Contract} {receipt : Receipt}

/-! ### Accounts -/

/-- Rewriting an account rewrites its two lists. -/
theorem desk_mutAccount {a : AccountId} {update : Account → Account}
    (h : c.internalUnwrapMutAccount a update = some c') :
    c'.desk = { c.desk with
      signs := Function.update c.desk.signs a (update (c.account a)).btcPendingSignIds
      verifies := Function.update c.desk.verifies a
        (update (c.account a)).btcPendingVerifyList } := by
  simp only [Contract.internalUnwrapMutAccount, Option.bind_eq_bind, Option.bind_eq_some_iff,
    Option.some.injEq] at h
  obtain ⟨account, haccount, rfl⟩ := h
  have hread : c.account a = account := by
    rw [Contract.account, haccount]
    rfl
  rw [hread]
  have hsigns : (fun b ↦ ((c.internalSetAccount a (update account)).account b).btcPendingSignIds)
      = Function.update c.desk.signs a (update account).btcPendingSignIds := by
    funext b
    rw [account_insert, Function.update_apply]
    split <;> rfl
  have hverifies :
      (fun b ↦ ((c.internalSetAccount a (update account)).account b).btcPendingVerifyList)
        = Function.update c.desk.verifies a (update account).btcPendingVerifyList := by
    funext b
    rw [account_insert, Function.update_apply]
    split <;> rfl
  change (⟨_, _, _, _, _⟩ : Desk) = _
  rw [hsigns, hverifies]
  rfl

theorem desk_addPendingSignId {a : AccountId} {id : Txid}
    (h : c.addPendingSignId a id = some c') : c'.desk = c.desk.addSign a id := by
  rw [desk_mutAccount h]
  unfold Desk.addSign
  dsimp only
  rw [show Function.update c.desk.verifies a (c.account a).btcPendingVerifyList = c.desk.verifies
    from Function.update_eq_self a c.desk.verifies]
  rfl

theorem desk_removeFromVerifyList {a : AccountId} {id : Txid}
    (h : c.removeFromVerifyList a id = some c') : c'.desk = c.desk.dropVerify a id := by
  rw [desk_mutAccount h]
  unfold Desk.dropVerify
  dsimp only
  rw [show Function.update c.desk.signs a (c.account a).btcPendingSignIds = c.desk.signs
    from Function.update_eq_self a c.desk.signs]
  rfl

theorem desk_dropSign {a : AccountId} {id : Txid}
    (h : c.internalUnwrapMutAccount a (fun account ↦
      { account with btcPendingSignIds := account.btcPendingSignIds.erase id }) = some c') :
    c'.desk = c.desk.dropSign a id := by
  rw [desk_mutAccount h]
  unfold Desk.dropSign
  dsimp only
  rw [show Function.update c.desk.verifies a (c.account a).btcPendingVerifyList = c.desk.verifies
    from Function.update_eq_self a c.desk.verifies]
  rfl

/-- An account has room for one more transaction to sign. -/
theorem requirePendingSignCapacity_spec {a : AccountId}
    (h : c.requirePendingSignCapacity a = some ()) :
    (c.desk.signs a).card < c.desk.limit a := by
  simp only [Contract.requirePendingSignCapacity, Option.bind_eq_bind, Option.bind_eq_some_iff,
    require_eq_some] at h
  obtain ⟨account, haccount, hcount⟩ := h
  change (c.account a).btcPendingSignIds.card < _
  rw [Contract.account, haccount]
  exact hcount

/-! ### Creating originals and refunds -/

theorem desk_insertNewBtcPendingInfo {id : Txid} {info : BTCPendingInfo}
    (h : c.insertNewBtcPendingInfo id info = some c') :
    c.desk.pendings.lookup id = none ∧ c'.desk = c.desk.put id info := by
  obtain ⟨hnone, rfl⟩ := insertNewBtcPendingInfo_spec h
  exact ⟨hnone, rfl⟩

theorem desk_generateVutxos {psbt psbt' : PsbtWrapper} {vutxos : List UTXO}
    (h : c.generateVutxos host psbt = some (c', psbt', vutxos)) : c'.desk = c.desk := by
  simp only [Contract.generateVutxos, Contract.removeVutxoByPsbt, Option.bind_eq_bind,
    Option.bind_eq_some_iff, Option.some.injEq, Prod.exists, Prod.mk.injEq] at h
  obtain ⟨_, _, ⟨_, _, _, rfl, rfl⟩, _, _, _, _, rfl, rfl, rfl⟩ := h
  rfl

/-- A new transaction that replaces nothing, put on the list of its account. -/
theorem desk_create {c₁ c₂ : Contract} {a : AccountId} {id : Txid} {info : BTCPendingInfo}
    (hdesk : c₁.desk = c.desk) (hcapacity : (c.desk.signs a).card < c.desk.limit a)
    (hinsert : c₁.insertNewBtcPendingInfo id info = some c₂)
    (hsign : c₂.addPendingSignId a id = some c') (hid : info.btcPendingId = id)
    (haccount : info.accountId = a) (horiginal : info.state.originalTxId = none)
    (hstage : info.state.stage = .pendingSign) : Desk.Effect Burns c.desk c'.desk := by
  obtain ⟨hfresh, hput⟩ := desk_insertNewBtcPendingInfo hinsert
  rw [hdesk] at hfresh hput
  rw [desk_addPendingSignId hsign, hput]
  subst hid haccount
  exact .create info hfresh horiginal hstage hcapacity

theorem createBtcPendingInfo_desk {senderId : AccountId} {amount : ℕ} {target : String}
    {psbt : PsbtWrapper} {maxGasFee : Option ℕ}
    (h : c.createBtcPendingInfo host env senderId amount target psbt maxGasFee = some receipt) :
    Desk.Effect Burns c.desk receipt.contract.desk := by
  obtain ⟨c₁, _, c₂, c₃, _, _, _, _, _, _, _, _, _, hvutxos, rfl, hcapacity, _, _, _, _, _, _, _, _,
    _, hinsert, hsign⟩ := createBtcPendingInfo_inv h
  have hdesk : (c₁.internalUnwrapOrCreateAccount senderId).desk = c.desk :=
    (desk_createAccount c₁ senderId).trans (desk_generateVutxos hvutxos)
  have hroom := requirePendingSignCapacity_spec hcapacity
  rw [hdesk] at hroom
  change Desk.Effect Burns c.desk c₃.desk
  exact desk_create hdesk hroom hinsert hsign rfl rfl rfl rfl

theorem createActiveUtxoManagementPendingInfo_desk {accountId : AccountId} {psbt : PsbtWrapper}
    (h : c.createActiveUtxoManagementPendingInfo host env accountId psbt = some receipt) :
    Desk.Effect Burns c.desk receipt.contract.desk := by
  obtain ⟨c₁, c₂, c₃, _, _, _, _, _, _, _, hcapacity, hvutxos, _, _, _, _, _, hinsert, hsign⟩ :=
    createActiveUtxoManagementPendingInfo_inv h
  have hdesk : c₁.desk = c.desk := desk_generateVutxos hvutxos
  change Desk.Effect Burns c.desk c₃.desk
  refine desk_create ?_ (requirePendingSignCapacity_spec hcapacity) hinsert hsign rfl rfl rfl rfl
  exact hdesk

theorem finalizeRefundWithPsbt_desk {call : ExecuteRefundCall} {request : RefundRequest}
    {psbt : PsbtWrapper} {refundAmount : ℕ}
    (h : c.finalizeRefundWithPsbt host env call request psbt refundAmount = some receipt) :
    Desk.Effect Burns c.desk receipt.contract.desk := by
  obtain ⟨_, c₂, c₃, _, _, _, _, _, rfl, hcapacity, _, hinsert, hsign⟩ :=
    finalizeRefundWithPsbt_inv h
  have hdesk : (c.internalUnwrapOrCreateAccount call.caller).desk = c.desk :=
    desk_createAccount c call.caller
  have hroom := requirePendingSignCapacity_spec hcapacity
  rw [hdesk] at hroom
  change Desk.Effect Burns c.desk c₃.desk
  exact desk_create hdesk hroom hinsert hsign rfl rfl rfl rfl

theorem ftOnTransfer_desk {senderId : AccountId} {amount : ℕ} {msg : TokenReceiverMessage}
    (h : c.ftOnTransfer host env senderId amount msg = some receipt) :
    Desk.Effect Burns c.desk receipt.contract.desk := by
  obtain ⟨_, _, _, haccepted⟩ := ftOnTransfer_inv h
  cases haccepted with
  | collected => exact (Quiet.of_eq rfl).desk
  | asked => exact (Quiet.of_eq rfl).desk
  | created _ _ _ _ _ _ _ _ _ _ hcreate => exact createBtcPendingInfo_desk hcreate

theorem ftOnTransferCallback_desk {result : PromiseResult} {senderId : AccountId}
    {amount : ℕ} {target : String} {input : List OutPoint} {output : List TxOut}
    {maxGasFee : Option ℕ} {data : Option ChainSpecificData}
    (h : c.ftOnTransferCallback host env result senderId amount target input output maxGasFee data
      = some receipt) : Desk.Effect Burns c.desk receipt.contract.desk := by
  simp only [Contract.ftOnTransferCallback, Option.bind_eq_bind, Option.bind_eq_some_iff] at h
  obtain ⟨height, _, expiry, _, psbt, _, h⟩ := h
  exact createBtcPendingInfo_desk h

theorem activeUtxoManagement_desk {input : List OutPoint} {output : List TxOut}
    (h : c.activeUtxoManagement host env input output = some receipt) :
    Desk.Effect Burns c.desk receipt.contract.desk := by
  simp only [Contract.activeUtxoManagement, Option.bind_eq_bind, Option.bind_eq_some_iff] at h
  obtain ⟨_, _, _, _, _, _, h⟩ := h
  split at h
  · rw [Option.some.injEq] at h
    rw [← h]
    exact (Quiet.of_eq rfl).desk
  · simp only [Option.bind_eq_some_iff] at h
    obtain ⟨psbt, _, h⟩ := h
    exact createActiveUtxoManagementPendingInfo_desk h

theorem activeUtxoManagementCallback_desk {result : PromiseResult} {accountId : AccountId}
    {input : List OutPoint} {output : List TxOut}
    (h : c.activeUtxoManagementCallback host env result accountId input output = some receipt) :
    Desk.Effect Burns c.desk receipt.contract.desk := by
  simp only [Contract.activeUtxoManagementCallback, Option.bind_eq_bind,
    Option.bind_eq_some_iff] at h
  obtain ⟨height, _, psbt, _, h⟩ := h
  exact createActiveUtxoManagementPendingInfo_desk h

theorem executeRefund_desk {key : OutPoint} {data : Option ChainSpecificData}
    (h : c.executeRefund host env key data = some receipt) :
    Desk.Effect Burns c.desk receipt.contract.desk := by
  simp only [Contract.executeRefund, Option.bind_eq_bind, Option.bind_eq_some_iff] at h
  obtain ⟨_, _, call, _, h⟩ := h
  split at h
  · rw [Option.some.injEq] at h
    rw [← h]
    exact (Quiet.of_eq rfl).desk
  · simp only [Contract.internalExecuteRefund, Option.bind_eq_bind, Option.bind_eq_some_iff] at h
    obtain ⟨request, _, inputs, _, output, _, psbt, _, psbt', _, h⟩ := h
    exact finalizeRefundWithPsbt_desk h

theorem executeRefundCallback_desk {result : PromiseResult} {call : ExecuteRefundCall}
    {data : Option ChainSpecificData}
    (h : c.executeRefundCallback host env result call data = some receipt) :
    Desk.Effect Burns c.desk receipt.contract.desk := by
  simp only [Contract.executeRefundCallback, Option.bind_eq_bind, Option.bind_eq_some_iff] at h
  obtain ⟨height, _, request, _, inputs, _, psbt, _, h⟩ := h
  exact finalizeRefundWithPsbt_desk h

/-! ### Replacing -/

/-- The two RBF methods of the owner check who calls. -/
theorem internalRbf_owner {method : RbfMethod} {accountId predecessor : AccountId} {id : Txid}
    {psbt : PsbtWrapper} {info : BTCPendingInfo} {payee : Option String} {o : BTCPendingInfo}
    (ho : c.btcPendingInfos.lookup id = some o)
    (hcancel : method = .cancelWithdraw ∨ method = .cancelActiveUtxoManagement →
      o.accountId = accountId)
    (h : c.internalRbf host env method accountId id psbt predecessor = some (c', info, payee)) :
    o.accountId = accountId := by
  obtain ⟨o₁, _, _, _, _, _, _, _, _, _, _, _, ho₁, _, _, _, hchecks⟩ := internalRbf_inv h
  rw [ho, Option.some.injEq] at ho₁
  subst ho₁
  cases hchecks with
  | withdrawRbf _ _ _ _ _ howner => exact howner
  | cancelWithdraw => exact hcancel (Or.inl rfl)
  | activeUtxoManagementRbf _ howner => exact howner
  | cancelActiveUtxoManagement => exact hcancel (Or.inr rfl)

/-- A replacement enters the family of its original and the list of its account. -/
theorem desk_replace {c₁ c₂ : Contract} {a : AccountId} {id : Txid} {info : BTCPendingInfo}
    {payee : Option String} (hcapacity : (c.desk.signs a).card < c.desk.limit a)
    (howner : ∀ o, c.btcPendingInfos.lookup id = some o → o.state.originalTxId = none →
      o.state.isRefund = false → o.accountId = a)
    (hreplaces : ReplacesIn host c id info payee c₁)
    (hsign : c₁.addPendingSignId a info.btcPendingId = some c₂) :
    Desk.Effect Burns c.desk c₂.desk := by
  obtain ⟨o, o', extra, available, hall⟩ := hreplaces.replaces
  obtain ⟨h, _, rfl⟩ := hall 0 []
  obtain ⟨horiginal, hrefund, hchild, _, _⟩ := h.states
  have ho : c.btcPendingInfos.lookup id = some o := h.original
  have hstage' : o'.state.stage = o.state.stage := by
    obtain ⟨s, s', hs, hsame, rfl⟩ := h.updated
    exact PendingInfoState.stage_setOriginalState hs hsame
  have haccount : info.accountId = a := h.account.trans (howner o ho horiginal hrefund)
  rw [desk_addPendingSignId hsign]
  subst haccount
  exact .replace id o o' info ho (.of_carries h.carries) hstage' horiginal hrefund h.fresh hchild
    h.stage hcapacity

theorem finishRbf_desk {method : RbfMethod} {accountId predecessor : AccountId} {id : Txid}
    {psbt : PsbtWrapper} (laws : host.ReadsAddresses) (hkeyed : c.Keyed host)
    (hnote : method ≠ .withdrawRbf → psbt.orchard = none)
    (hpsbt : ∀ o, c.btcPendingInfos.lookup id = some o → Respends host o psbt)
    (hcapacity : (c.desk.signs accountId).card < c.desk.limit accountId)
    (hcancel : method = .cancelWithdraw ∨ method = .cancelActiveUtxoManagement →
      ∀ o, c.btcPendingInfos.lookup id = some o → o.state.originalTxId = none →
        o.state.isRefund = false → o.accountId = accountId)
    (h : c.finishRbf host env method accountId id psbt predecessor = some receipt) :
    Desk.Effect Burns c.desk receipt.contract.desk := by
  simp only [Contract.finishRbf, Option.bind_eq_bind, Option.bind_eq_some_iff, Option.some.injEq,
    Prod.exists] at h
  obtain ⟨c₁, info, payee, hrbf, c₂, hsign, rfl⟩ := h
  refine desk_replace hcapacity ?_ (internalRbf_spec laws hkeyed hnote hpsbt hrbf) hsign
  intro o ho horiginal hrefund
  exact internalRbf_owner ho (fun hm ↦ hcancel hm o ho horiginal hrefund) hrbf

theorem rbfChainSpecific_desk {rbf : RbfMethod} {accountId : AccountId} {id : Txid}
    {output : List TxOut} {data : Option ChainSpecificData} (laws : host.ReadsAddresses)
    (hkeyed : c.Keyed host) (hcapacity : c.requirePendingSignCapacity accountId = some ())
    (hcancel : rbf = .cancelWithdraw ∨ rbf = .cancelActiveUtxoManagement →
      ∃ o, c.btcPendingInfos.lookup id = some o ∧ o.accountId = accountId)
    (h : c.rbfChainSpecific host env rbf accountId id output data = some receipt) :
    Desk.Effect Burns c.desk receipt.contract.desk := by
  unfold Contract.rbfChainSpecific at h
  split at h
  · rw [Option.some.injEq] at h
    rw [← h]
    exact (Quiet.of_eq rfl).desk
  · simp only [Contract.internalUnwrapBtcPendingInfo, Option.bind_eq_bind,
      Option.bind_eq_some_iff] at h
    obtain ⟨o, ho, h⟩ := h
    refine finishRbf_desk laws hkeyed (fun _ ↦ rfl) ?_ (requirePendingSignCapacity_spec hcapacity)
      ?_ h
    · intro o' ho'
      rw [ho, Option.some.injEq] at ho'
      subst ho'
      exact .bitcoin
    · intro hm o' ho' _ _
      obtain ⟨o'', ho'', haccount⟩ := hcancel hm
      rw [ho', Option.some.injEq] at ho''
      rw [ho'']
      exact haccount

theorem withdrawRbf_desk {id : Txid} {output : List TxOut} {data : Option ChainSpecificData}
    (laws : host.ReadsAddresses) (hkeyed : c.Keyed host)
    (h : c.withdrawRbf host env id output data = some receipt) :
    Desk.Effect Burns c.desk receipt.contract.desk := by
  simp only [Contract.withdrawRbf, Option.bind_eq_bind, Option.bind_eq_some_iff] at h
  obtain ⟨_, _, _, hcapacity, _, _, h⟩ := h
  exact rbfChainSpecific_desk laws hkeyed hcapacity
    (fun hcancel ↦ by rcases hcancel with hcancel | hcancel <;> cases hcancel) h

theorem cancelWithdraw_desk {id : Txid} {output : List TxOut} (laws : host.ReadsAddresses)
    (hkeyed : c.Keyed host) (h : c.cancelWithdraw host env id output = some receipt) :
    Desk.Effect Burns c.desk receipt.contract.desk := by
  simp only [Contract.cancelWithdraw, Contract.internalUnwrapBtcPendingInfo, Option.bind_eq_bind,
    Option.bind_eq_some_iff] at h
  obtain ⟨_, _, _, _, _, _, o, ho, _, hcapacity, h⟩ := h
  exact rbfChainSpecific_desk laws hkeyed hcapacity (fun _ ↦ ⟨o, ho, rfl⟩) h

theorem activeUtxoManagementRbf_desk {id : Txid} {output : List TxOut}
    (laws : host.ReadsAddresses) (hkeyed : c.Keyed host)
    (h : c.activeUtxoManagementRbf host env id output = some receipt) :
    Desk.Effect Burns c.desk receipt.contract.desk := by
  simp only [Contract.activeUtxoManagementRbf, Option.bind_eq_bind, Option.bind_eq_some_iff] at h
  obtain ⟨_, _, _, _, _, _, _, hcapacity, h⟩ := h
  exact rbfChainSpecific_desk laws hkeyed hcapacity
    (fun hcancel ↦ by rcases hcancel with hcancel | hcancel <;> cases hcancel) h

theorem cancelActiveUtxoManagement_desk {id : Txid} {output : List TxOut}
    (laws : host.ReadsAddresses) (hkeyed : c.Keyed host)
    (h : c.cancelActiveUtxoManagement host env id output = some receipt) :
    Desk.Effect Burns c.desk receipt.contract.desk := by
  simp only [Contract.cancelActiveUtxoManagement, Contract.internalUnwrapBtcPendingInfo,
    Option.bind_eq_bind, Option.bind_eq_some_iff] at h
  obtain ⟨_, _, _, _, _, _, o, ho, _, hcapacity, h⟩ := h
  exact rbfChainSpecific_desk laws hkeyed hcapacity (fun _ ↦ ⟨o, ho, rfl⟩) h

/-- The Zcash build checks the limit when the block height is known; who owns the original was
read when the replacement was asked for. -/
theorem rbfCallback_desk {result : PromiseResult} {rbf : RbfMethod}
    {accountId predecessor : AccountId} {id : Txid} {output : List TxOut}
    {data : Option ChainSpecificData} (laws : host.ReadsAddresses) (hzcash : host.zcash = true)
    (hkeyed : c.Keyed host) (hdata : rbf ≠ .withdrawRbf → data = none)
    (hcancel : rbf = .cancelWithdraw ∨ rbf = .cancelActiveUtxoManagement →
      ∀ o, c.btcPendingInfos.lookup id = some o → o.state.originalTxId = none →
        o.state.isRefund = false → o.accountId = accountId)
    (h : c.rbfCallback host env result rbf accountId id output data predecessor
      = some receipt) : Desk.Effect Burns c.desk receipt.contract.desk := by
  simp only [Contract.rbfCallback, Contract.internalUnwrapBtcPendingInfo, Option.bind_eq_bind,
    Option.bind_eq_some_iff] at h
  obtain ⟨height, _, _, hcapacity, expiry, _, o, ho, psbt, hpsbt, h⟩ := h
  obtain ⟨hinputs, hcoins, _, hnote⟩ := PsbtWrapper.fromOriginalPsbtZcash_spec hpsbt
  refine finishRbf_desk laws hkeyed ?_ ?_ (requirePendingSignCapacity_spec hcapacity) hcancel h
  · intro hrbf
    rw [hdata hrbf] at hnote
    exact hnote rfl
  · intro o' ho'
    rw [ho, Option.some.injEq] at ho'
    subst ho'
    refine ⟨hinputs, hcoins, fun hz ↦ ?_⟩
    rw [hzcash] at hz
    cases hz

/-! ### Signing -/

/-- Signing asks for a signature, or drops a replacement whose original is gone. -/
theorem signBtcTransaction_desk {id : Txid} {signIndex keyVersion : ℕ}
    (h : c.signBtcTransaction host env id signIndex keyVersion = some receipt) :
    Desk.Effect Burns c.desk receipt.contract.desk := by
  simp only [Contract.signBtcTransaction, Contract.internalUnwrapBtcPendingInfo,
    BTCPendingInfo.assertPendingSign, Option.bind_eq_bind, Option.bind_eq_some_iff,
    require_eq_some, exists_and_left, exists_const] at h
  obtain ⟨_, _, info, hinfo, _, _, h⟩ := h
  split at h
  · rename_i horphan
    obtain ⟨root, hroot, hgone⟩ := horphan
    simp only [Option.bind_eq_some_iff, require_eq_some, Option.some.injEq, exists_and_left,
      exists_const, Prod.exists] at h
    obtain ⟨account, _, _, c₁, hmut, c₂, removed, hremove, rfl⟩ := h
    obtain ⟨_, rfl⟩ := internalRemoveBtcPendingInfo_spec hremove
    have hnone : c.btcPendingInfos.lookup root = none := by
      simpa [Contract.checkBtcPendingInfoExists] using hgone
    have hdrop : Desk.Drop c.desk ((c.desk.take id).dropSign info.accountId id) :=
      .mk id root info hinfo hroot (Or.inr hnone)
    have hdesk : c₁.desk.take id = (c.desk.take id).dropSign info.accountId id := by
      rw [desk_dropSign hmut]
      rfl
    change Desk.Effect Burns c.desk (c₁.desk.take id)
    rw [hdesk]
    exact .clear (.single hdrop)
  · simp only [Contract.internalSignBtcTransaction, Option.bind_eq_bind,
      Option.bind_eq_some_iff, Option.some.injEq] at h
    obtain ⟨_, _, _, _, _, _, payload, _, vutxo, _, rfl⟩ := h
    exact (Quiet.of_eq rfl).desk

/-- The lists of the owner after the last signature. -/
theorem desk_finishSigning {a : AccountId} {id : Txid} {isOriginal : Bool}
    (h : c.internalUnwrapMutAccount a (fun account ↦
      Contract.Account.finishSigning account id isOriginal) = some c') :
    c'.desk = if isOriginal then (c.desk.dropSign a id).addVerify a id
      else c.desk.dropSign a id := by
  rw [desk_mutAccount h]
  unfold Contract.Account.finishSigning Desk.addVerify Desk.dropSign
  dsimp only
  split
  · rfl
  · rw [show Function.update c.desk.verifies a (c.account a).btcPendingVerifyList = c.desk.verifies
      from Function.update_eq_self a c.desk.verifies]
    rfl

/-- The last signature moves a transaction to the verify stage. -/
theorem Signs.stage {info info' : BTCPendingInfo} (h : Signs host info info') :
    info'.state.stage = if info'.isAllSigned then .pendingVerify else info.state.stage := by
  obtain ⟨psbt, signatures, nowSec, ⟨⟨signature, hmem, hnone⟩, rfl⟩ | ⟨hall, signed, _, rfl⟩⟩ :=
    h.same
  · rw [if_neg]
    intro hsigned
    have hsome := List.all_eq_true.mp hsigned signature hmem
    rw [hnone] at hsome
    cases hsome
  · rw [if_pos]
    · exact PendingInfoState.stage_setStage _ _
    · exact List.all_eq_true.mpr fun s hs ↦ Option.isSome_iff_ne_none.mpr (hall s hs)

theorem signBtcTransactionCallback_desk {result : PromiseResult} {accountId : AccountId}
    {id : Txid} {signIndex : ℕ}
    (h : c.signBtcTransactionCallback host env result accountId id signIndex = some receipt) :
    Desk.Effect Burns c.desk receipt.contract.desk := by
  unfold Contract.signBtcTransactionCallback at h
  split at h
  · rw [Option.some.injEq] at h
    rw [← h]
    exact (Quiet.of_eq rfl).desk
  · rename_i signature
    simp only [Contract.internalUnwrapBtcPendingInfo, Option.bind_eq_bind,
      Option.bind_eq_some_iff, require_eq_some, exists_and_left, exists_const] at h
    obtain ⟨info, hinfo, vutxo, _, _, _, previous, hprevious, rfl, nowSec, _, scriptSig, _, info',
      hsigned, h⟩ := h
    have hsigns := signedPendingInfo_spec hprevious hsigned
    have hkeeps : Keeps info info' := .of_carries hsigns.carries
    have hstage := hsigns.stage
    split at h
    · rename_i hall
      rw [if_pos hall] at hstage
      simp only [Option.bind_eq_some_iff, require_eq_some, Option.some.injEq, exists_and_left,
        exists_const] at h
      obtain ⟨account, haccount, hlisted, c₁, hmut, rfl⟩ := h
      change c.accounts.lookup accountId = some account at haccount
      have hlisted' : id ∈ c.desk.signs accountId := by
        change id ∈ (c.account accountId).btcPendingSignIds
        rw [Contract.account, haccount]
        exact hlisted
      have hnotSign : info'.state.stage ≠ .pendingSign := by
        intro hsign
        rw [hstage] at hsign
        cases hsign
      have heffect : Desk.Effect Burns c.desk _ :=
        .complete accountId id info info' hinfo hkeeps hlisted' hnotSign
      change Desk.Effect Burns c.desk c₁.desk
      rw [desk_finishSigning hmut]
      simp only [BTCPendingInfo.getOriginalTxId, Option.isNone_iff_eq_none]
      exact heffect
    · rename_i hmissing
      rw [if_neg hmissing] at hstage
      rw [Option.bind_some, Option.some.injEq] at h
      subst h
      exact .restage id info info' hinfo hkeeps (Or.inl (by rw [hstage]))
  · cases h

/-! ### Confirming -/

theorem Desk.Keeps.stage (info : BTCPendingInfo) (stage : PendingInfoStage) :
    Keeps info { info with state := info.state.setStage stage } := by
  refine ⟨rfl, ?_, ?_⟩
  · rw [← PendingInfoState.originalTxId_kind, PendingInfoState.kind_setStage,
      PendingInfoState.originalTxId_kind]
  · rw [← PendingInfoState.isRefund_kind, PendingInfoState.kind_setStage,
      PendingInfoState.isRefund_kind]

/-- The light client's answer moves a transaction on to the burn stage. -/
theorem moveToBurnStage_desk {result : PromiseResult} {txId : Txid} {info : BTCPendingInfo}
    (h : c.moveToBurnStage result txId = some (c', info)) :
    Desk.Effect Burns c.desk c'.desk := by
  obtain ⟨old, hold, hstage, _, rfl, rfl⟩ := moveToBurnStage_spec h
  refine .restage txId old _ hold (.stage old _) (Or.inl ?_)
  dsimp only
  rw [PendingInfoState.stage_setStage, hstage]
  exact ⟨nofun, nofun⟩

theorem internalVerifyWithdrawCallback_desk {result : PromiseResult} {txId : Txid}
    (h : c.internalVerifyWithdrawCallback env result txId = some receipt) :
    Desk.Effect Burns c.desk receipt.contract.desk := by
  simp only [Contract.internalVerifyWithdrawCallback, Option.bind_eq_bind, Option.bind_eq_some_iff,
    Option.some.injEq, Prod.exists] at h
  obtain ⟨c₁, info, hmove, burn, _, rfl⟩ := h
  exact moveToBurnStage_desk hmove

theorem verifyActiveUtxoManagementCallback_desk {result : PromiseResult} {txId : Txid}
    (h : c.verifyActiveUtxoManagementCallback env result txId = some receipt) :
    Desk.Effect Burns c.desk receipt.contract.desk := by
  simp only [Contract.verifyActiveUtxoManagementCallback, Option.bind_eq_bind,
    Option.bind_eq_some_iff, Option.some.injEq, Prod.exists] at h
  obtain ⟨c₁, info, hmove, burn, _, rfl⟩ := h
  exact moveToBurnStage_desk hmove

/-- A failed burn takes the transaction back to the verify stage. -/
theorem burnFailed_desk {txId : Txid} {info : BTCPendingInfo} (hburns : Burns txId)
    (hinfo : c.btcPendingInfos.lookup txId = some info) :
    Desk.Effect Burns c.desk (c.burnFailed info txId).contract.desk := by
  refine .restage txId info info.toPendingVerifyStage hinfo (.stage info _) (Or.inr ⟨hburns, ?_⟩)
  unfold BTCPendingInfo.toPendingVerifyStage
  dsimp only
  rw [PendingInfoState.stage_setStage]
  exact nofun

/-- The desk after a family was settled. -/
def Desk.settled (d : Desk) (info : BTCPendingInfo) (txId : Txid) : Desk :=
  (((d.take (info.root txId)).take txId).dropVerify info.accountId (info.root txId)).disband
    (info.root txId)

/-- What a settlement leaves of the desk once the confirmed transaction itself is removed. -/
def SettlesDesk (c : Contract) (info : BTCPendingInfo) (txId : Txid) (c' : Contract) : Prop :=
  (∃ o, c.btcPendingInfos.lookup (info.root txId) = some o) ∧
    c'.desk.take txId = c.desk.settled info txId

/-- A confirmed replacement settles the family of its original. -/
theorem settlesDesk_child {c₁ c₂ : Contract} {info o : BTCPendingInfo} {txId root : Txid}
    (hroot : info.getOriginalTxId = some root)
    (hmut : ({ c with rbfTxs := c.rbfTxs.erase root } : Contract).removeFromVerifyList
      info.accountId root = some c₁)
    (hremove : c₁.internalRemoveBtcPendingInfo root = some (c₂, o)) (hdesk : c'.desk = c₂.desk) :
    SettlesDesk c info txId c' := by
  obtain ⟨ho, rfl⟩ := internalRemoveBtcPendingInfo_spec hremove
  have hdropped := desk_removeFromVerifyList hmut
  have hpendings : c₁.btcPendingInfos = c.btcPendingInfos := congrArg Desk.pendings hdropped
  have hroot' : info.root txId = root := BTCPendingInfo.root_of_child hroot txId
  unfold SettlesDesk Desk.settled
  rw [hroot']
  refine ⟨⟨o, hpendings ▸ ho⟩, ?_⟩
  have htaken : ({ c₁ with btcPendingInfos := c₁.btcPendingInfos.erase root } : Contract).desk
      = c₁.desk.take root := rfl
  rw [hdesk, htaken, hdropped]
  rfl

/-- A confirmed original settles its own family. -/
theorem settlesDesk_original {c₁ : Contract} {info : BTCPendingInfo} {txId : Txid}
    (hroot : info.getOriginalTxId = none) (hinfo : c.btcPendingInfos.lookup txId = some info)
    (hmut : c.removeFromVerifyList info.accountId txId = some c₁)
    (hdesk : c'.desk = c₁.desk.disband txId) : SettlesDesk c info txId c' := by
  have hroot' : info.root txId = txId := BTCPendingInfo.root_of_original hroot txId
  unfold SettlesDesk Desk.settled
  rw [hroot']
  refine ⟨⟨info, hinfo⟩, ?_⟩
  rw [hdesk, desk_removeFromVerifyList hmut]
  unfold Desk.take Desk.dropVerify Desk.disband
  dsimp only
  rw [FiniteMap.erase_erase_self]

theorem settleWithdraw_desk {info : BTCPendingInfo} {txId : Txid}
    (hinfo : c.btcPendingInfos.lookup txId = some info)
    (h : c.settleWithdraw info txId = some c') : SettlesDesk c info txId c' := by
  unfold Contract.settleWithdraw at h
  split at h
  · rename_i root hroot
    simp only [Option.bind_eq_bind, Option.bind_eq_some_iff, Prod.exists] at h
    obtain ⟨c₁, hmut, c₂, o, hremove, reserved, _, h⟩ := h
    refine settlesDesk_child hroot hmut hremove ?_
    split at h
    · obtain ⟨_, _, hrelease⟩ := Option.bind_eq_some_iff.mp h
      obtain ⟨fees, _, rfl⟩ := releaseReserved_spec hrelease
      rfl
    · rw [Option.some.injEq] at h
      rw [h]
  · rename_i hroot
    simp only [Option.bind_eq_bind, Option.bind_eq_some_iff] at h
    obtain ⟨c₁, hmut, reserved, _, h⟩ := h
    refine settlesDesk_original hroot hinfo hmut ?_
    split at h
    · obtain ⟨fees, _, rfl⟩ := releaseReserved_spec h
      rfl
    · rw [Option.some.injEq] at h
      rw [← h]
      rfl

theorem settleActiveUtxoManagement_desk {info : BTCPendingInfo} {txId : Txid}
    (hinfo : c.btcPendingInfos.lookup txId = some info)
    (h : c.settleActiveUtxoManagement info txId = some c') : SettlesDesk c info txId c' := by
  unfold Contract.settleActiveUtxoManagement at h
  split at h
  · rename_i root hroot
    simp only [Option.bind_eq_bind, Option.bind_eq_some_iff, Prod.exists] at h
    obtain ⟨c₁, hmut, c₂, o, hremove, reserved, _, hrelease⟩ := h
    obtain ⟨fees, _, rfl⟩ := releaseReserved_spec hrelease
    exact settlesDesk_child hroot hmut hremove rfl
  · rename_i hroot
    simp only [Option.bind_eq_bind, Option.bind_eq_some_iff, Option.some.injEq] at h
    obtain ⟨c₁, hmut, reserved, _, c₂, hrelease, rfl⟩ := h
    obtain ⟨fees, _, rfl⟩ := releaseReserved_spec hrelease
    exact settlesDesk_original hroot hinfo hmut rfl

/-- The confirmed transaction itself is removed last. -/
theorem settled_desk {c₁ c₂ c₃ : Contract} {info removed : BTCPendingInfo} {txId : Txid}
    (hburns : Burns txId) (hinfo : c.btcPendingInfos.lookup txId = some info)
    (hregister : c₁.desk = c.desk) (hsettle : SettlesDesk c₁ info txId c₂)
    (hc₃ : c₃.desk = c₂.desk)
    (hremove : c₃.internalRemoveBtcPendingInfo txId = some (c', removed)) :
    Desk.Effect Burns c.desk c'.desk := by
  obtain ⟨_, rfl⟩ := internalRemoveBtcPendingInfo_spec hremove
  obtain ⟨⟨o, ho⟩, hsettled⟩ := hsettle
  have hroot : c.desk.pendings.lookup (info.root txId) = some o :=
    (congrArg (fun d : Desk ↦ d.pendings.lookup (info.root txId)) hregister).symm.trans ho
  have htaken : ({ c₃ with btcPendingInfos := c₃.btcPendingInfos.erase txId } : Contract).desk
      = c₃.desk.take txId := rfl
  rw [htaken, hc₃, hsettled, hregister]
  exact .settle txId _ info o hburns hinfo rfl hroot

theorem registerChange_desk {info : BTCPendingInfo} {txId : Txid}
    {utxos : List (OutPoint × UTXO)} (h : c.registerChange host info txId = some (c', utxos)) :
    c'.desk = c.desk := by
  obtain ⟨_, _, _, _, _, rfl⟩ := registerChange_inv h
  rfl

theorem verifyWithdrawBurnCallback_desk {result : PromiseResult} {txId : Txid} {protocolFee : ℕ}
    (hburns : Burns txId)
    (h : c.verifyWithdrawBurnCallback host result txId protocolFee = some receipt) :
    Desk.Effect Burns c.desk receipt.contract.desk := by
  cases verifyWithdrawBurnCallback_inv h with
  | burnt c₁ _ _ info _ _ _ hinfo _ hregister hsettle _ hremove =>
    have hdesk : c₁.desk = c.desk := registerChange_desk hregister
    have hinfo' : c₁.btcPendingInfos.lookup txId = some info :=
      (congrArg (fun d : Desk ↦ d.pendings.lookup txId) hdesk).trans hinfo
    refine settled_desk hburns hinfo hdesk (settleWithdraw_desk hinfo' hsettle) ?_ hremove
    rfl
  | failed info _ hinfo => exact burnFailed_desk hburns hinfo

theorem verifyActiveUtxoManagementBurnCallback_desk {result : PromiseResult} {txId : Txid}
    (hburns : Burns txId)
    (h : c.verifyActiveUtxoManagementBurnCallback host result txId = some receipt) :
    Desk.Effect Burns c.desk receipt.contract.desk := by
  cases verifyActiveUtxoManagementBurnCallback_inv h with
  | burnt c₁ _ _ info _ _ _ hinfo hregister hsettle hremove =>
    have hdesk : c₁.desk = c.desk := registerChange_desk hregister
    have hinfo' : c₁.btcPendingInfos.lookup txId = some info :=
      (congrArg (fun d : Desk ↦ d.pendings.lookup txId) hdesk).trans hinfo
    exact settled_desk hburns hinfo hdesk (settleActiveUtxoManagement_desk hinfo' hsettle) rfl
      hremove
  | failed info _ hinfo => exact burnFailed_desk hburns hinfo

/-! ### Dropping -/

/-- Clearing drops a replacement whose family is settled. -/
theorem internalClearInvalidPendingVerifyRbf_desk {id : Txid}
    (h : c.internalClearInvalidPendingVerifyRbf id = some c') : Desk.Drop c.desk c'.desk := by
  simp only [Contract.internalClearInvalidPendingVerifyRbf, Option.bind_eq_bind,
    Option.bind_eq_some_iff, require_eq_some, exists_and_left, exists_const, Prod.exists] at h
  obtain ⟨c₁, info, hremove, root, hroot, hgone, account, _, h⟩ := h
  obtain ⟨hinfo, rfl⟩ := internalRemoveBtcPendingInfo_spec hremove
  have hmut : Contract.internalUnwrapMutAccount
      { c with btcPendingInfos := c.btcPendingInfos.erase id } info.accountId (fun account ↦
        { account with btcPendingSignIds := account.btcPendingSignIds.erase id }) = some c' := by
    split at h
    · obtain ⟨_, _, hmut⟩ := Option.bind_eq_some_iff.mp h
      exact hmut
    · obtain ⟨_, _, hmut⟩ := Option.bind_eq_some_iff.mp h
      exact hmut
  rw [desk_dropSign hmut]
  exact .mk id root info hinfo hroot (Or.inl (Option.isNone_iff_eq_none.mp hgone))

theorem foldlM_clear_desk : ∀ {ids : List Txid} {c c' : Contract},
    ids.foldlM Contract.internalClearInvalidPendingVerifyRbf c = some c' →
      Relation.ReflTransGen Desk.Drop c.desk c'.desk := by
  intro ids
  induction ids with
  | nil =>
    intro c c' h
    rw [List.foldlM_nil, Option.pure_def, Option.some.injEq] at h
    rw [h]
  | cons id ids ih =>
    intro c c' h
    simp only [List.foldlM_cons, Option.bind_eq_bind, Option.bind_eq_some_iff] at h
    obtain ⟨mid, hmid, hrest⟩ := h
    exact (ih hrest).head (internalClearInvalidPendingVerifyRbf_desk hmid)

theorem clearInvalidPendingVerifyRbf_desk {id : Txid}
    (h : c.clearInvalidPendingVerifyRbf env id = some receipt) :
    Desk.Effect Burns c.desk receipt.contract.desk := by
  simp only [Contract.clearInvalidPendingVerifyRbf, Option.bind_eq_bind, Option.bind_eq_some_iff,
    Option.some.injEq] at h
  obtain ⟨_, _, c₁, hclear, rfl⟩ := h
  exact .clear (.single (internalClearInvalidPendingVerifyRbf_desk hclear))

theorem batchClearInvalidPendingVerifyRbf_desk {ids : List Txid}
    (h : c.batchClearInvalidPendingVerifyRbf env ids = some receipt) :
    Desk.Effect Burns c.desk receipt.contract.desk := by
  simp only [Contract.batchClearInvalidPendingVerifyRbf, Option.bind_eq_bind,
    Option.bind_eq_some_iff, Option.some.injEq] at h
  obtain ⟨_, _, c₁, hclear, rfl⟩ := h
  exact .clear (foldlM_clear_desk hclear)

/-- A confirmed refund leaves the list of its owner. -/
theorem verifyRefundFinalizeCallback_desk {result : PromiseResult} {txId : Txid}
    (h : c.verifyRefundFinalizeCallback result txId = some receipt) :
    Desk.Effect Burns c.desk receipt.contract.desk := by
  simp only [Contract.verifyRefundFinalizeCallback, Contract.internalUnwrapBtcPendingInfo,
    BTCPendingInfo.assertRefundPendingVerifyTx, BTCPendingInfo.assertPendingVerify,
    Option.bind_eq_bind, Option.bind_eq_some_iff, require_eq_some, Option.some.injEq,
    exists_and_left, exists_const, Prod.exists] at h
  obtain ⟨_, _, _, info, hinfo, ⟨hrefund, hstage⟩, key, _, c₁, removed, hremove, c₂, hmut, rfl⟩ := h
  obtain ⟨_, rfl⟩ := internalRemoveBtcPendingInfo_spec hremove
  change Desk.Effect Burns c.desk c₂.desk
  rw [desk_removeFromVerifyList hmut]
  exact .finalise txId info hinfo hrefund hstage

theorem removeRefundPendingTxId_desk {txId : Txid}
    (h : c.removeRefundPendingTxId env txId = some receipt) :
    Desk.Effect Burns c.desk receipt.contract.desk := by
  simp only [Contract.removeRefundPendingTxId, Contract.internalUnwrapBtcPendingInfo,
    BTCPendingInfo.assertRefundRelated, Option.bind_eq_bind, Option.bind_eq_some_iff,
    require_eq_some, Option.some.injEq, exists_and_left, exists_const, Prod.exists] at h
  obtain ⟨_, _, _, _, info, hinfo, hrefund, key, _, _, c₁, removed, hremove, c₂, hmut, rfl⟩ := h
  obtain ⟨_, rfl⟩ := internalRemoveBtcPendingInfo_spec hremove
  change Desk.Effect Burns c.desk c₂.desk
  rw [desk_mutAccount hmut]
  exact .dropRefund txId info hinfo hrefund

/-! ### Receipts -/

/-- Every call is one step of the desk. -/
theorem call_desk {method : Method} (laws : host.ReadsAddresses) (hkeyed : c.Keyed host)
    (h : c.call host env method = some receipt) :
    Desk.Effect Burns c.desk receipt.contract.desk := by
  cases method with
  | verifyDepositV2 => exact (verifyDepositV2_receipt h).2.quiet.desk
  | verifyWithdrawV2 => exact (verifyWithdrawV2_receipt host h).2.quiet.desk
  | withdrawRbf => exact withdrawRbf_desk laws hkeyed h
  | cancelWithdraw => exact cancelWithdraw_desk laws hkeyed h
  | activeUtxoManagement => exact activeUtxoManagement_desk h
  | activeUtxoManagementRbf => exact activeUtxoManagementRbf_desk laws hkeyed h
  | cancelActiveUtxoManagement => exact cancelActiveUtxoManagement_desk laws hkeyed h
  | clearInvalidPendingVerifyRbf => exact clearInvalidPendingVerifyRbf_desk h
  | batchClearInvalidPendingVerifyRbf => exact batchClearInvalidPendingVerifyRbf_desk h
  | claimLostFound => exact (claimLostFound_receipt h).2.quiet.desk
  | requestRefund => exact (requestRefund_receipt h).2.quiet.desk
  | rejectRefund => exact (rejectRefund_receipt h).2.quiet.desk
  | executeRefund => exact executeRefund_desk h
  | removeRefundPendingTxId => exact removeRefundPendingTxId_desk h
  | ftOnTransfer => exact ftOnTransfer_desk h
  | signBtcTransaction => exact signBtcTransaction_desk h
  | withdrawProtocolFee => exact (withdrawProtocolFee_receipt host h).2.quiet.desk
  | completeFailedDepositMint => exact (completeFailedDepositMint_receipt h).2.quiet.desk
  | syncChainSignaturesRootPublicKey =>
    exact (syncChainSignaturesRootPublicKey_receipt host h).2.quiet.desk
  | _ =>
    obtain ⟨c', rfl, hc'⟩ := call_manages rfl h
    exact hc'.quiet.desk

/-- Every callback is one step of the desk; a replacement by the operators belongs to the owner of
its original. -/
theorem callback_desk {p : Promise} {result : PromiseResult} (laws : host.ReadsAddresses)
    (hkeyed : c.Keyed host) (hshaped : p.Shaped host) (hburns : ∀ id, p.burns = some id → Burns id)
    (howned : ∀ accountId id, p.cancels = some (accountId, id) →
      ∀ o, c.btcPendingInfos.lookup id = some o → o.state.originalTxId = none →
        o.state.isRefund = false → o.accountId = accountId)
    (h : c.callback host env result p = some receipt) :
    Desk.Effect Burns c.desk receipt.contract.desk := by
  cases p with
  | verifyDeposit => exact (verifyDepositCallback_receipt h).2.desk
  | verifySafeDeposit => exact (verifySafeDepositCallback_receipt h).2.desk
  | mint => exact (mintCallback_receipt h).2.desk
  | safeMint => exact (safeMintCallback_receipt h).2.desk
  | burnDetached =>
    cases h
    exact (Quiet.of_eq rfl).desk
  | verifyWithdraw => exact internalVerifyWithdrawCallback_desk h
  | verifyActiveUtxoManagement => exact verifyActiveUtxoManagementCallback_desk h
  | withdrawBurn => exact verifyWithdrawBurnCallback_desk (hburns _ rfl) h
  | activeUtxoManagementBurn => exact verifyActiveUtxoManagementBurnCallback_desk (hburns _ rfl) h
  | verifyRefundFinalize => exact verifyRefundFinalizeCallback_desk h
  | requestRefund => exact (requestRefundCallback_receipt h).2.quiet.desk
  | transferNbtc => exact (transferNbtcCallback_receipt h).2.quiet.desk
  | withdrawProtocolFee => exact (withdrawProtocolFeeCallback_receipt h).2.quiet.desk
  | sign => exact signBtcTransactionCallback_desk h
  | syncRootPublicKey => exact (syncRootPublicKeyCallback_receipt h).2.quiet.desk
  | ftOnTransfer => exact ftOnTransferCallback_desk h
  | rbf method accountId id =>
    refine rbfCallback_desk laws hshaped.1 hkeyed hshaped.2 ?_ h
    rintro (rfl | rfl)
    · exact howned accountId id rfl
    · exact howned accountId id rfl
  | activeUtxoManagement => exact activeUtxoManagementCallback_desk h
  | executeRefund => exact executeRefundCallback_desk h

end SatoshiBridge

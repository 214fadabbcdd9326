import SatoshiBridge.Properties.RingCapacity
import SatoshiBridge.Treasury.Burns
import SatoshiBridge.Treasury.Nbtc

/-!
# The bridge and its token as each other's

What every run of both contracts keeps: the bridge alone takes the steps of a run without them, it
keeps its token and its account there, every promise to a token goes to this one, and only a safe
mint waits for a transfer.
-/

set_option autoImplicit false
set_option relaxedAutoImplicit false

namespace SatoshiBridge

variable {host : Host} {env : Env} {c : Contract} {receipt : Receipt}

/-! ### The token of the bridge -/

/-- Only its token may tell the bridge about a transfer. -/
theorem ftOnTransfer_predecessor {senderId : AccountId} {amount : ℕ} {msg : TokenReceiverMessage}
    (h : c.ftOnTransfer host env senderId amount msg = some receipt) :
    env.predecessor = c.config.nbtcAccountId := by
  obtain ⟨_, _, hpredecessor, _⟩ := ftOnTransfer_inv h
  exact hpredecessor

theorem createBtcPendingInfo_returns {senderId : AccountId} {amount : ℕ} {target : String}
    {psbt : PsbtWrapper} {maxGasFee : Option ℕ}
    (h : c.createBtcPendingInfo host env senderId amount target psbt maxGasFee = some receipt) :
    receipt.returns = some (.u128 0) := by
  cases createBtcPendingInfo_inv h
  rfl

/-- A transfer that the bridge answers at once is kept in full. -/
theorem ftOnTransfer_returns {senderId : AccountId} {amount : ℕ} {msg : TokenReceiverMessage}
    (h : c.ftOnTransfer host env senderId amount msg = some receipt) :
    ∀ v ∈ receipt.returns, v = .u128 0 := by
  obtain ⟨_, _, _, haccepted⟩ := ftOnTransfer_inv h
  cases haccepted with
  | collected => exact fun v hv ↦ (Option.some.inj hv).symm
  | asked => exact fun v hv ↦ by cases hv
  | created _ _ _ _ _ _ _ _ _ _ hcreate =>
    rw [createBtcPendingInfo_returns hcreate]
    exact fun v hv ↦ (Option.some.inj hv).symm

/-- And so is one that it answers after it has asked for the block height. -/
theorem ftOnTransferCallback_returns {result : PromiseResult} {senderId : AccountId} {amount : ℕ}
    {target : String} {input : List OutPoint} {output : List TxOut} {maxGasFee : Option ℕ}
    {data : Option ChainSpecificData}
    (h : c.ftOnTransferCallback host env result senderId amount target input output maxGasFee data
      = some receipt) : receipt.returns = some (.u128 0) := by
  simp only [Contract.ftOnTransferCallback, Option.bind_eq_bind, Option.bind_eq_some_iff] at h
  obtain ⟨_, _, _, _, _, _, h⟩ := h
  exact createBtcPendingInfo_returns h

/-- A resized ring leaves the token as it is. -/
theorem resize_token {c' : Contract} (h : c.resizeBlockAmountRing = some c') :
    c'.config.nbtcAccountId = c.config.nbtcAccountId := by
  simp only [Contract.resizeBlockAmountRing, Option.bind_eq_bind, Option.bind_eq_some_iff,
    Option.some.injEq] at h
  obtain ⟨_, _, rfl⟩ := h
  rfl

/-- The bridge keeps its token, unless it is told to change it. -/
theorem call_token {method : Method}
    (hkeep : ∀ update, method = .updateConfig update →
      ∀ id ∈ update.nbtcAccountId, id = c.config.nbtcAccountId)
    (h : c.call host env method = some receipt) :
    receipt.contract.config.nbtcAccountId = c.config.nbtcAccountId := by
  by_cases hedit : (Action.call env method).editsConfig
  · cases method with
    | updateConfig update =>
      simp only [Contract.call, Contract.updateConfig, Option.bind_eq_bind,
        Option.bind_eq_some_iff, Option.some.injEq] at h
      obtain ⟨_, _, config, hconfig, c', hresize, rfl⟩ := h
      refine (resize_token hresize).trans ((ConfigUpdate.apply_spec hconfig).2.2.2.trans ?_)
      cases hid : update.nbtcAccountId with
      | none => rfl
      | some id => exact hkeep update rfl id hid
    | setConfirmationsStrategy bound confirmations =>
      simp only [Contract.call, Contract.setConfirmationsStrategy, Option.bind_eq_bind,
        Option.bind_eq_some_iff, Option.some.injEq] at h
      obtain ⟨_, _, c', hresize, _, _, rfl⟩ := h
      have htoken := resize_token hresize
      exact htoken
    | removeConfirmationsStrategy bound =>
      simp only [Contract.call, Contract.removeConfirmationsStrategy, Option.bind_eq_bind,
        Option.bind_eq_some_iff, Option.some.injEq] at h
      obtain ⟨_, _, _, _, _, _, c', hresize, _, _, rfl⟩ := h
      have htoken := resize_token hresize
      exact htoken
    | _ => exact hedit.elim
  · have hwindow := call_window hedit h
    exact congrArg Window.token hwindow

/-- Only calls change the token. -/
theorem Effect.token {Completes : Ledger → OutPoint → Prop} {cause : Cause} {l l' : Ledger}
    (h : Effect host Completes cause l l') (hcause : ∀ env method, cause ≠ .call env method) :
    l'.token = l.token := by
  cases h with
  | configure env method => exact absurd rfl (hcause env method)
  | _ => rfl

/-! ### The links -/

/-- The stages a promise can be in. -/
def Stage.Fits (σ : Setting) (p : Promise) : Stage → Prop
  | transferring t | resolving t _ =>
    t.senderId = σ.host.currentAccountId ∧ t.receiverId ≠ σ.host.currentAccountId ∧
      ∃ token msg info height, p = .safeMint token t.receiverId t.amount msg info height
  | waiting | answered _ => True

namespace World

variable {σ : Setting} {w w' : World σ}

/-- What a state of both contracts keeps. -/
structure Linked (w : World σ) : Prop where
  reachable : Sys.Reachable σ.host Sys.never w.sys
  token : w.contract.config.nbtcAccountId = σ.nbtcId
  promises : w.sys.ledger.PromisesTo σ.nbtcId
  bridgeId : w.nbtc.bridgeId = σ.host.currentAccountId
  registered : σ.host.currentAccountId ∈ w.nbtc.books
  stages : ∀ x ∈ w.inflight, x.2.Fits σ x.1

/-- What a guard allows to a call, and that the token stays. -/
theorem Allowed.call {guard : Sys.Guard} {method : Method}
    (h : w.Allowed guard (.call env method)) :
    Sys.Allowed σ.host guard w.sys (.call env method) ∧
      ∀ update, method = .updateConfig update → ∀ id ∈ update.nbtcAccountId, id = σ.nbtcId := by
  cases method with
  | updateConfig update =>
    refine ⟨trivial, fun update' heq ↦ ?_⟩
    cases heq
    exact h
  | _ => exact ⟨h, fun _ heq ↦ by cases heq⟩

/-! ### The bridge alone -/

theorem sys_apply (w : World σ) (receipt : Receipt) :
    (w.apply receipt).sys = w.sys.apply w.sys.inflight receipt := by
  have hinflight : (w.inflight ++ receipt.promises.map fun p ↦ (p, Stage.waiting)).map Prod.fst =
      w.inflight.map Prod.fst ++ receipt.promises := by
    rw [List.map_append, List.map_map]
    exact congrArg _ (List.map_id receipt.promises)
  unfold sys apply Sys.apply
  rw [hinflight]

theorem sys_take (w : World σ) (index : ℕ) :
    (w.take index).sys = ⟨w.contract, w.sys.inflight.eraseIdx index, w.log⟩ := by
  unfold sys take
  rw [List.eraseIdx_map]

theorem sys_drop (w : World σ) (index : ℕ) (p : Promise) (result : PromiseResult) :
    (w.drop index p result).sys = w.sys.drop index p result := by
  unfold sys drop take Sys.drop
  rw [List.eraseIdx_map]

theorem sys_getElem? {index : ℕ} {p : Promise} {stage : Stage}
    (hp : w.inflight[index]? = some (p, stage)) : w.sys.inflight[index]? = some p := by
  unfold sys
  rw [List.getElem?_map, hp]
  rfl

/-- The stage of a promise is nothing the bridge knows. -/
theorem sys_advance {index : ℕ} {p : Promise} {stage : Stage}
    (hp : w.inflight[index]? = some (p, stage)) (stage' : Stage) :
    (w.advance index p stage').sys = w.sys := by
  obtain ⟨hlt, hget⟩ := List.getElem?_eq_some_iff.mp (sys_getElem? hp)
  have hsame : (w.inflight.set index (p, stage')).map Prod.fst = w.inflight.map Prod.fst := by
    rw [List.map_set]
    change (w.sys.inflight).set index p = w.sys.inflight
    rw [← hget]
    exact List.set_getElem_self hlt
  unfold sys advance
  rw [hsame]

/-- The ledger before a promise is answered, from what remains without it. -/
theorem ledger_take {index : ℕ} {p : Promise} {stage : Stage}
    (hp : w.inflight[index]? = some (p, stage)) (cause : Cause) (htaken : cause.taken = {p}) :
    w.sys.ledger = cause.before (w.take index).sys.ledger := by
  obtain ⟨hlt, hget⟩ := List.getElem?_eq_some_iff.mp (sys_getElem? hp)
  have hperm : (w.sys.inflight : Multiset Promise) =
      {p} + (w.sys.inflight.eraseIdx index : Multiset Promise) := by
    rw [Multiset.singleton_add, Multiset.cons_coe, Multiset.coe_eq_coe, ← hget]
    exact (List.getElem_cons_eraseIdx_perm hlt).symm
  rw [sys_take]
  unfold Cause.before Sys.ledger
  rw [htaken, hperm]
  rfl

/-- A receipt of the bridge is a step of its ledger. -/
theorem apply_effect {Completes : Ledger → OutPoint → Prop} {cause : Cause}
    (h : Simulates σ.host Completes cause w.contract w.sys.inflight w.log receipt) :
    Effect σ.host Completes cause w.sys.ledger (w.apply receipt).sys.ledger := by
  refine h.1.of_eq ?_
  rw [sys_apply]
  simp only [Sys.ledger, Sys.apply, ← Multiset.coe_add, add_comm]
  rfl

namespace Linked

variable (h : w.Linked)

include h

theorem reached (laws : σ.host.Lawful) :
    Ledger.Reached σ.host Ledger.Unfinished w.sys.ledger :=
  (h.reachable.ofNever.ofUnfinished laws.toReadsAddresses)

theorem call_effect (laws : σ.host.Lawful) {method : Method}
    (hallowed : Sys.Allowed σ.host Sys.never w.sys (.call env method))
    (hcall : w.contract.call σ.host env method = some receipt) :
    Effect σ.host Ledger.Nowhere (.call env method) w.sys.ledger (w.apply receipt).sys.ledger := by
  have hkeyed := (h.reachable.wellShaped laws.toReadsAddresses).keyed
  refine apply_effect (call_simulates laws.toReadsAddresses hkeyed ?_ hcall)
  rintro msg txBytes vout fee rfl summary hsummary
  exact hallowed summary hsummary

theorem callback_effect (laws : σ.host.Lawful) {index : ℕ} {p : Promise} {stage : Stage}
    {result : PromiseResult} (hp : w.inflight[index]? = some (p, stage))
    (hanswers : p.Answers σ.host result)
    (hcallback : w.contract.callback σ.host env result p = some receipt) :
    Effect σ.host Ledger.Nowhere (.answer env p result) (w.take index).sys.ledger
      ((w.take index).apply receipt).sys.ledger := by
  have hwell := h.reachable.wellShaped laws.toReadsAddresses
  have hshaped : p.Shaped σ.host :=
    hwell.shaped p (Multiset.mem_coe.mpr (List.mem_of_getElem? (sys_getElem? hp)))
  exact apply_effect
    (callback_simulates laws.toReadsAddresses hwell.keyed hshaped hanswers hcallback)

/-- A step of the bridge. -/
theorem step (laws : σ.host.Lawful) (action : Action)
    (hallowed : Sys.Allowed σ.host Sys.never w.sys action)
    (hexec : w.sys.exec σ.host action = some w'.sys) (hnbtc : w'.nbtc = w.nbtc)
    (htoken : ∀ env method, action = .call env method →
      w'.contract.config.nbtcAccountId = w.contract.config.nbtcAccountId)
    (hstages : ∀ x ∈ w'.inflight, x ∈ w.inflight ∨ x.2 = .waiting) : w'.Linked := by
  have hwell := h.reachable.wellShaped laws.toReadsAddresses
  have hnever : ∀ s k, Sys.never s k → Ledger.Nowhere s.ledger k := fun _ _ hnever ↦ hnever
  obtain ⟨cause, mid, hmid, heffect, _, hcaused⟩ :=
    Sys.exec_effect laws.toReadsAddresses hnever hwell hallowed hexec
  have hmidToken : mid.token = w.contract.config.nbtcAccountId := (congrArg Ledger.token hmid).symm
  have hmidPromises : mid.PromisesTo σ.nbtcId := by
    intro p hp
    refine h.promises p ?_
    rw [hmid]
    exact Multiset.mem_add.mpr (Or.inr hp)
  refine {
    reachable := h.reachable.next hallowed hexec
    token := ?_
    promises := hmidPromises.step (hmidToken.trans h.token) heffect
    bridgeId := by rw [hnbtc]; exact h.bridgeId
    registered := by rw [hnbtc]; exact h.registered
    stages := fun x hx ↦ ?_ }
  · cases action with
    | call env method => exact (htoken env method rfl).trans h.token
    | callback | lose => exact (heffect.token hcaused).trans (hmidToken.trans h.token)
  · rcases hstages x hx with hold | hwaiting
    · exact h.stages x hold
    · rw [hwaiting]
      trivial

/-- A step of the token alone. -/
theorem still (w' : World σ) (hsys : w'.sys = w.sys) {lost gained burnt minted : ℕ}
    (hmoves : w.nbtc.Moves w'.nbtc lost gained burnt minted)
    (hstages : ∀ x ∈ w'.inflight, x.2.Fits σ x.1) : w'.Linked where
  reachable := by
    rw [hsys]
    exact h.reachable
  token := by
    have hcontract : w'.contract = w.contract := congrArg Sys.contract hsys
    rw [hcontract]
    exact h.token
  promises := by
    rw [hsys]
    exact h.promises
  bridgeId := hmoves.bridgeId.trans h.bridgeId
  registered := by
    have hkept := hmoves.registered
    rw [h.bridgeId] at hkept
    exact hkept h.registered
  stages := hstages

end Linked

end World

end SatoshiBridge

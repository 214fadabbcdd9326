import SatoshiBridge.Treasury.Accounts

/-!
# The token executes the promises

Every call of the bridge that the token executes, or that fails, keeps the accounts of the run. A
burn nobody awaits cannot fail: the bridge always has the tokens, because the costs of the executed
burns are in its escrow and its reserved fees.
-/

set_option autoImplicit false
set_option relaxedAutoImplicit false

namespace SatoshiBridge

namespace World

variable {σ : Setting} {w w' : World σ} {index : ℕ} {p : Promise} {call : NbtcCall}

/-- The state after the token has executed the call of a promise. -/
def executed (w : World σ) (index : ℕ) (p : Promise) (receipt : NbtcReceipt σ.ft) : World σ :=
  { (w.advance index p receipt.answer.stage).send receipt.detached with nbtc := receipt.contract }

theorem demands_executed (w : World σ) (index : ℕ) (p : Promise) (receipt : NbtcReceipt σ.ft) :
    (w.executed index p receipt).demands =
      w.demands + demandOf σ.host.currentAccountId receipt.detached := demandOf_append _ _ _

theorem demandOf_detached {ft : FungibleToken} {receipt : NbtcReceipt ft} (bridge : AccountId)
    (h : receipt.postActions = none) : demandOf bridge receipt.detached = 0 := by
  unfold NbtcReceipt.detached
  rw [h]
  rfl

/-- A promise whose call has come further keeps its links. -/
theorem Linked.moved (h : w.Linked) (w' : World σ) {stage : Stage} (stage' : Stage)
    (hp : w.inflight[index]? = some (p, stage)) (hsys : w'.sys = w.sys)
    {lost gained burnt minted : ℕ} (hmoves : w.nbtc.Moves w'.nbtc lost gained burnt minted)
    (hinflight : w'.inflight = (w.advance index p stage').inflight) (hfits : stage'.Fits σ p) :
    w'.Linked := by
  refine h.still w' hsys hmoves fun x hx ↦ ?_
  rw [hinflight] at hx
  rcases mem_advance hp hx with heq | hrest
  · rw [heq]
    exact hfits
  · exact h.stages x (mem_take hrest)

/-- What an awaited burn pays is what its transaction says. -/
theorem Linked.read_burn (hlinked : w.Linked) (laws : σ.host.Lawful) (honce : AttestsOnce w.log)
    {stage : Stage}
    (hp : w.inflight[index]? = some (p, stage)) {id : Txid} (hid : p.burns = some id) :
    ∃ token info withdraw, BurnOf token info id withdraw p ∧
      w.sys.ledger.read BTCPendingInfo.burnAmount id = info.burnAmount ∧
      w.sys.ledger.read BTCPendingInfo.debit id =
        info.burnAmount + if withdraw then info.withdrawFee else 0 := by
  have hreached := hlinked.reached laws
  have hmem : p ∈ w.sys.ledger.inflight :=
    Multiset.mem_coe.mpr (List.mem_of_getElem? (sys_getElem? hp))
  obtain ⟨info, o, hinfo, _⟩ := (hreached.unsettled laws hmem hid).pending laws hreached honce
  obtain ⟨token, withdraw, hburn, hrelated⟩ := hreached.burnOf laws hmem hid hinfo
  refine ⟨token, info, withdraw, hburn, Ledger.read_of_lookup hinfo, ?_⟩
  rw [Ledger.read_of_lookup hinfo, BTCPendingInfo.debit, hrelated]

/-! ### Calls that fail -/

/-- A call that fails leaves the tokens where they are. -/
theorem Accounts.fail {strict : Prop} {paid : Finset Txid} {stage : Stage}
    (h : Accounts strict w paid none 0 0) (hlinked : w.Linked) (laws : σ.host.Lawful)
    (standard : σ.ft.Standard) (hp : w.inflight[index]? = some (p, stage))
    (hcall : p.nbtcCall = some call) (hstage : stage.executes = true) (hfail : p.mayFail = true) :
    Accounts strict (w.advance index p (.answered .failed)) paid none 0 0 := by
  have hsucceeded : stage.succeeded = false := by
    cases stage with
    | answered => cases hstage
    | _ => rfl
  refine h.advance hlinked laws standard (w.advance index p (.answered .failed)) (sys_advance hp _)
    (.refl w.nbtc) (.answered .failed) hp rfl ?_ ?_ fun _ _ ↦ hsucceeded.symm
  · change p.owed (.answered .failed) + w.demands + 0 ≤ p.owed stage + w.demands + 0
    have howed : p.owed (.answered .failed) ≤ p.owed stage := by
      cases p with
      | mint | safeMint | withdrawBurn | activeUtxoManagementBurn => exact Nat.zero_le _
      | transferNbtc token accountId amount | withdrawProtocolFee token accountId amount =>
        change amount ≤ if stage.succeeded then 0 else amount
        rw [hsucceeded]
        exact le_refl amount
      | burnDetached => cases hfail
      | _ => cases hcall
    omega
  · have hunminted : p.unminted (.answered .failed) ≤ p.unminted stage := by
      cases p with
      | mint token recipientId mintAmount protocolFee relayerAccountId relayerFee =>
        change mintAmount + protocolFee + relayerFee ≤
          if stage.succeeded then 0 else mintAmount + protocolFee + relayerFee
        rw [hsucceeded]
        exact le_refl _
      | burnDetached => cases hfail
      | _ => exact Nat.zero_le _
    have hunburnt : p.unburnt stage = 0 := by
      cases p with
      | burnDetached => cases hfail
      | _ => rfl
    omega

/-! ### Calls that are executed -/

section Executed

variable {strict : Prop} {paid : Finset Txid} {receipt : NbtcReceipt σ.ft}
  (h : Accounts strict w paid none 0 0) (hlinked : w.Linked) (laws : σ.host.Lawful)
  (standard : σ.ft.Standard)

include h hlinked laws standard

theorem Accounts.execute_mint {token recipientId relayerAccountId : AccountId}
    {mintAmount protocolFee relayerFee : ℕ} {postActions : Option (List PostAction)}
    {info : PendingUTXOInfo} {height : Option ℕ}
    (hp : w.inflight[index]? = some (p, .waiting))
    (hpromise : p = .mint token recipientId mintAmount protocolFee relayerAccountId relayerFee
      postActions info height)
    (hexec : w.nbtc.mint (nbtcEnv σ call) recipientId mintAmount protocolFee relayerAccountId
      relayerFee postActions = some receipt) :
    (w.executed index p receipt).Linked ∧
      Accounts strict (w.executed index p receipt) paid none 0 0 := by
  obtain ⟨_, hanswer, hactions, hmoves⟩ := NbtcContract.mint_moves standard hexec
  have hgrounded : p.Grounded σ.host w.sys.ledger.chain :=
    ((hlinked.reached laws).grounded laws).promises p
      (Multiset.mem_coe.mpr (List.mem_of_getElem? (sys_getElem? hp)))
  have hsys : (w.executed index p receipt).sys = w.sys := sys_advance hp _
  have hstage : receipt.answer.stage = .answered (.value .unit) := by
    rw [hanswer]
    rfl
  have hdetached : demandOf σ.host.currentAccountId receipt.detached ≤
      if w.nbtc.bridgeId = recipientId then mintAmount else 0 := by
    rw [hpromise] at hgrounded
    have hamount : postActionsAmount postActions ≤ mintAmount := hgrounded.2.2
    unfold NbtcReceipt.detached
    rw [hactions]
    cases postActions with
    | none => exact Nat.zero_le _
    | some actions =>
      change demandOf σ.host.currentAccountId [.postActions recipientId actions] ≤ _
      rw [demandOf_singleton, hlinked.bridgeId]
      change (if σ.host.currentAccountId = recipientId then (actions.map PostAction.amount).sum
        else 0) ≤ if σ.host.currentAccountId = recipientId then mintAmount else 0
      split
      · exact hamount
      · exact le_refl 0
  have hdemands := demands_executed w index p receipt
  refine ⟨hlinked.moved (w.executed index p receipt) receipt.answer.stage hp hsys hmoves rfl ?_,
    h.advance hlinked laws standard (w.executed index p receipt) hsys hmoves receipt.answer.stage hp
      rfl ?_ ?_ ?_⟩
  · rw [hstage]
    trivial
  · rw [hstage, hpromise]
    rw [hpromise] at hdemands
    change protocolFee + _ + 0 ≤ 0 + w.demands + _
    omega
  · rw [hstage, hpromise]
    change 0 + _ + 0 ≤ mintAmount + protocolFee + relayerFee + 0 + 0
    omega
  · intro id hid
    rw [hpromise] at hid
    cases hid

theorem Accounts.execute_safeMint {token recipientId : AccountId} {mintAmount : ℕ}
    {msg : Option String} {info : PendingUTXOInfo} {height : Option ℕ}
    (hp : w.inflight[index]? = some (p, .waiting))
    (hpromise : p = .safeMint token recipientId mintAmount msg info height)
    (hexec : w.nbtc.safeMint (nbtcEnv σ call) recipientId mintAmount msg = some receipt) :
    (w.executed index p receipt).Linked ∧
      Accounts strict (w.executed index p receipt) paid none 0 0 := by
  obtain ⟨_, hreceiver, hactions, hcases⟩ := NbtcContract.safeMint_moves standard hexec
  have hsys : (w.executed index p receipt).sys = w.sys := sys_advance hp _
  have hdemands : (w.executed index p receipt).demands = w.demands := by
    rw [demands_executed, demandOf_detached _ hactions, add_zero]
  have hnoBurn : ∀ id, p.burns = some id →
      receipt.answer.stage.succeeded = Stage.waiting.succeeded := by
    intro id hid
    rw [hpromise] at hid
    cases hid
  have hkeeps {gained : ℕ} (hmoves : w.nbtc.Moves receipt.contract 0 gained 0 mintAmount)
      (hfits : receipt.answer.stage.Fits σ p) (hbooked : p.owed receipt.answer.stage ≤ gained)
      (hminted : p.unminted receipt.answer.stage = 0) :
      (w.executed index p receipt).Linked ∧
        Accounts strict (w.executed index p receipt) paid none 0 0 := by
    refine ⟨hlinked.moved (w.executed index p receipt) receipt.answer.stage hp hsys hmoves rfl
      hfits, h.advance hlinked laws standard (w.executed index p receipt) hsys hmoves
        receipt.answer.stage hp rfl ?_ ?_ hnoBurn⟩
    · omega
    · rw [hminted, hpromise]
      change 0 + mintAmount + 0 ≤ mintAmount + 0 + 0
      omega
  rcases hcases with ⟨hanswer, hmoves⟩ | ⟨hanswer | ⟨text, hanswer⟩, hmoves⟩
  · refine hkeeps hmoves ?_ ?_ ?_ <;> rw [hanswer]
    · trivial
    · rw [hpromise]
      exact le_refl mintAmount
    · rw [hpromise]
      rfl
  · refine hkeeps hmoves ?_ ?_ ?_ <;> rw [hanswer]
    · trivial
    · rw [hpromise]
      change (if decide (mintAmount = 0) = true then mintAmount else 0) ≤ 0
      split
      · rename_i hzero
        exact (of_decide_eq_true hzero).le
      · exact le_refl 0
    · rw [hpromise]
      rfl
  · refine hkeeps hmoves ?_ ?_ ?_ <;> rw [hanswer]
    · refine ⟨hlinked.bridgeId, ?_, token, msg, info, height, hpromise⟩
      rw [← hlinked.bridgeId]
      exact hreceiver
    · rw [hpromise]
      exact le_refl 0
    · rw [hpromise]
      rfl

/-- The promises that transfer tokens of the bridge. -/
theorem Accounts.execute_transfer {receiverId : AccountId} {amount : ℕ} {nbtc : NbtcContract σ.ft}
    (hp : w.inflight[index]? = some (p, .waiting))
    (hpromise : ∀ stage, p.owed stage = (if stage.succeeded then 0 else amount) ∧
      p.unminted stage = 0 ∧ p.unburnt stage = 0 ∧ p.burns = none)
    (hexec : w.nbtc.ftTransfer (nbtcEnv σ call) receiverId amount none = some nbtc) :
    (w.executed index p (NbtcContract.returning nbtc .unit)).Linked ∧
      Accounts strict (w.executed index p (NbtcContract.returning nbtc .unit)) paid none 0 0 := by
  have hmoves := NbtcContract.ftTransfer_moves standard hexec
  have hpaid : w.nbtc.Moves nbtc amount 0 0 0 :=
    hmoves.weaken (by split <;> omega) (le_refl _) (le_refl _) (le_refl _)
  have hsys : (w.executed index p (NbtcContract.returning nbtc .unit)).sys = w.sys :=
    sys_advance hp _
  have hdemands : (w.executed index p (NbtcContract.returning nbtc .unit)).demands = w.demands := by
    rw [demands_executed, demandOf_detached _ rfl, add_zero]
  obtain ⟨howed, hminted, hunburnt, hburns⟩ := hpromise .waiting
  obtain ⟨howed', hminted', hunburnt', _⟩ := hpromise (.answered (.value .unit))
  refine ⟨hlinked.moved (w.executed index p (NbtcContract.returning nbtc .unit))
    (.answered (.value .unit)) hp hsys hpaid rfl trivial, h.advance hlinked laws standard
      (w.executed index p (NbtcContract.returning nbtc .unit)) hsys hpaid (.answered (.value .unit))
      hp rfl ?_ ?_ ?_⟩
  · rw [howed, howed', hdemands]
    change 0 + w.demands + amount ≤ amount + w.demands + 0
    omega
  · omega
  · intro id hid
    rw [hburns] at hid
    cases hid

/-- The burns that a confirmation awaits. -/
theorem Accounts.execute_burn {id : Txid} {burnAccountId relayerAccountId : AccountId}
    {amount relayerFee : ℕ} (hp : w.inflight[index]? = some (p, .waiting))
    (hid : p.burns = some id)
    (hdebit : p.owed (.answered (.value .unit)) + (amount + relayerFee) ≤
      w.sys.ledger.read BTCPendingInfo.debit id)
    (hburnt : w.sys.ledger.read BTCPendingInfo.burnAmount id ≤ amount)
    (hexec : w.nbtc.burn (nbtcEnv σ call) burnAccountId amount relayerAccountId relayerFee =
      some receipt) :
    (w.executed index p receipt).Linked ∧
      Accounts strict (w.executed index p receipt) (insert id paid) none 0 0 := by
  obtain ⟨_, hanswer, hactions, hmoves⟩ := NbtcContract.burn_moves standard hexec
  have hsys : (w.executed index p receipt).sys = w.sys := sys_advance hp _
  have hstage : receipt.answer.stage = .answered (.value .unit) := by
    rw [hanswer]
    rfl
  have hdemands : (w.executed index p receipt).demands = w.demands := by
    rw [demands_executed, demandOf_detached _ hactions, add_zero]
  have hcoinless : ∀ stage, p.unminted stage = 0 ∧ p.unburnt stage = 0 := by
    intro stage
    cases p with
    | withdrawBurn | activeUtxoManagementBurn => exact ⟨rfl, rfl⟩
    | _ => cases hid
  have hunminted := (hcoinless receipt.answer.stage).1
  have hunburnt := (hcoinless .waiting).2
  refine ⟨hlinked.moved (w.executed index p receipt) receipt.answer.stage hp hsys hmoves rfl ?_,
    h.pay hlinked laws standard (w.executed index p receipt) hsys hmoves receipt.answer.stage hp rfl
      hid rfl ?_ ?_ ?_⟩
  · rw [hstage]
    trivial
  · rw [hstage]
    rfl
  · rw [hstage]
    omega
  · omega

/-- The bridge has the tokens of a burn nobody awaits. -/
theorem Accounts.burn_executes (honce : AttestsOnce w.log)
    {token burnAccountId relayerAccountId : AccountId} {amount relayerFee : ℕ}
    (hp : w.inflight[index]? = some
      (.burnDetached token burnAccountId amount relayerAccountId relayerFee, .waiting))
    (call : NbtcCall) : ∃ receipt,
      w.nbtc.burn (nbtcEnv σ call) burnAccountId amount relayerAccountId relayerFee =
        some receipt := by
  have hreached := hlinked.reached laws
  have hmem := Multiset.mem_coe.mpr (List.mem_of_getElem? (sys_getElem? hp))
  have hfee : relayerFee = 0 := (hlinked.promises _ hmem).detached
  have hcosts : w.sys.ledger.amount BTCPendingInfo.debit paid ≤
      pendingTotal BTCPendingInfo.escrow w.sys.ledger.pendings + w.sys.ledger.fees.reserved :=
    hreached.amount_debit_le laws honce h.unsettled
  have howes : pendingTotal BTCPendingInfo.escrow w.sys.ledger.pendings +
      w.sys.ledger.fees.reserved ≤ w.sys.ledger.owes := by
    unfold Ledger.owes tokensOwed
    omega
  have hamount : amount ≤ w.balance := by
    have htokens := h.tokens
    rw [sum_take _ hp] at htokens
    change w.sys.ledger.owes + (amount + relayerFee + (w.take index).sum Promise.owed) +
      w.demands + 0 ≤ w.balance + w.sys.ledger.amount BTCPendingInfo.debit paid at htokens
    omega
  have hbalance : w.balance = w.nbtc.books.balance w.nbtc.bridgeId := by
    rw [hlinked.bridgeId]
    rfl
  have hregistered : w.nbtc.bridgeId ∈ w.nbtc.books := by
    rw [hlinked.bridgeId]
    exact hlinked.registered
  rw [hbalance] at hamount
  rw [hfee]
  exact NbtcContract.burn_of_le standard hlinked.bridgeId.symm hregistered hamount

/-- A burn nobody awaits is executed. -/
theorem Accounts.execute_detached {token burnAccountId relayerAccountId : AccountId}
    {amount relayerFee : ℕ}
    (hp : w.inflight[index]? = some
      (.burnDetached token burnAccountId amount relayerAccountId relayerFee, .waiting))
    (hexec : w.nbtc.burn (nbtcEnv σ call) burnAccountId amount relayerAccountId relayerFee =
      some receipt) :
    (w.executed index (.burnDetached token burnAccountId amount relayerAccountId relayerFee)
        receipt).Linked ∧
      Accounts strict (w.executed index
        (.burnDetached token burnAccountId amount relayerAccountId relayerFee) receipt)
        paid none 0 0 := by
  obtain ⟨_, hanswer, hactions, hmoves⟩ := NbtcContract.burn_moves standard hexec
  have hstage : receipt.answer.stage = .answered (.value .unit) := by
    rw [hanswer]
    rfl
  have hdemands := demands_executed w index
    (.burnDetached token burnAccountId amount relayerAccountId relayerFee) receipt
  rw [demandOf_detached _ hactions] at hdemands
  refine ⟨hlinked.moved (w.executed index _ receipt) receipt.answer.stage hp (sys_advance hp _)
    hmoves rfl ?_, h.advance hlinked laws standard (w.executed index _ receipt) (sys_advance hp _)
      hmoves receipt.answer.stage hp rfl ?_ ?_ fun _ hid ↦ by cases hid⟩
  · rw [hstage]
    trivial
  · rw [hstage, hdemands]
    change 0 + (w.demands + 0) + (amount + relayerFee) ≤ amount + relayerFee + w.demands + 0
    omega
  · rw [hstage]
    change 0 + 0 + amount ≤ 0 + amount + 0
    omega

/-- The token executes the call of a promise, or cannot. -/
theorem Accounts.execute (honce : AttestsOnce w.log) (hp : w.inflight[index]? = some (p, .waiting))
    (hcall : p.nbtcCall = some call) :
    (w.execute index p call).Linked ∧
      ∃ paid', Accounts strict (w.execute index p call) paid' none 0 0 := by
  unfold World.execute
  cases hexec : w.nbtc.call (nbtcEnv σ call) call.method with
  | none =>
    refine ⟨hlinked.moved (w.advance index p (.answered .failed)) (.answered .failed) hp
      (sys_advance hp _) (.refl w.nbtc) rfl trivial, paid,
        h.fail hlinked laws standard hp hcall rfl ?_⟩
    cases p with
    | burnDetached token burnAccountId amount relayerAccountId relayerFee =>
      obtain ⟨receipt, hreceipt⟩ := h.burn_executes hlinked laws standard honce hp call
      cases hcall
      have hnone : w.nbtc.burn (nbtcEnv σ _) burnAccountId amount relayerAccountId relayerFee =
        none := hexec
      rw [hnone] at hreceipt
      cases hreceipt
    | _ => rfl
  | some receipt =>
    change (w.executed index p receipt).Linked ∧ ∃ paid', Accounts strict
      (w.executed index p receipt) paid' none 0 0
    have hkept (hsame : (w.executed index p receipt).Linked ∧
        Accounts strict (w.executed index p receipt) paid none 0 0) :
        (w.executed index p receipt).Linked ∧
          ∃ paid', Accounts strict (w.executed index p receipt) paid' none 0 0 :=
      ⟨hsame.1, paid, hsame.2⟩
    have hread {id : Txid} (hid : p.burns = some id) :=
      Linked.read_burn hlinked laws honce hp hid
    cases p with
    | mint =>
      cases hcall
      exact hkept (h.execute_mint hlinked laws standard hp rfl hexec)
    | safeMint =>
      cases hcall
      exact hkept (h.execute_safeMint hlinked laws standard hp rfl hexec)
    | burnDetached token burnAccountId amount relayerAccountId relayerFee =>
      cases hcall
      have hrun : w.nbtc.burn (nbtcEnv σ _) burnAccountId amount relayerAccountId relayerFee =
        some receipt := hexec
      exact hkept (h.execute_detached hlinked laws standard hp hrun)
    | withdrawBurn token burnAccountId burnAmount relayerAccountId relayerFee txId protocolFee =>
      cases hcall
      obtain ⟨_, info, withdraw, hburn, hburnAmount, hdebit⟩ := hread rfl
      cases hburn with
      | withdraw relayer relayerFee protocolFee hfee =>
        rw [if_pos rfl] at hdebit
        have hrun : w.nbtc.burn (nbtcEnv σ _) info.accountId info.burnAmount relayerAccountId
          relayerFee = some receipt := hexec
        obtain ⟨hlinked', haccounts⟩ := h.execute_burn hlinked laws standard hp rfl
          (by change protocolFee + _ ≤ _; omega) hburnAmount.le hrun
        exact ⟨hlinked', _, haccounts⟩
    | activeUtxoManagementBurn token burnAccountId burnAmount relayerAccountId txId =>
      cases hcall
      obtain ⟨_, info, withdraw, hburn, hburnAmount, hdebit⟩ := hread rfl
      cases hburn with
      | active relayer =>
        have hrun : w.nbtc.burn (nbtcEnv σ _) info.accountId info.burnAmount relayerAccountId 0 =
          some receipt := hexec
        obtain ⟨hlinked', haccounts⟩ := h.execute_burn hlinked laws standard hp rfl
          (by change 0 + _ ≤ _; omega) hburnAmount.le hrun
        exact ⟨hlinked', _, haccounts⟩
    | transferNbtc | withdrawProtocolFee =>
      cases hcall
      simp only [NbtcContract.call, Option.bind_eq_bind, Option.bind_eq_some_iff,
        Option.some.injEq] at hexec
      obtain ⟨nbtc, htransfer, rfl⟩ := hexec
      exact hkept (h.execute_transfer hlinked laws standard hp
        (fun _ ↦ ⟨rfl, rfl, rfl, rfl⟩) htransfer)
    | _ => cases hcall

/-- The receiver of a safe mint answers. -/
theorem Accounts.receiver_answers {t : Transfer}
    (hp : w.inflight[index]? = some (p, .transferring t)) (result : PromiseResult) :
    (w.advance index p (.resolving t result)).Linked ∧
      Accounts strict (w.advance index p (.resolving t result)) paid none 0 0 := by
  have hfits : Stage.Fits σ p (.transferring t) := hlinked.stages _ (List.mem_of_getElem? hp)
  obtain ⟨_, _, token, msg, info, height, hpromise⟩ := hfits
  refine ⟨hlinked.moved (w.advance index p (.resolving t result)) (.resolving t result) hp
    (sys_advance hp _) (.refl w.nbtc) rfl (hlinked.stages _ (List.mem_of_getElem? hp)), h.advance
      hlinked laws standard (w.advance index p (.resolving t result)) (sys_advance hp _)
      (.refl w.nbtc) (.resolving t result) hp rfl ?_ ?_ fun _ _ ↦ rfl⟩
  · rw [hpromise]
    exact le_refl _
  · rw [hpromise]
    exact le_refl _

/-- The transfer of a safe mint is resolved: what its receiver has not used at all is back. -/
theorem Accounts.resolve_mint {t : Transfer} {result : PromiseResult}
    (hp : w.inflight[index]? = some (p, .resolving t result)) :
    (w.resolve index p t result).Linked ∧
      Accounts strict (w.resolve index p t result) paid none 0 0 := by
  have hfits : Stage.Fits σ p (.resolving t result) := hlinked.stages _ (List.mem_of_getElem? hp)
  obtain ⟨hsender, hreceiver, token, msg, info, height, hpromise⟩ := hfits
  unfold World.resolve
  split
  · rename_i nbtc used hresolve
    obtain ⟨returned, hused, hmoves⟩ := NbtcContract.ftResolveTransfer_moves standard hresolve
    rw [hlinked.bridgeId, if_neg (Ne.symm hreceiver), if_pos hsender.symm] at hmoves
    refine ⟨hlinked.moved _ (.answered (.value (.u128 used))) hp (sys_advance hp _) hmoves rfl
      trivial, h.advance hlinked laws standard _ (sys_advance hp _) hmoves
        (.answered (.value (.u128 used))) hp rfl ?_ ?_ fun id hid ↦ ?_⟩
    · rw [hpromise]
      change (if decide (used = 0) = true then t.amount else 0) + w.demands + 0 ≤
        0 + w.demands + returned
      split
      · rename_i hzero
        have hnone : used = 0 := of_decide_eq_true hzero
        omega
      · omega
    · rw [hpromise]
      exact le_refl _
    · rw [hpromise] at hid
      cases hid
  · refine ⟨hlinked.moved _ (.answered .failed) hp (sys_advance hp _) (.refl w.nbtc) rfl trivial,
      h.advance hlinked laws standard _ (sys_advance hp _) (.refl w.nbtc) (.answered .failed) hp rfl
        ?_ ?_ fun _ _ ↦ rfl⟩
    · rw [hpromise]
      exact le_refl _
    · rw [hpromise]
      exact le_refl _

end Executed

/-! ### Receipts of the token itself -/

theorem demands_next {flow : Flow} (hflow : w.flows[index]? = some flow) (flows : List Flow) :
    (w.next index flows).demands + flow.demand σ.host.currentAccountId =
      w.demands + demandOf σ.host.currentAccountId flows := by
  have hafter : (w.next index flows).demands =
      demandOf _ (w.flows.eraseIdx index) + demandOf _ flows := demandOf_append _ _ _
  have hbefore : w.demands = _ := demandOf_eraseIdx σ.host.currentAccountId hflow
  omega

/-- A receipt of the token takes no more than it demands. -/
theorem run_moves {ft : FungibleToken} (standard : ft.Standard) {nbtc nbtc' : NbtcContract ft}
    {prepaidGas : ℕ} {flow : Flow} {flows : List Flow}
    (h : flow.run nbtc prepaidGas = some (nbtc', flows)) :
    ∃ lost gained, nbtc.Moves nbtc' lost gained 0 0 ∧
      demandOf nbtc.bridgeId flows + lost ≤ flow.demand nbtc.bridgeId + gained := by
  cases flow with
  | transfer t => cases h
  | resolve senderId receiverId amount result =>
    simp only [Flow.run] at h
    split at h
    · rename_i nbtc'' used hresolve
      cases h
      obtain ⟨returned, _, hmoves⟩ := NbtcContract.ftResolveTransfer_moves standard hresolve
      refine ⟨_, _, hmoves, ?_⟩
      change 0 + _ ≤ (if nbtc.bridgeId = receiverId then unusedAmount amount result else 0) + _
      omega
    · cases h
      exact ⟨0, 0, .refl nbtc, Nat.zero_le _⟩
  | postActions senderId actions =>
    cases h
    refine ⟨0, 0, .refl nbtc, ?_⟩
    have hsum : demandOf nbtc.bridgeId (actions.map (.postAction senderId)) =
        if nbtc.bridgeId = senderId then (actions.map PostAction.amount).sum else 0 := by
      unfold demandOf
      rw [List.map_map]
      split
      · rename_i hbridge
        refine congrArg List.sum (List.map_congr_left fun action _ ↦ ?_)
        exact if_pos hbridge
      · rename_i hother
        refine List.sum_eq_zero fun n hn ↦ ?_
        obtain ⟨action, _, rfl⟩ := List.mem_map.mp hn
        exact if_neg hother
    rw [hsum]
    exact le_refl _
  | postAction senderId action =>
    simp only [Flow.run] at h
    split at h
    · rename_i nbtc'' t haction
      cases h
      obtain ⟨hreceiver, hmoves⟩ := NbtcContract.handlePostAction_moves standard haction
      refine ⟨_, _, hmoves, ?_⟩
      rw [demandOf_singleton]
      change (if nbtc.bridgeId = t.receiverId then t.amount else 0) + _ ≤
        (if nbtc.bridgeId = senderId then action.amount else 0) + 0
      rw [if_neg (Ne.symm hreceiver)]
      omega
    · cases h
      exact ⟨0, 0, .refl nbtc, Nat.zero_le _⟩

section Receipts

variable {strict : Prop} {paid : Finset Txid} {flow : Flow}
  (h : Accounts strict w paid none 0 0) (hlinked : w.Linked) (standard : σ.ft.Standard)

include h hlinked standard

/-- Somebody else calls the token. -/
theorem Accounts.call_nbtc {env : NbtcEnv} {method : NbtcMethod} {receipt : NbtcReceipt σ.ft}
    (hother : env.predecessor ≠ σ.host.currentAccountId)
    (hcall : w.nbtc.call env method = some receipt)
    (hw' : w' = { w.send (receipt.answer.flows ++ receipt.detached) with
      nbtc := receipt.contract }) :
    w'.Linked ∧ Accounts strict w' paid none 0 0 := by
  subst hw'
  rw [← hlinked.bridgeId] at hother
  obtain ⟨hactions, hmoves⟩ := NbtcContract.call_moves standard hother hcall
  have hdemands : demandOf σ.host.currentAccountId (w.flows ++
      (receipt.answer.flows ++ receipt.detached)) =
        w.demands + receipt.answer.demand σ.host.currentAccountId := by
    rw [demandOf_append, demandOf_append, NbtcAnswer.demandOf_flows, demandOf_detached _ hactions,
      add_zero]
    rfl
  rw [hlinked.bridgeId] at hmoves
  exact ⟨hlinked.still _ rfl hmoves hlinked.stages,
    h.flow hlinked standard _ rfl hmoves rfl hdemands.le (le_refl 0)⟩

/-- A receipt of the token runs. -/
theorem Accounts.run {prepaidGas : ℕ} {nbtc : NbtcContract σ.ft} {flows : List Flow}
    (hflow : w.flows[index]? = some flow) (hrun : flow.run w.nbtc prepaidGas = some (nbtc, flows))
    (hw' : w' = { w.next index flows with nbtc := nbtc }) :
    w'.Linked ∧ Accounts strict w' paid none 0 0 := by
  subst hw'
  obtain ⟨lost, gained, hmoves, hdemand⟩ := run_moves standard hrun
  rw [hlinked.bridgeId] at hdemand
  have hnext := demands_next hflow flows
  refine ⟨hlinked.still _ rfl hmoves hlinked.stages,
    h.flow hlinked standard _ rfl hmoves rfl ?_ (le_refl 0)⟩
  change (w.next index flows).demands + lost ≤ w.demands + gained
  omega

/-- A receipt of the token goes on without the token. -/
theorem Accounts.pass (flows : List Flow) (hflow : w.flows[index]? = some flow)
    (hdemand : demandOf σ.host.currentAccountId flows ≤ flow.demand σ.host.currentAccountId) :
    (w.next index flows).Linked ∧ Accounts strict (w.next index flows) paid none 0 0 := by
  have hnext := demands_next hflow flows
  exact ⟨hlinked.still (w.next index flows) rfl (.refl w.nbtc) hlinked.stages,
    h.flow hlinked standard (w.next index flows) rfl (.refl w.nbtc) rfl (by omega) (le_refl 0)⟩

end Receipts

end World

end SatoshiBridge

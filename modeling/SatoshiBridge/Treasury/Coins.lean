import SatoshiBridge.Treasury.Basic

/-!
# The coins cover the tokens

How a step moves the coins of the bridge against the tokens it has minted or will burn. A deposit
comes in with its mint, a family takes its coins out and gives them back when it is settled, all but
what is burnt: its outputs at the change address are registered, wherever the user sent the rest.
-/

set_option autoImplicit false
set_option relaxedAutoImplicit false

namespace SatoshiBridge

variable {host : Host} {Completes : Ledger → OutPoint → Prop} {cause : Cause} {l l' : Ledger}

/-! ### Change -/

/-- What some outputs pay to the change address. -/
def changeAmount (host : Host) (chain : Chain) (outputs : List TxOut) : ℕ :=
  outputAmount (outputs.filter fun o ↦ o.scriptPubkey = host.changeScript chain)

theorem changeAmount_append {chain : Chain} (outputs outputs' : List TxOut) :
    changeAmount host chain (outputs ++ outputs') =
      changeAmount host chain outputs + changeAmount host chain outputs' := by
  unfold changeAmount outputAmount
  rw [List.filter_append, List.map_append, List.sum_append]

/-- Outputs that are all change pay it in full. -/
theorem changeAmount_of_forall {chain : Chain} {outputs : List TxOut}
    (h : ∀ o ∈ outputs, o.scriptPubkey = host.changeScript chain) :
    changeAmount host chain outputs = outputAmount outputs := by
  unfold changeAmount
  rw [List.filter_eq_self.mpr fun o ho ↦ decide_eq_true (h o ho)]

/-- The coins of a confirmed transaction are worth its change. -/
theorem sum_change (l : Ledger) (txId : Txid) (tx : Transaction) :
    ((l.change host txId tx).map fun e ↦ e.2.balance).sum =
      changeAmount host l.chain tx.output := by
  have hfrom : ∀ (outputs : List TxOut) (n : ℕ),
      (((outputs.zipIdx n).filterMap fun x : TxOut × ℕ ↦
        if x.1.scriptPubkey = host.changeScript l.chain then
          some (generateUtxoStorageKey txId x.2,
            ({ path := host.currentAccountId, txBytes := [], vout := x.2,
               balance := x.1.value } : UTXO))
        else none).map fun e ↦ e.2.balance).sum = changeAmount host l.chain outputs := by
    intro outputs
    induction outputs with
    | nil => exact fun _ ↦ rfl
    | cons output outputs ih =>
      intro n
      have ih := ih (n + 1)
      unfold changeAmount outputAmount at ih ⊢
      rw [List.zipIdx_cons]
      by_cases hchange : output.scriptPubkey = host.changeScript l.chain
      · rw [List.filterMap_cons_some (by dsimp only; rw [if_pos hchange]),
          List.filter_cons_of_pos (by simpa using hchange), List.map_cons, List.map_cons,
          List.sum_cons, List.sum_cons, ih]
      · rw [List.filterMap_cons_none (by dsimp only; rw [if_neg hchange]),
          List.filter_cons_of_neg (by simpa using hchange), ih]
  exact hfrom tx.output 0

/-- The coins a transaction spends come back as change or are burnt, whatever it pays. -/
theorem Payment.inputs_le {chain : Chain} {payee : Option String} {info : BTCPendingInfo}
    (h : Payment host chain payee info) (hrefund : info.state.isRefund = false) :
    inputAmount info.vutxos ≤ changeAmount host chain info.psbt.vout + info.burnAmount := by
  obtain ⟨hbalanced, hkind⟩ := h
  unfold BTCPendingInfo.Balanced PsbtWrapper.orchardAmount PsbtWrapper.extraOutputs at hbalanced
  cases hstate : info.state.kind <;> rw [hstate] at hkind
  case withdrawOriginal | withdrawUserRbf =>
    obtain ⟨_, hburn, target, _, address, _, hpays⟩ := hkind
    cases hpays with
    | output before after script hvout hscript hothers horchard =>
      have hbefore : changeAmount host chain before = outputAmount before :=
        changeAmount_of_forall fun o ho ↦ (hothers o (List.mem_append_left _ ho)).1
      have hafter : changeAmount host chain after = outputAmount after :=
        changeAmount_of_forall fun o ho ↦ (hothers o (List.mem_append_right _ ho)).1
      have houtputs : outputAmount info.psbt.vout =
          outputAmount before + (info.actualReceivedAmount + outputAmount after) := by
        rw [hvout, outputAmount, List.map_append, List.sum_append, List.map_cons, List.sum_cons]
        rfl
      have hchange : outputAmount before + outputAmount after ≤
          changeAmount host chain info.psbt.vout := by
        rw [hvout, ← List.singleton_append, changeAmount_append, changeAmount_append, hbefore,
          hafter]
        omega
      rw [horchard, List.sum_nil] at hbalanced
      omega
    | note parsed horchard hamount hrecipient hothers =>
      rw [changeAmount_of_forall fun o ho ↦ (hothers o ho).1]
      rw [horchard, List.sum_singleton, hamount] at hbalanced
      omega
  case withdrawCancelRbf | activeUtxoManagementOriginal | activeUtxoManagementRbf
      | activeUtxoManagementCancelRbf =>
    obtain ⟨hburn, horchard, hchange⟩ := hkind
    rw [changeAmount_of_forall hchange]
    rw [horchard, List.sum_nil] at hbalanced
    omega
  case refund =>
    rw [← PendingInfoState.isRefund_kind, hstate] at hrefund
    cases hrefund

/-! ### Settled families -/

/-- A pending transaction spends the coins of its original. -/
theorem Ledger.Reached.vutxos_eq (laws : host.Lawful)
    (h : Ledger.Reached host Ledger.Unfinished l) {id : Txid} {info o : BTCPendingInfo}
    (hinfo : l.pendings.lookup id = some info) (ho : l.pendings.lookup (info.root id) = some o) :
    info.vutxos = o.vutxos := by
  cases hchild : info.state.originalTxId with
  | none =>
    rw [BTCPendingInfo.root_of_original hchild, hinfo, Option.some.injEq] at ho
    rw [ho]
  | some root =>
    have hstems := h.stemming id info hinfo
    rw [BTCPendingInfo.root_of_child hchild] at hstems ho
    have hfunded := h.funded laws.depositMsg_roundTrip
    have hinputs := (h.identified root o ho).inputs_of_stems laws hstems
    exact (hfunded id info hinfo).vutxos_eq laws (hfunded root o ho) hinputs

theorem BTCPendingInfo.originalCoins_le (info : BTCPendingInfo) :
    info.originalCoins ≤ inputAmount info.vutxos := by
  unfold originalCoins
  split
  · exact le_refl _
  · exact le_refl _
  · exact Nat.zero_le _

section Settle

variable {txId : Txid} {info o : BTCPendingInfo} {tx : Transaction} {s : OriginalState}
  (laws : host.Lawful) (hreached : Ledger.Reached host Ledger.Unfinished (cause.before l))
  (hcommits : Commits l txId info o tx)

include laws hreached hcommits

/-- The change of a confirmed transaction adds to the stored coins. -/
theorem Commits.total_change :
    coinTotal (FiniteMap.insertAll l.utxos (l.change host txId tx)) =
      changeAmount host l.chain tx.output + coinTotal l.utxos := by
  have hspending : l.Spending host := (hreached.spending laws).of_before
  have hnodup : ((l.change host txId tx).map Prod.fst).Nodup := Contract.changeUtxos_nodup _ _ _
  have hfresh : ∀ key ∈ (l.change host txId tx).map Prod.fst, l.utxos.lookup key = none := by
    intro key hkey
    obtain ⟨⟨_, utxo⟩, hentry, rfl⟩ := List.mem_map.mp hkey
    refine AList.lookup_eq_none.mpr fun hstored ↦ ?_
    exact hspending.change_fresh laws hreached hcommits hentry (hspending.stored _ hstored)
  have htotal := FiniteMap.total_insertAll (f := UTXO.balance) hnodup hfresh
  rw [sum_change] at htotal
  exact htotal

/-- What an original has taken out comes back with its family, all but what is burnt. -/
theorem Commits.originalCoins_le (hstate : o.state.originalState = some s) :
    o.originalCoins ≤ changeAmount host l.chain tx.output + info.burnAmount := by
  have hpaying : (cause.before l).Paying host := hreached.paying laws.toReadsAddresses
  have hidentified : (cause.before l).Identified host := hreached.identified
  obtain ⟨payee, ⟨_, hpayment⟩, _⟩ := hpaying txId info hcommits.pending
  have hinputs := hpayment.inputs_le (hcommits.isRefund hstate)
  rw [hreached.vutxos_eq laws hcommits.pending hcommits.original] at hinputs
  rw [(hidentified txId info hcommits.pending).signed tx hcommits.tx]
  exact o.originalCoins_le.trans hinputs

/-- Settling a family loses no coins but those that are burnt. -/
theorem Commits.coins_le (hstate : o.state.originalState = some s) (fees : Fees) :
    l.coins ≤ (l.settle host txId info tx fees).coins + info.burnAmount := by
  have hchange := hcommits.total_change laws hreached
  have hinputs := hcommits.originalCoins_le laws hreached hstate
  have horiginals : ReadsOriginals host BTCPendingInfo.originalCoins := readsOriginals_originalCoins
  have hsettled := horiginals.settle hcommits
  unfold Ledger.coins coinsHeld Ledger.settle
  dsimp only
  omega

end Settle

/-! ### Mints -/

section Mint

variable {m : Promise} {info : PendingUTXOInfo} {chain : Chain}

/-- A mint in flight mints what its deposit is worth. -/
theorem Promise.Grounded.unminted (h : m.Grounded host chain) (hinfo : m.mintInfo = some info) :
    m.unminted .waiting = info.utxo.balance := by
  cases m with
  | mint =>
    cases hinfo
    exact h.2.1
  | safeMint =>
    cases hinfo
    exact h.2
  | _ => cases hinfo

/-- What a failed mint has not minted, it burns. -/
theorem Promise.Grounded.reverted (h : m.Grounded host chain) (hinfo : m.mintInfo = some info)
    {result : PromiseResult} (hminted : m.minted result = false) (token bridge signer : AccountId) :
    m.unminted (.answered result) +
        ((m.mintRevert token bridge signer).map fun p ↦ p.unburnt .waiting).sum =
      info.utxo.balance := by
  cases m with
  | mint =>
    cases hinfo
    cases result with
    | value => cases hminted
    | failed => exact h.2.1
  | safeMint =>
    cases hinfo
    exact (Nat.zero_add _).trans h.2
  | _ => cases hinfo

/-- A promise that mints nothing has nothing to mint or to burn again. -/
theorem Promise.mintRevert_unminted (m : Promise) (token bridge signer : AccountId) :
    ((m.mintRevert token bridge signer).map fun p ↦ p.unminted .waiting).sum = 0 := by
  cases m <;> rfl

/-- The coin of a deposit is in progress while its mint is in flight. -/
theorem Ledger.Reached.minting (laws : host.Lawful)
    (hreached : Ledger.Reached host Ledger.Unfinished l) (hm : m ∈ l.inflight)
    (hinfo : m.mintInfo = some info) :
    l.inProgress.lookup info.utxoStorageKey = some info.utxo := by
  have hgrounded := hreached.grounded laws
  have hpositive : 0 < l.mints info.utxoStorageKey := by
    refine Multiset.countP_pos.mpr ⟨m, hm, ?_⟩
    rw [hinfo]
    rfl
  have hprogress := ((hreached.lives laws).life info.utxoStorageKey).minting hpositive
  obtain ⟨utxo, hutxo⟩ := FiniteMap.mem_iff_lookup.mp hprogress
  have hstored := (hgrounded.inProgress _ _ hutxo).1
  have hcarried := ((hgrounded.promises m hm).deposit (Promise.depositInfo_of_mintInfo hinfo)).1
  rw [hutxo, hstored.unique laws hcarried]

end Mint

/-! ### One step -/

/-- What a call schedules mints and burns nothing. -/
theorem Issued.coinless {env : Env} {method : Method} {p : Promise}
    (h : Issued host env method l p) : p.unminted .waiting = 0 ∧ p.unburnt .waiting = 0 := by
  cases p with
  | mint | safeMint | burnDetached => exact h.elim
  | _ => exact ⟨rfl, rfl⟩

theorem BurnOf.coinless {token : AccountId} {info : BTCPendingInfo} {txId : Txid} {withdraw : Bool}
    {p : Promise} (h : BurnOf token info txId withdraw p) :
    p.unminted .waiting = 0 ∧ p.unburnt .waiting = 0 := by
  cases h <;> exact ⟨rfl, rfl⟩

/-- A confirmation burns what its transaction says. -/
theorem Cause.confirmed_answer {g : BTCPendingInfo → ℕ} {env : Env} {p : Promise}
    {result : PromiseResult} {txId : Txid} {info : BTCPendingInfo} (hburns : p.burns = some txId)
    (hsuccess : result.isSuccess = true) (hinfo : l.pendings.lookup txId = some info) :
    (Cause.answer env p result).confirmed g l = g info := by
  rw [Cause.confirmed, Cause.confirms, if_pos hsuccess, hburns, Option.bind_some, hinfo]
  rfl

section Step

variable (laws : host.Lawful) (hreached : Ledger.Reached host Ledger.Unfinished (cause.before l))

include laws hreached

/-- A step loses no coins but for tokens it does not mint, or that are burnt. -/
theorem Effect.coins_le (h : Effect host Ledger.Nowhere cause l l') :
    l.coins + l'.waiting Promise.unminted + l.waiting Promise.unburnt ≤
      l'.coins + l'.waiting Promise.unburnt + l.waiting Promise.unminted + cause.unminted +
        cause.confirmed BTCPendingInfo.burnAmount l := by
  have hgrounded := hreached.grounded laws
  have hlives := hreached.lives laws
  have hspending : l.Spending host := (hreached.spending laws).of_before
  have horiginals : ReadsOriginals host BTCPendingInfo.originalCoins := readsOriginals_originalCoins
  have htaken {p : Promise} (hp : p ∈ cause.taken) : p ∈ (cause.before l).inflight :=
    Multiset.mem_add.mpr (Or.inl hp)
  cases h with
  | complete env method key utxo fee accounts hbrings hguard => exact hguard.elim
  | issue env method p hissued =>
    obtain ⟨hunminted, hunburnt⟩ := hissued.coinless
    simp only [Ledger.coins, Ledger.waiting, Multiset.map_cons, Multiset.sum_cons]
    omega
  | begin env p m result info hmints hnew =>
    have hp := hgrounded.promises p (htaken (Multiset.mem_singleton_self p))
    have hm : m.unminted .waiting = info.utxo.balance ∧ m.unburnt .waiting = 0 := by
      cases hmints with
      | standard => exact ⟨hp.2.1, rfl⟩
      | safe => exact ⟨hp.2, rfl⟩
    have hfresh : l.inProgress.lookup info.utxoStorageKey = none := by
      refine AList.lookup_eq_none.mpr fun hprogress ↦ ?_
      exact hnew ((hlives.life _).inProgress hprogress).1
    have hinsert : coinTotal (l.inProgress.insert info.utxoStorageKey info.utxo) =
        info.utxo.balance + coinTotal l.inProgress := FiniteMap.total_insert_new _ hfresh
    simp only [Ledger.coins, coinsHeld, Ledger.waiting, Multiset.map_cons, Multiset.sum_cons]
    omega
  | finish env m result info accounts hinfo hminted =>
    have hm := htaken (Multiset.mem_singleton_self m)
    have hprogress := hreached.minting laws hm hinfo
    have hfresh : l.utxos.lookup info.utxoStorageKey = none := by
      refine AList.lookup_eq_none.mpr fun hstored ↦ ?_
      refine hlives.fresh (Or.inl ⟨m, Multiset.mem_singleton_self m, info, hinfo, rfl, rfl⟩) ?_
      exact hspending.stored _ hstored
    have herase : coinTotal l.inProgress =
        info.utxo.balance + coinTotal (l.inProgress.erase info.utxoStorageKey) :=
      FiniteMap.total_erase hprogress
    have hinsert : coinTotal (l.utxos.insert info.utxoStorageKey info.utxo) =
        info.utxo.balance + coinTotal l.utxos := FiniteMap.total_insert_new _ hfresh
    simp only [Ledger.coins, coinsHeld, Ledger.waiting]
    omega
  | revert env m result info hinfo hminted =>
    have hm := htaken (Multiset.mem_singleton_self m)
    have hprogress := hreached.minting laws hm hinfo
    have hreverted := (hgrounded.promises m hm).reverted hinfo hminted l.token host.currentAccountId
      env.signer
    have hnone := m.mintRevert_unminted l.token host.currentAccountId env.signer
    have herase : coinTotal l.inProgress =
        info.utxo.balance + coinTotal (l.inProgress.erase info.utxoStorageKey) :=
      FiniteMap.total_erase hprogress
    simp only [Ledger.coins, coinsHeld, Ledger.waiting, Multiset.map_add, Multiset.sum_add,
      Cause.unminted]
    omega
  | create cause info payee rest fees accounts hcreates =>
    have htotal : coinTotal l.utxos = inputAmount info.vutxos + coinTotal rest :=
      FiniteMap.total_takeAll hcreates.takes
    have hinsert : pendingTotal BTCPendingInfo.originalCoins
        (l.pendings.insert info.btcPendingId info) =
          info.originalCoins + pendingTotal BTCPendingInfo.originalCoins l.pendings :=
      FiniteMap.total_insert_new _ hcreates.fresh
    have hcoins : info.originalCoins = inputAmount info.vutxos := by
      unfold BTCPendingInfo.originalCoins
      rcases hcreates.kind with hstate | hstate
      · rw [hstate]
      · rw [hstate]
    simp only [Ledger.coins, coinsHeld, Ledger.waiting]
    omega
  | replace cause id o o' info payee extra fees hreplaces =>
    have hsame := horiginals.replace hreplaces
    simp only [Ledger.coins, coinsHeld, Ledger.waiting]
    omega
  | sign env accountId id signIndex payload path keyVersion result info info' hpending hsigns =>
    have hsame := horiginals.insert_carried hpending hsigns.carries
    simp only [Ledger.coins, coinsHeld, Ledger.waiting]
    omega
  | attest env p burn result txId withdraw info hverifies hpending hstage hrefund hburn =>
    have hsame := horiginals.insert_carried hpending
      (.of_state info (PendingInfoState.kind_setStage info.state .pendingBurn))
    obtain ⟨hunminted, hunburnt⟩ := hburn.coinless
    simp only [Ledger.coins, coinsHeld, Ledger.waiting, Multiset.map_cons, Multiset.sum_cons]
    omega
  | burnFailed env p result txId info hburns hfailed hpending =>
    have hsame : pendingTotal BTCPendingInfo.originalCoins
        (l.pendings.insert txId info.toPendingVerifyStage) =
          pendingTotal BTCPendingInfo.originalCoins l.pendings :=
      horiginals.insert_carried hpending (.of_state info (PendingInfoState.kind_setStage _ _))
    simp only [Ledger.coins, coinsHeld, Ledger.waiting]
    omega
  | commitWithdraw env token account relayer amount relayerFee txId protocolFee result info o tx s
      fees hsuccess hcommits hstate =>
    have hcoins := hcommits.coins_le laws hreached hstate (fees.collect protocolFee)
    have hsent : ((refundTransfer l.token info).map fun p ↦ p.unminted .waiting).sum = 0 ∧
        ((refundTransfer l.token info).map fun p ↦ p.unburnt .waiting).sum = 0 := by
      unfold refundTransfer
      split
      · exact ⟨rfl, rfl⟩
      · exact ⟨rfl, rfl⟩
    rw [Cause.confirmed_answer rfl hsuccess hcommits.pending]
    simp only [Ledger.coins, Ledger.settle, Ledger.waiting, Multiset.map_add,
      Multiset.sum_add] at hcoins ⊢
    omega
  | commitActive env token account relayer amount txId result info o tx s fees hsuccess hcommits
      hstate =>
    have hcoins := hcommits.coins_le laws hreached hstate fees
    rw [Cause.confirmed_answer rfl hsuccess hcommits.pending]
    simp only [Ledger.coins, Ledger.settle, Ledger.waiting] at hcoins ⊢
    omega
  | discard env method ids rest infos hbrings htakes hdroppable =>
    have hsame := horiginals.discard htakes hdroppable
    simp only [Ledger.coins, coinsHeld, Ledger.waiting]
    omega
  | refund cause call request info nowSec accounts hcall hcreates =>
    have hrefund : info.state.isRefund = true := by
      rw [hcreates.kind]
      rfl
    have hsame := horiginals.insert_refund hcreates.fresh hrefund
    simp only [Ledger.coins, coinsHeld, Ledger.waiting]
    omega
  | finalizeRefund env txId confirmations result info key hpending hrefund =>
    have hsame := horiginals.erase_refund hpending hrefund
    simp only [Ledger.coins, coinsHeld, Ledger.waiting]
    omega
  | claim | withdrawFee =>
    simp only [Ledger.coins, Ledger.waiting, Multiset.map_cons, Multiset.sum_cons, Promise.unminted,
      Promise.unburnt]
    omega
  | configure | ignore | lose | setKey | collectFee | transferFailed | feeFailed | request
  | reject =>
    simp only [Ledger.coins, Ledger.waiting]
    omega

end Step

end SatoshiBridge

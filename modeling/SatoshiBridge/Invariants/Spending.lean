import SatoshiBridge.Invariants.RefundGuards

/-!
# Coins and what they are spent for

A coin is registered once and taken out once, for the original whose family spends it. So no family
comes back once its original is gone, and no transaction is pending again once it was attested or
confirmed. This holds while only unfinished deposits are completed by hand.
-/

set_option autoImplicit false
set_option relaxedAutoImplicit false

namespace SatoshiBridge

variable {host : Host} {Completes : Ledger → OutPoint → Prop} {cause : Cause} {l l' : Ledger}

/-! ### How the coins change -/

/-- How the registered and the taken coins change in a step. -/
inductive CoinStep (host : Host) (Completes : Ledger → OutPoint → Prop) (cause : Cause)
    (l l' : Ledger) : Prop
  | same (hutxos : l'.utxos = l.utxos) (hregistered : registered l'.log = registered l.log)
      (hspent : spentBy l'.log = spentBy l.log)
  | deposited (key : OutPoint) (utxo : UTXO)
      (hkey : (∃ m ∈ cause.taken, ∃ info, m.mintInfo = some info ∧ info.utxoStorageKey = key ∧
        info.utxo = utxo) ∨ (Completes l key ∧ IsDeposit host l.chain key utxo))
      (hutxos : l'.utxos = l.utxos.insert key utxo)
      (hregistered : registered l'.log = registered l.log ++ [key])
      (hspent : spentBy l'.log = spentBy l.log) (hdeposited : l'.Deposited key)
  | taken (info : BTCPendingInfo) (payee : Option String) (rest : FiniteMap OutPoint UTXO)
      (hcreates : CreatesOriginal host l info payee rest) (hutxos : l'.utxos = rest)
      (hregistered : registered l'.log = registered l.log)
      (hspent : spentBy l'.log =
        spentBy l.log ++ info.inputs.map fun key ↦ (key, info.btcPendingId))
  | settled (txId : Txid) (info o : BTCPendingInfo) (tx : Transaction)
      (hcommits : Commits l txId info o tx)
      (hutxos : l'.utxos = FiniteMap.insertAll l.utxos (l.change host txId tx))
      (hregistered : registered l'.log =
        registered l.log ++ (l.change host txId tx).map Prod.fst)
      (hspent : spentBy l'.log = spentBy l.log)
      (hcommitted : Mark.committed txId (info.root txId) ∈ l'.log)

theorem registered_lostMarks (p : Promise) (result : PromiseResult) :
    registered (p.lostMarks result) = [] ∧ spentBy (p.lostMarks result) = [] := by
  unfold Promise.lostMarks
  cases p.mintInfo <;> exact ⟨rfl, rfl⟩

theorem Effect.coins (h : Effect host Completes cause l l') :
    CoinStep host Completes cause l l' := by
  cases h with
  | finish env m result info accounts hinfo hminted =>
    refine .deposited info.utxoStorageKey info.utxo
      (Or.inl ⟨m, Multiset.mem_singleton_self m, info, hinfo, rfl, rfl⟩) rfl ?_ ?_ ?_
    · simp [registered]
    · simp [spentBy]
    · exact Or.inl (by simp)
  | complete env method key utxo fee accounts hbrings hguard hdeposit =>
    refine .deposited key utxo (Or.inr ⟨hguard, hdeposit⟩) rfl ?_ ?_ ?_
    · simp [registered]
    · simp [spentBy]
    · exact Or.inr (by simp)
  | create cause info payee rest fees accounts hcreates =>
    refine .taken info payee rest hcreates rfl ?_ ?_
    · simp [registered]
    · simp [spentBy]
  | commitWithdraw env token account relayer amount relayerFee txId protocolFee result info o tx s
      fees hsuccess hcommits =>
    refine .settled txId info o tx hcommits rfl ?_ ?_ ?_
    · simp [registered, Ledger.settle]
    · simp [spentBy, Ledger.settle]
    · simp [Ledger.settle]
  | commitActive env token account relayer amount txId result info o tx s fees hsuccess hcommits =>
    refine .settled txId info o tx hcommits rfl ?_ ?_ ?_
    · simp [registered, Ledger.settle]
    · simp [spentBy, Ledger.settle]
    · simp [Ledger.settle]
  | lose p result =>
    obtain ⟨hregistered, hspent⟩ := registered_lostMarks p result
    refine .same rfl ?_ ?_
    · rw [registered_append, hregistered, List.append_nil]
    · rw [spentBy_append, hspent, List.append_nil]
  | _ => exact .same rfl (by simp [registered]) (by simp [spentBy])

/-- What was taken out stays taken out. -/
theorem Effect.mem_spentBy (h : Effect host Completes cause l l') {entry : OutPoint × Txid}
    (hentry : entry ∈ spentBy l.log) : entry ∈ spentBy l'.log := by
  obtain ⟨marks, hlog⟩ := h.log
  rw [hlog, spentBy_append]
  exact List.mem_append_left _ hentry

theorem Effect.mem_registered (h : Effect host Completes cause l l') {key : OutPoint}
    (hkey : key ∈ registered l.log) : key ∈ registered l'.log := by
  obtain ⟨marks, hlog⟩ := h.log
  rw [hlog, registered_append]
  exact List.mem_append_left _ hkey

/-! ### Transactions and their coins -/

/-- Every transaction with this id spends coins that were taken out for `root`. -/
def Ledger.TakenFor (host : Host) (l : Ledger) (id root : Txid) : Prop :=
  ∀ tx, host.computeTxid tx = id →
    ∀ key ∈ tx.input.map TxIn.previousOutput, (key, root) ∈ spentBy l.log

theorem Effect.takenFor (h : Effect host Completes cause l l') {id root : Txid}
    (htaken : l.TakenFor host id root) : l'.TakenFor host id root :=
  fun tx htx key hkey ↦ h.mem_spentBy (htaken tx htx key hkey)

/-- The inputs of a pending transaction are those of every transaction with its id. -/
theorem Identifies.inputs (laws : host.Lawful) {id : Txid} {info : BTCPendingInfo}
    (h : Identifies host id info) {tx : Transaction} (htx : host.computeTxid tx = id) :
    tx.input.map TxIn.previousOutput = info.inputs := by
  have hsame := (laws.txid_commits tx (info.psbt.transaction host) (htx.trans h.txid.symm)).1
  rw [hsame]
  exact PsbtWrapper.transaction_input_keys host info.psbt

theorem Identifies.takenFor (laws : host.Lawful) {id root : Txid} {info : BTCPendingInfo}
    (h : Identifies host id info) (hinputs : ∀ key ∈ info.inputs, (key, root) ∈ spentBy l.log) :
    l.TakenFor host id root := by
  intro tx htx key hkey
  rw [h.inputs laws htx] at hkey
  exact hinputs key hkey

theorem Identifies.spent {id root : Txid} {info : BTCPendingInfo} (h : Identifies host id info)
    (htaken : l.TakenFor host id root) : ∀ key ∈ info.inputs, (key, root) ∈ spentBy l.log := by
  intro key hkey
  refine htaken (info.psbt.transaction host) h.txid key ?_
  rw [PsbtWrapper.transaction_input_keys]
  exact hkey

/-- Where the coins are. A deposit is a deposit, a registered coin was deposited or confirmed as
change, a coin is taken out at most once and not stored afterwards, and the transactions of a family
spend coins that were taken out for its original. -/
structure Ledger.Spending (host : Host) (l : Ledger) : Prop where
  deposits : ∀ key, l.Deposited key → ∃ utxo, IsDeposit host l.chain key utxo
  stored : ∀ key ∈ l.utxos, key ∈ registered l.log
  unspent : ∀ key ∈ l.utxos, ∀ id, (key, id) ∉ spentBy l.log
  spent : ∀ key id, (key, id) ∈ spentBy l.log → key ∈ registered l.log
  once : ∀ key id id', (key, id) ∈ spentBy l.log → (key, id') ∈ spentBy l.log → id = id'
  origin : ∀ key ∈ registered l.log,
    l.Deposited key ∨ ∃ root, Mark.committed key.txid root ∈ l.log
  pending : ∀ id info, l.pendings.lookup id = some info → info.state.isRefund = false →
    info.inputs ≠ [] ∧ l.TakenFor host id (info.root id) ∧
      l.TakenFor host (info.root id) (info.root id)
  attested : ∀ id root, Mark.attested id root ∈ l.log →
    l.TakenFor host id root ∧ l.TakenFor host root root
  committed : ∀ id root, Mark.committed id root ∈ l.log →
    l.TakenFor host id root ∧ l.TakenFor host root root ∧ l.pendings.lookup id = none ∧
      l.pendings.lookup root = none

theorem Ledger.Spending.initial (h : l.Initial) : l.Spending host where
  deposits := by
    intro key hkey
    simp [Ledger.Deposited, h.log] at hkey
  stored := by
    intro key hkey
    rw [h.utxos] at hkey
    exact absurd hkey (AList.notMem_empty key)
  unspent := by
    intro key hkey
    rw [h.utxos] at hkey
    exact absurd hkey (AList.notMem_empty key)
  spent := by
    intro key id hkey
    rw [h.log] at hkey
    exact absurd hkey List.not_mem_nil
  once := by
    intro key id id' hkey
    rw [h.log] at hkey
    exact absurd hkey List.not_mem_nil
  origin := by
    intro key hkey
    rw [h.log] at hkey
    exact absurd hkey List.not_mem_nil
  pending := by
    intro id info hinfo
    rw [h.pendings] at hinfo
    cases hinfo
  attested := by
    intro id root hm
    rw [h.log] at hm
    exact absurd hm List.not_mem_nil
  committed := by
    intro id root hm
    rw [h.log] at hm
    exact absurd hm List.not_mem_nil

/-- The promises in flight do not matter. -/
theorem Ledger.Spending.of_before (h : (cause.before l).Spending host) : l.Spending host :=
  ⟨h.deposits, h.stored, h.unspent, h.spent, h.once, h.origin, h.pending, h.attested, h.committed⟩

/-! ### One step -/

/-- A deposit registered by a step was on its way, so it was not registered before. -/
theorem Ledger.Lives.fresh (hl : (cause.before l).Lives host) {key : OutPoint} {utxo : UTXO}
    (hkey : (∃ m ∈ cause.taken, ∃ info, m.mintInfo = some info ∧ info.utxoStorageKey = key ∧
        info.utxo = utxo) ∨ (Ledger.Unfinished l key ∧ IsDeposit host l.chain key utxo)) :
    key ∉ registered l.log := by
  rcases hkey with ⟨m, hm, info, hinfo, rfl, rfl⟩ | ⟨hunfinished, _⟩
  · have hpositive : 0 < (cause.before l).mints info.utxoStorageKey := by
      refine Multiset.countP_pos.mpr ⟨m, Multiset.mem_add.mpr (Or.inl hm), ?_⟩
      rw [hinfo]
      rfl
    exact ((hl.life _).inProgress ((hl.life _).minting hpositive)).2.1
  · have hprogress : key ∈ (cause.before l).inProgress := hunfinished.1
    exact ((hl.life key).inProgress hprogress).2.1

/-- A deposit registered by a step is a deposit. -/
theorem Ledger.Grounded.registers (hg : (cause.before l).Grounded host) {key : OutPoint}
    {utxo : UTXO} (hkey : (∃ m ∈ cause.taken, ∃ info, m.mintInfo = some info ∧
        info.utxoStorageKey = key ∧ info.utxo = utxo) ∨
      (Completes l key ∧ IsDeposit host l.chain key utxo)) : IsDeposit host l.chain key utxo := by
  rcases hkey with ⟨m, hm, info, hinfo, rfl, rfl⟩ | ⟨_, hdeposit⟩
  · have hgrounded := hg.promises m (Multiset.mem_add.mpr (Or.inl hm))
    exact hgrounded.deposit (Promise.depositInfo_of_mintInfo hinfo)
  · exact hdeposit

/-- A registered deposit was registered before, or is registered by the step. -/
theorem Effect.depositedMark (h : Effect host Completes cause l l') {key : OutPoint}
    (hkey : l'.Deposited key) : l.Deposited key ∨
      ∃ utxo, (∃ m ∈ cause.taken, ∃ info, m.mintInfo = some info ∧ info.utxoStorageKey = key ∧
        info.utxo = utxo) ∨ (Completes l key ∧ IsDeposit host l.chain key utxo) := by
  cases h with
  | finish env m result info accounts hinfo hminted =>
    by_cases heq : key = info.utxoStorageKey
    · subst heq
      exact Or.inr ⟨info.utxo, Or.inl ⟨m, Multiset.mem_singleton_self m, info, hinfo, rfl, rfl⟩⟩
    · left
      simpa [Ledger.Deposited, heq] using hkey
  | complete env method key' utxo fee accounts hbrings hguard hdeposit =>
    by_cases heq : key = key'
    · subst heq
      exact Or.inr ⟨utxo, Or.inr ⟨hguard, hdeposit⟩⟩
    · left
      simpa [Ledger.Deposited, heq] using hkey
  | lose p result =>
    left
    simpa [Ledger.Deposited, Promise.mem_lostMarks] using hkey
  | _ =>
    left
    simpa [Ledger.Deposited, Ledger.settle] using hkey

/-- A transaction that is committed is no refund. -/
theorem Commits.isRefund {txId : Txid} {info o : BTCPendingInfo} {tx : Transaction}
    {s : OriginalState} (h : Commits l txId info o tx)
    (hstate : o.state.originalState = some s) : info.state.isRefund = false := by
  have hpending := h.pending
  have horiginal := h.original
  cases hinfo : info.state with
  | refund state =>
    rw [BTCPendingInfo.root_of_original (by rw [hinfo]; rfl), hpending,
      Option.some.injEq] at horiginal
    rw [← horiginal, hinfo] at hstate
    cases hstate
  | _ => rfl

/-- The coins an original takes out are stored. -/
theorem CreatesOriginal.stored {info : BTCPendingInfo} {payee : Option String}
    {rest : FiniteMap OutPoint UTXO} (h : CreatesOriginal host l info payee rest) {key : OutPoint}
    (hkey : key ∈ info.inputs) : key ∈ l.utxos := by
  have hlookups := (FiniteMap.takeAll_spec h.takes).2.1
  have hmem : l.utxos.lookup key ∈ info.vutxos.map some := by
    rw [← hlookups]
    exact List.mem_map_of_mem hkey
  obtain ⟨utxo, _, hutxo⟩ := List.mem_map.mp hmem
  exact FiniteMap.mem_iff_lookup.mpr ⟨utxo, hutxo.symm⟩

section Step

variable (laws : host.Lawful) (hreached : Ledger.Reached host Ledger.Unfinished (cause.before l))
  (hl : l.Spending host) (h : Effect host Ledger.Unfinished cause l l')

include laws hreached hl h

/-- A transaction whose coins were taken out for a root is carried on, or it replaces the root. -/
theorem Ledger.Spending.arrival {id root : Txid} {info : BTCPendingInfo}
    (htaken : l.TakenFor host id root) (hinfo : l'.pendings.lookup id = some info) :
    (∃ old, l.pendings.lookup id = some old ∧ Carries host old info) ∨
      ∃ o o' payee extra, Replaces host l root o o' info payee extra ∧ id = info.btcPendingId ∧
        l'.pendings.lookup root = some o' := by
  have hidentified : l.Identified host := hreached.identified
  have hspent : ∀ key ∈ info.inputs, (key, root) ∈ spentBy l.log :=
    (hidentified.step h id info hinfo).spent htaken
  cases h.enters hinfo with
  | carried old hold hcarries => exact Or.inl ⟨old, hold, hcarries⟩
  | created payee rest hid hcreates =>
    obtain ⟨key, hkey⟩ := List.exists_mem_of_ne_nil _ hcreates.nonempty
    exact absurd (hspent key hkey) (hl.unspent key (hcreates.stored hkey) root)
  | replaced root' o o' payee extra hid hreplaces hlog horiginal =>
    obtain ⟨hnonempty, htaken', _⟩ :=
      hl.pending root' o hreplaces.original hreplaces.states.2.1
    rw [BTCPendingInfo.root_of_original hreplaces.states.1] at htaken'
    obtain ⟨key, hkey⟩ := List.exists_mem_of_ne_nil _ hnonempty
    have hsame : root = root' := by
      refine hl.once key root root' (hspent key ?_) ?_
      · rw [hreplaces.inputs]
        exact hkey
      · exact (hidentified root' o hreplaces.original).spent htaken' key hkey
    subst hsame
    exact Or.inr ⟨o, o', payee, extra, hreplaces, hid, horiginal⟩
  | refunded call request nowSec hid hcreates hlog =>
    -- The outpoint of a refund was never registered.
    have hgrounded := hreached.grounded laws
    have hrequest : RequestFor host l.chain call.utxoStorageKey request :=
      hgrounded.requests _ _ hcreates.stored
    have hkey : call.utxoStorageKey ∈ info.inputs := by
      rw [(hcreates.refunds hrequest).inputs]
      exact List.mem_singleton_self _
    have hlives : l'.Lives host :=
      (hreached.lives laws).step laws hgrounded hreached.identified h
    have hrefunded : l'.Refunded call.utxoStorageKey :=
      ⟨call, request, info, nowSec, by rw [hlog]; simp, rfl⟩
    exact absurd (h.mem_registered (hl.spent _ _ (hspent _ hkey)))
      ((hlives.life _).refunded hrefunded).2

/-- A transaction whose coins were taken out for a root is pending because it was, or because it
replaces the root. -/
theorem Ledger.Spending.arrives {id root : Txid} {info : BTCPendingInfo}
    (htaken : l.TakenFor host id root) (hinfo : l'.pendings.lookup id = some info) :
    (∃ old, l.pendings.lookup id = some old) ∨ ∃ o, l.pendings.lookup root = some o := by
  rcases hl.arrival laws hreached h htaken hinfo with ⟨old, hold, _⟩ | ⟨o, _, _, _, hreplaces, _⟩
  · exact Or.inl ⟨old, hold⟩
  · exact Or.inr ⟨o, hreplaces.original⟩

/-- A transaction of a family that is gone, original and all, does not come back. -/
theorem Ledger.Spending.gone {id root : Txid} (htaken : l.TakenFor host id root)
    (hid : l.pendings.lookup id = none) (hroot : l.pendings.lookup root = none) :
    l'.pendings.lookup id = none := by
  cases hinfo : l'.pendings.lookup id with
  | none => rfl
  | some info =>
    rcases hl.arrives laws hreached h htaken hinfo with ⟨old, hold⟩ | ⟨o, ho⟩
    · rw [hid] at hold
      cases hold
    · rw [hroot] at ho
      cases ho

omit h in
/-- Change is registered for the first time when its transaction is confirmed. -/
theorem Ledger.Spending.change_fresh {txId : Txid} {info o : BTCPendingInfo} {tx : Transaction}
    (hcommits : Commits l txId info o tx) {key : OutPoint} {utxo : UTXO}
    (hkey : (key, utxo) ∈ l.change host txId tx) : key ∉ registered l.log := by
  intro hregistered
  have hidentified : l.Identified host := hreached.identified
  obtain ⟨htxid, hchange⟩ :=
    Ledger.mem_change (hidentified txId info hcommits.pending) hcommits.tx hkey
  rcases hl.origin key hregistered with hdeposited | ⟨root, hcommitted⟩
  · obtain ⟨utxo', hdeposit⟩ := hl.deposits key hdeposited
    exact hdeposit.not_change laws hchange
  · have hnone := (hl.committed _ root hcommitted).2.2.1
    rw [htxid, hcommits.pending] at hnone
    cases hnone

/-- A coin that is stored after a step was stored before or is registered by the step. -/
theorem Ledger.Spending.step_unspent (key : OutPoint) (hkey : key ∈ l'.utxos) (id : Txid) :
    (key, id) ∉ spentBy l'.log := by
  have hlives := hreached.lives laws
  cases h.coins with
  | same hutxos hregistered hspent =>
    rw [hutxos] at hkey
    rw [hspent]
    exact hl.unspent key hkey id
  | deposited key' utxo hfrom hutxos hregistered hspent =>
    rw [hutxos, AList.mem_insert] at hkey
    rw [hspent]
    rcases hkey with heq | hold
    · subst heq
      exact fun hmem ↦ hlives.fresh hfrom (hl.spent key id hmem)
    · exact hl.unspent key hold id
  | taken info payee rest hcreates hutxos hregistered hspent =>
    rw [hutxos] at hkey
    obtain ⟨utxo, hutxo⟩ := FiniteMap.mem_iff_lookup.mp hkey
    rw [(FiniteMap.takeAll_spec hcreates.takes).2.2 key] at hutxo
    rw [hspent, List.mem_append, not_or]
    split at hutxo
    · cases hutxo
    · rename_i hnot
      refine ⟨hl.unspent key (FiniteMap.mem_iff_lookup.mpr ⟨utxo, hutxo⟩) id, fun hmem ↦ ?_⟩
      obtain ⟨key', hkey', heq⟩ := List.mem_map.mp hmem
      rw [Prod.mk.injEq] at heq
      exact hnot (heq.1 ▸ hkey')
  | settled txId info o tx hcommits hutxos hregistered hspent =>
    rw [hutxos, FiniteMap.mem_insertAll] at hkey
    rw [hspent]
    rcases hkey with hnew | hold
    · obtain ⟨⟨_, utxo⟩, hentry, rfl⟩ := List.mem_map.mp hnew
      exact fun hmem ↦ hl.change_fresh laws hreached hcommits hentry (hl.spent _ id hmem)
    · exact hl.unspent key hold id

/-- The coins of a transaction that is pending after a step. -/
theorem Ledger.Spending.step_pending {id : Txid} {info : BTCPendingInfo}
    (hinfo : l'.pendings.lookup id = some info) (hrefund : info.state.isRefund = false) :
    info.inputs ≠ [] ∧ l'.TakenFor host id (info.root id) ∧
      l'.TakenFor host (info.root id) (info.root id) := by
  have hidentified : l.Identified host := hreached.identified
  have hidentifies : Identifies host id info := hidentified.step h id info hinfo
  cases h.enters hinfo with
  | carried old hold hcarries =>
    rw [hcarries.isRefund] at hrefund
    rw [hcarries.inputs, hcarries.root]
    obtain ⟨hnonempty, hown, hroot⟩ := hl.pending id old hold hrefund
    exact ⟨hnonempty, h.takenFor hown, h.takenFor hroot⟩
  | created payee rest hid hcreates hlog =>
    have horiginal : info.state.originalTxId = none := by
      rcases hcreates.kind with hstate | hstate <;> rw [hstate] <;> rfl
    rw [BTCPendingInfo.root_of_original horiginal]
    have htaken : l'.TakenFor host id id := by
      refine hidentifies.takenFor laws fun key hkey ↦ ?_
      rw [hlog, spentBy_append, hid]
      refine List.mem_append_right _ ?_
      simpa [spentBy] using hkey
    exact ⟨hcreates.nonempty, htaken, htaken⟩
  | replaced root o o' payee extra hid hreplaces =>
    obtain ⟨horiginal, hnotRefund, hchild, _, _⟩ := hreplaces.states
    obtain ⟨hnonempty, _, hroot⟩ := hl.pending root o hreplaces.original hnotRefund
    rw [BTCPendingInfo.root_of_original horiginal] at hroot
    rw [BTCPendingInfo.root_of_child hchild]
    refine ⟨?_, ?_, h.takenFor hroot⟩
    · rw [hreplaces.inputs]
      exact hnonempty
    · refine hidentifies.takenFor laws fun key hkey ↦ h.mem_spentBy ?_
      rw [hreplaces.inputs] at hkey
      exact (hidentified root o hreplaces.original).spent hroot key hkey
  | refunded call request nowSec hid hcreates =>
    rw [hcreates.kind] at hrefund
    cases hrefund

/-- A transaction that was committed spends coins of its family and is gone with its original. -/
theorem Ledger.Spending.step_committed {id root : Txid} (hm : Mark.committed id root ∈ l'.log) :
    l'.TakenFor host id root ∧ l'.TakenFor host root root ∧ l'.pendings.lookup id = none ∧
      l'.pendings.lookup root = none := by
  rcases h.committedMark hm with hold | ⟨info, o, tx, s, hcommits, hroot, hstate, hpendings, _⟩
  · obtain ⟨hown, htaken, hnone, hnoRoot⟩ := hl.committed id root hold
    exact ⟨h.takenFor hown, h.takenFor htaken,
      hl.gone laws hreached h hown hnone hnoRoot, hl.gone laws hreached h htaken hnoRoot hnoRoot⟩
  · obtain ⟨_, hown, htaken⟩ := hl.pending id info hcommits.pending (hcommits.isRefund hstate)
    rw [← hroot] at hown htaken
    rw [hpendings]
    refine ⟨h.takenFor hown, h.takenFor htaken, AList.lookup_erase _ _, ?_⟩
    rw [FiniteMap.lookup_erase_eq, AList.lookup_erase, ite_self]

theorem Ledger.Spending.step : l'.Spending host where
  deposits := by
    intro key hkey
    rw [h.chain]
    rcases h.depositedMark hkey with hold | ⟨utxo, hnew⟩
    · exact hl.deposits key hold
    · exact ⟨utxo, (hreached.grounded laws).registers hnew⟩
  stored := by
    intro key hkey
    cases h.coins with
    | same hutxos hregistered hspent =>
      rw [hutxos] at hkey
      rw [hregistered]
      exact hl.stored key hkey
    | deposited key' utxo hfrom hutxos hregistered hspent =>
      rw [hutxos, AList.mem_insert] at hkey
      rw [hregistered, List.mem_append, List.mem_singleton]
      exact hkey.symm.imp_left (hl.stored key)
    | taken info payee rest hcreates hutxos hregistered hspent =>
      rw [hutxos] at hkey
      obtain ⟨utxo, hutxo⟩ := FiniteMap.mem_iff_lookup.mp hkey
      rw [(FiniteMap.takeAll_spec hcreates.takes).2.2 key] at hutxo
      rw [hregistered]
      split at hutxo
      · cases hutxo
      · exact hl.stored key (FiniteMap.mem_iff_lookup.mpr ⟨utxo, hutxo⟩)
    | settled txId info o tx hcommits hutxos hregistered hspent =>
      rw [hutxos, FiniteMap.mem_insertAll] at hkey
      rw [hregistered, List.mem_append]
      exact hkey.symm.imp_left (hl.stored key)
  unspent := hl.step_unspent laws hreached h
  spent := by
    intro key id hkey
    cases h.coins with
    | same hutxos hregistered hspent | deposited key' utxo hfrom hutxos hregistered hspent
    | settled txId info o tx hcommits hutxos hregistered hspent =>
      rw [hspent] at hkey
      exact h.mem_registered (hl.spent key id hkey)
    | taken info payee rest hcreates hutxos hregistered hspent =>
      rw [hspent, List.mem_append] at hkey
      rcases hkey with hold | hnew
      · exact h.mem_registered (hl.spent key id hold)
      · obtain ⟨key', hkey', heq⟩ := List.mem_map.mp hnew
        rw [Prod.mk.injEq] at heq
        rw [← heq.1]
        exact h.mem_registered (hl.stored key' (hcreates.stored hkey'))
  once := by
    intro key id id' hkey hkey'
    cases h.coins with
    | same hutxos hregistered hspent | deposited key' utxo hfrom hutxos hregistered hspent
    | settled txId info o tx hcommits hutxos hregistered hspent =>
      rw [hspent] at hkey hkey'
      exact hl.once key id id' hkey hkey'
    | taken info payee rest hcreates hutxos hregistered hspent =>
      have hnew : ∀ id, (key, id) ∈ info.inputs.map (fun key ↦ (key, info.btcPendingId)) →
          id = info.btcPendingId ∧ ∀ id', (key, id') ∉ spentBy l.log := by
        intro id hmem
        obtain ⟨key', hkey', heq⟩ := List.mem_map.mp hmem
        rw [Prod.mk.injEq] at heq
        refine ⟨heq.2.symm, hl.unspent key ?_⟩
        rw [← heq.1]
        exact hcreates.stored hkey'
      rw [hspent, List.mem_append] at hkey hkey'
      rcases hkey with hkey | hkey
      · rcases hkey' with hkey' | hkey'
        · exact hl.once key id id' hkey hkey'
        · exact absurd hkey ((hnew id' hkey').2 id)
      · rcases hkey' with hkey' | hkey'
        · exact absurd hkey' ((hnew id hkey).2 id')
        · exact (hnew id hkey).1.trans (hnew id' hkey').1.symm
  origin := by
    intro key hkey
    have hkept (hold : key ∈ registered l.log) :
        l'.Deposited key ∨ ∃ root, Mark.committed key.txid root ∈ l'.log :=
      (hl.origin key hold).imp h.deposited fun ⟨root, hm⟩ ↦ ⟨root, h.mem_log hm⟩
    cases h.coins with
    | same hutxos hregistered hspent | taken info payee rest hcreates hutxos hregistered hspent =>
      rw [hregistered] at hkey
      exact hkept hkey
    | deposited key' utxo hfrom hutxos hregistered hspent hdeposited =>
      rw [hregistered, List.mem_append, List.mem_singleton] at hkey
      rcases hkey with hold | hnew
      · exact hkept hold
      · rw [hnew]
        exact Or.inl hdeposited
    | settled txId info o tx hcommits hutxos hregistered hspent hcommitted =>
      rw [hregistered, List.mem_append] at hkey
      rcases hkey with hold | hnew
      · exact hkept hold
      · obtain ⟨⟨_, utxo⟩, hentry, rfl⟩ := List.mem_map.mp hnew
        have hidentified : l.Identified host := hreached.identified
        have htxid := (Ledger.mem_change (hidentified txId info hcommits.pending) hcommits.tx
          hentry).1
        dsimp only
        rw [htxid]
        exact Or.inr ⟨_, hcommitted⟩
  pending := fun _ _ hinfo hrefund ↦ hl.step_pending laws hreached h hinfo hrefund
  attested := by
    intro id root hm
    rcases h.attestedMark hm with hold | ⟨info, hpending, hroot, hrefund⟩
    · obtain ⟨hown, htaken⟩ := hl.attested id root hold
      exact ⟨h.takenFor hown, h.takenFor htaken⟩
    · obtain ⟨_, hown, htaken⟩ := hl.pending id info hpending hrefund
      rw [hroot]
      exact ⟨h.takenFor hown, h.takenFor htaken⟩
  committed := fun _ _ hm ↦ hl.step_committed laws hreached h hm

end Step

theorem Ledger.Reached.spending (laws : host.Lawful)
    (h : Ledger.Reached host Ledger.Unfinished l) : l.Spending host := by
  refine Ledger.Reached.induct (fun _ h₀ ↦ .initial h₀)
    (fun cause l l' hreached hl heffect ↦ ?_) l h
  exact hl.of_before.step laws hreached heffect

end SatoshiBridge

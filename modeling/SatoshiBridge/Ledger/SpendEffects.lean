import SatoshiBridge.Ledger.DepositEffects

/-!
# The effects of withdrawals, active management and replacements

The checks on a proposed psbt are characterised once for each check; from them every way to create
a pending transaction is one step of the ledger.
-/

set_option autoImplicit false
set_option relaxedAutoImplicit false

namespace SatoshiBridge

variable {host : Host} {Completes : Ledger → OutPoint → Prop} {env : Env} {c c' : Contract}
  {inflight : Multiset Promise} {log : List Mark} {receipt : Receipt}

/-! ### Taking coins out -/

theorem vutxoCoins_spec (hkeyed : c.Keyed host) : ∀ {vutxos : List UTXO} {coins : List TxOut},
    (vutxos.mapM fun v ↦ do
      let script ← c.generateUtxoChainScript host v.path
      some (⟨v.balance, script⟩ : TxOut)) = some coins →
    coins.map some = coinsOf host c.config.chain vutxos := by
  intro vutxos
  induction vutxos with
  | nil =>
    intro coins h
    cases h
    rfl
  | cons v vutxos ih =>
    intro coins h
    simp only [List.mapM_cons, Option.bind_eq_bind, Option.bind_eq_some_iff, Option.some.injEq,
      Option.pure_def] at h
    obtain ⟨coin, ⟨script, hscript, rfl⟩, rest, hrest, rfl⟩ := h
    rw [(hkeyed.generateUtxoChainScript hscript).1, List.map_cons, ih hrest]
    rfl

/-- The coins of the inputs are taken out one by one; the psbt keeps all else. -/
theorem generateVutxos_taken {psbt psbt' : PsbtWrapper} {vutxos : List UTXO}
    (h : c.generateVutxos host psbt = some (c', psbt', vutxos)) :
    ∃ rest coins, FiniteMap.takeAll c.utxos psbt.getUtxoStorageKeys = some (rest, vutxos) ∧
      c' = { c with utxos := rest } ∧ psbt' = { psbt with inputsUtxo := coins } := by
  simp only [Contract.generateVutxos, Contract.removeVutxoByPsbt, Option.bind_eq_bind,
    Option.bind_eq_some_iff, Option.some.injEq, Prod.exists, Prod.mk.injEq] at h
  obtain ⟨_, _, ⟨rest, vutxos, htake, rfl, rfl⟩, coins, _, psbt', hset, rfl, rfl, rfl⟩ := h
  obtain ⟨_, rfl⟩ := PsbtWrapper.setInputUtxo_spec hset
  exact ⟨rest, _, htake, rfl, rfl⟩

/-- The coins of the inputs leave `utxos` and are written into the psbt. -/
theorem generateVutxos_spec {psbt psbt' : PsbtWrapper} {vutxos : List UTXO}
    (hkeyed : c.Keyed host) (hlength : psbt.inputsUtxo.length = psbt.getUtxoStorageKeys.length)
    (h : c.generateVutxos host psbt = some (c', psbt', vutxos)) :
    ∃ rest, FiniteMap.takeAll c.utxos psbt.getUtxoStorageKeys = some (rest, vutxos) ∧
      c' = { c with utxos := rest } ∧
      psbt' = { psbt with inputsUtxo := coinsOf host c.config.chain vutxos } := by
  simp only [Contract.generateVutxos, Contract.removeVutxoByPsbt, Option.bind_eq_bind,
    Option.bind_eq_some_iff, Option.some.injEq, Prod.exists, Prod.mk.injEq] at h
  obtain ⟨_, _, ⟨rest, vutxos, htake, rfl, rfl⟩, coins, hcoins, psbt', hset, rfl, rfl, rfl⟩ := h
  refine ⟨rest, htake, rfl, ?_⟩
  obtain ⟨_, rfl⟩ := PsbtWrapper.setInputUtxo_spec hset
  have hcoins' := vutxoCoins_spec (c := { c with utxos := rest }) hkeyed hcoins
  have hlen : coins.length = psbt.inputsUtxo.length := by
    have hmap := congrArg List.length hcoins'
    rw [List.length_map, coinsOf, List.length_map, FiniteMap.takeAll_length htake,
      ← hlength] at hmap
    exact hmap
  rw [hlen, List.drop_length, List.append_nil, hcoins']

/-! ### Checks on outputs -/

/-- Outputs that pay the target are collected, all others are change. -/
theorem classifyOutputs_spec {target : Option ScriptBuf} {change : ScriptBuf} {minInput : ℕ} :
    ∀ {outputs : List TxOut} {sums : Contract.WithdrawOutputs},
    c.classifyOutputs env target change minInput outputs = some sums →
      sums.actualReceivedAmounts =
        (outputs.filter fun o ↦ target = some o.scriptPubkey).map TxOut.value ∧
      ∀ o ∈ outputs, target ≠ some o.scriptPubkey → o.scriptPubkey = change := by
  intro outputs
  induction outputs with
  | nil =>
    intro sums h
    cases h
    exact ⟨rfl, fun o ho ↦ absurd ho List.not_mem_nil⟩
  | cons output rest ih =>
    intro sums h
    simp only [Contract.classifyOutputs] at h
    split at h
    · rename_i htarget
      simp only [Option.bind_eq_bind, Option.bind_eq_some_iff, Option.some.injEq] at h
      obtain ⟨sums', hsums, rfl⟩ := h
      obtain ⟨hreceived, hothers⟩ := ih hsums
      refine ⟨?_, ?_⟩
      · rw [List.filter_cons_of_pos (by simpa using htarget), List.map_cons, ← hreceived]
      · intro o ho hne
        rcases List.mem_cons.mp ho with rfl | ho
        · exact absurd htarget hne
        · exact hothers o ho hne
    · rename_i htarget
      simp only [Option.bind_eq_bind, Option.bind_eq_some_iff, require_eq_some, Option.some.injEq,
        exists_and_left, exists_const] at h
      obtain ⟨hscript, _, _, sums', hsums, rfl⟩ := h
      obtain ⟨hreceived, hothers⟩ := ih hsums
      refine ⟨?_, ?_⟩
      · rw [List.filter_cons_of_neg (by simpa using htarget), ← hreceived]
      · intro o ho hne
        rcases List.mem_cons.mp ho with rfl | ho
        · exact hscript
        · exact hothers o ho hne

/-- A bundle that passed the chain specific checks pays the target. -/
theorem checkPsbtChainSpecific_note {psbt : PsbtWrapper} {gasFee : ℕ} {target : String}
    {parsed : ParsedOrchardBundle} (hnote : host.zcash = false → psbt.orchard = none)
    (h : c.checkPsbtChainSpecific host psbt gasFee target = some ())
    (hparsed : psbt.orchard = some parsed) :
    ∃ address, host.parseAddress c.config.chain target = some address ∧
      address.orchardReceiver = some parsed.output.recipientAddr := by
  have hzcash : host.zcash = true := by
    by_contra hne
    rw [hnote (Bool.eq_false_of_not_eq_true hne)] at hparsed
    cases hparsed
  simp only [Contract.checkPsbtChainSpecific, hzcash, if_true, hparsed, Option.isSome_some,
    PsbtWrapper.validateOrchardBundle, Option.bind_eq_bind, Option.bind_eq_some_iff,
    require_eq_some, Option.some.injEq, exists_and_left, exists_const, exists_eq_left'] at h
  obtain ⟨_, _, address, haddress, receiver, hreceiver, hrecipient, _⟩ := h
  exact ⟨address, haddress, by rw [hreceiver, hrecipient]⟩

/-- The checks of a withdrawal in one place: how its outputs were classified, that one amount is
received, and the sums. -/
theorem checkWithdrawPsbt_inv {psbt : PsbtWrapper} {target : String} {change : ScriptBuf}
    {vutxos : List UTXO} {amount withdrawFee inputNum changeNum actual gasFee : ℕ}
    (h : c.checkWithdrawPsbt host env psbt target change vutxos amount withdrawFee
      = some (inputNum, changeNum, actual, gasFee)) :
    ∃ sums : Contract.WithdrawOutputs,
      (psbt.vout = [] ∧ sums = ⟨[], []⟩ ∨ ∃ address,
        host.parseAddress c.config.chain target = some address ∧
        c.classifyOutputs env address.scriptPubkey change (minInputAmount vutxos) psbt.vout
          = some sums) ∧
      sums.actualReceivedAmounts ++ psbt.extraOutputs = [actual] ∧
      inputAmount vutxos = outputAmount psbt.vout + psbt.orchardAmount + gasFee ∧
      actual + gasFee + withdrawFee = amount ∧
      c.checkPsbtChainSpecific host psbt gasFee target = some () := by
  have hsingle {xs : List ℕ} {x : ℕ} (hlength : xs.length = 1) (hhead : xs.head? = some x) :
      xs = [x] := by
    obtain ⟨y, rfl⟩ := List.length_eq_one_iff.mp hlength
    rw [Option.some.inj hhead]
  unfold Contract.checkWithdrawPsbt at h
  split at h
  · rename_i hempty
    simp only [Option.bind_eq_bind, Option.bind_eq_some_iff, require_eq_some, checkedSub_eq_some,
      Option.some.injEq, exists_and_left, exists_const, Prod.mk.injEq, exists_eq_left',
      PsbtWrapper.getOutput] at h
    obtain ⟨hcount, actual', hhead, _, gas, hgas, after, hafter, expected, hexpected, hactual, _,
      _, hchain, _, _, rfl, rfl⟩ := h
    refine ⟨⟨[], []⟩, Or.inl ⟨hempty, rfl⟩, hsingle hcount hhead, ?_, by omega, hchain⟩
    rw [PsbtWrapper.orchardAmount]
    omega
  · simp only [Config.targetScriptPubkey, Option.bind_eq_bind, Option.bind_eq_some_iff,
      require_eq_some, checkedSub_eq_some, Option.some.injEq, exists_and_left, exists_const,
      Prod.mk.injEq, PsbtWrapper.getOutput] at h
    obtain ⟨_, ⟨address, haddress, rfl⟩, sums, hsums, hcount, actual', hhead, _, gas, hgas, after,
      hafter, expected, hexpected, hactual, _, _, hchain, _, _, rfl, rfl⟩ := h
    refine ⟨sums, Or.inr ⟨address, haddress, hsums⟩, hsingle hcount hhead, ?_, by omega, hchain⟩
    rw [PsbtWrapper.orchardAmount]
    omega

/-- The target of a withdrawal parses: its outputs are compared with it, and so is its note where it
has no outputs. -/
theorem checkWithdrawPsbt_target {psbt : PsbtWrapper} {target : String} {change : ScriptBuf}
    {vutxos : List UTXO} {amount withdrawFee inputNum changeNum actual gasFee : ℕ}
    (hnote : host.zcash = false → psbt.orchard = none)
    (h : c.checkWithdrawPsbt host env psbt target change vutxos amount withdrawFee
      = some (inputNum, changeNum, actual, gasFee)) :
    ∃ address, host.parseAddress c.config.chain target = some address := by
  obtain ⟨sums, hsums, hpaid, _, _, hchain⟩ := checkWithdrawPsbt_inv h
  rcases hsums with ⟨_, rfl⟩ | ⟨address, haddress, _⟩
  · cases horchard : psbt.orchard with
    | none =>
      rw [PsbtWrapper.extraOutputs, horchard] at hpaid
      cases hpaid
    | some parsed =>
      obtain ⟨address, haddress, _⟩ := checkPsbtChainSpecific_note hnote hchain horchard
      exact ⟨address, haddress⟩
  · exact ⟨address, haddress⟩

/-- The amounts of a withdrawal add up and one output or note pays the target. -/
theorem checkWithdrawPsbt_spec {psbt : PsbtWrapper} {target : String} {vutxos : List UTXO}
    {amount withdrawFee inputNum changeNum actual gasFee : ℕ}
    (hnote : host.zcash = false → psbt.orchard = none)
    (h : c.checkWithdrawPsbt host env psbt target (host.changeScript c.config.chain) vutxos amount
      withdrawFee = some (inputNum, changeNum, actual, gasFee)) :
    inputAmount vutxos = outputAmount psbt.vout + psbt.orchardAmount + gasFee ∧
      actual + gasFee + withdrawFee = amount ∧
      ∃ address, host.parseAddress c.config.chain target = some address ∧
        Pays (IsChangeBeside host c.config.chain address) address actual psbt := by
  obtain ⟨sums, hsums, hpaid, hbalance, hamount, hchain⟩ := checkWithdrawPsbt_inv h
  refine ⟨hbalance, hamount, ?_⟩
  -- Either a transparent output or the note is the single payment to the target.
  rcases hsums with ⟨hempty, rfl⟩ | ⟨address, haddress, hsums⟩
  · rw [List.nil_append] at hpaid
    cases horchard : psbt.orchard with
    | none => rw [PsbtWrapper.extraOutputs, horchard] at hpaid; cases hpaid
    | some parsed =>
      rw [PsbtWrapper.extraOutputs, horchard, List.cons.injEq] at hpaid
      obtain ⟨address, haddress, hreceiver⟩ := checkPsbtChainSpecific_note hnote hchain horchard
      refine ⟨address, haddress, .note parsed horchard hpaid.1 hreceiver ?_⟩
      rw [hempty]
      exact fun o ho ↦ absurd ho List.not_mem_nil
  · obtain ⟨hreceived, hothers⟩ := classifyOutputs_spec hsums
    rw [hreceived] at hpaid
    have hbeside (o : TxOut) (ho : o ∈ psbt.vout)
        (hne : address.scriptPubkey ≠ some o.scriptPubkey) :
        IsChangeBeside host c.config.chain address o := ⟨hothers o ho hne, hne⟩
    refine ⟨address, haddress, ?_⟩
    cases horchard : psbt.orchard with
    | none =>
      rw [PsbtWrapper.extraOutputs, horchard, List.append_nil, List.map_eq_cons_iff] at hpaid
      obtain ⟨o, tail, hfilter, rfl, htail⟩ := hpaid
      rw [List.map_eq_nil_iff] at htail
      obtain ⟨before, after', hvout, hbefore, htarget, hafter'⟩ :=
        List.filter_eq_cons_iff.mp hfilter
      rw [htail, List.filter_eq_nil_iff] at hafter'
      refine .output before after' o.scriptPubkey hvout (by simpa using htarget) ?_ horchard
      intro x hx
      refine hbeside x ?_ ?_
      · rw [hvout]
        rcases List.mem_append.mp hx with hx | hx
        · exact List.mem_append_left _ hx
        · exact List.mem_append_right _ (List.mem_cons_of_mem _ hx)
      · rcases List.mem_append.mp hx with hx | hx
        · simpa using hbefore x hx
        · simpa using hafter' x hx
    | some parsed =>
      rw [PsbtWrapper.extraOutputs, horchard] at hpaid
      have hnone : (psbt.vout.filter fun o ↦ address.scriptPubkey = some o.scriptPubkey) = [] := by
        cases hfilter : psbt.vout.filter fun o ↦ address.scriptPubkey = some o.scriptPubkey with
        | nil => rfl
        | cons o os =>
          rw [hfilter, List.map_cons, List.cons_append, List.cons.injEq] at hpaid
          exact absurd hpaid.2 (by simp)
      rw [hnone, List.map_nil, List.nil_append, List.cons.injEq] at hpaid
      obtain ⟨address', haddress', hreceiver⟩ := checkPsbtChainSpecific_note hnote hchain horchard
      rw [haddress, Option.some.injEq] at haddress'
      subst haddress'
      refine .note parsed horchard hpaid.1 hreceiver fun o ho ↦ hbeside o ho ?_
      simpa using List.filter_eq_nil_iff.mp hnone o ho

/-- Every output is change and the gas is what the inputs leave. -/
theorem checkPsbtOutputAllChangeAddress_spec {psbt : PsbtWrapper} {vutxos : List UTXO}
    {forceHealthyOutput isCancel : Bool} {received gasFee : ℕ} (laws : host.ReadsAddresses)
    (hkeyed : c.Keyed host) (hnote : psbt.orchard = none)
    (h : c.checkPsbtOutputAllChangeAddress host psbt vutxos forceHealthyOutput isCancel
      = some (received, gasFee)) :
    inputAmount vutxos = outputAmount psbt.vout + psbt.orchardAmount + gasFee ∧
      PaysChange host c.config.chain psbt ∧ c.config.changeAddress.isSome = true := by
  simp only [Contract.checkPsbtOutputAllChangeAddress, Option.bind_eq_bind,
    Option.bind_eq_some_iff, require_eq_some, checkedSub_eq_some, Option.some.injEq,
    exists_and_left, exists_const, Prod.mk.injEq, PsbtWrapper.getOutput] at h
  obtain ⟨change, hchange, houtputs, gas, hgas, _, _, _, rfl, rfl⟩ := h
  obtain ⟨rfl, hready⟩ := hkeyed.getChangeScriptPubkey laws hchange
  refine ⟨?_, ⟨hnote, fun o ho ↦ (houtputs o ho).2.2⟩, hready⟩
  rw [PsbtWrapper.orchardAmount, PsbtWrapper.extraOutputs, hnote, List.sum_nil]
  omega

/-! ### Creating originals -/

theorem getPendingId_spec {psbt : PsbtWrapper} {id : Txid} (h : psbt.getPendingId host = some id) :
    id = host.computeTxid (psbt.transaction host) := by
  simp only [PsbtWrapper.getPendingId, Option.bind_eq_bind, Option.bind_eq_some_iff,
    require_eq_some, Option.some.injEq, exists_and_left, exists_const] at h
  exact h.2.symm

theorem insertNewBtcPendingInfo_spec {id : Txid} {info : BTCPendingInfo}
    (h : c.insertNewBtcPendingInfo id info = some c') :
    c.btcPendingInfos.lookup id = none ∧
      c' = { c with btcPendingInfos := c.btcPendingInfos.insert id info } := by
  simp only [Contract.insertNewBtcPendingInfo, Contract.internalSetBtcPendingInfo,
    Option.bind_eq_bind, Option.bind_eq_some_iff, require_eq_some, Option.some.injEq,
    exists_and_left, exists_const] at h
  obtain ⟨hnew, rfl⟩ := h
  exact ⟨by simpa [Contract.checkBtcPendingInfoExists] using hnew, rfl⟩

/-- A psbt as `PsbtWrapper::new` leaves it: one empty slot for each coin, and in the Zcash build the
recipient written down. -/
structure FreshPsbt (host : Host) (recipient : Option String) (psbt : PsbtWrapper) : Prop where
  nonempty : psbt.getUtxoStorageKeys ≠ []
  slots : psbt.inputsUtxo.length = psbt.getUtxoStorageKeys.length
  noNote : host.zcash = false → psbt.orchard = none
  recipient : psbt.recipientAddress = if host.zcash then recipient else none

theorem FreshPsbt.bitcoin {input : List OutPoint} {output : List TxOut} {psbt : PsbtWrapper}
    {recipient : Option String} (hzcash : host.zcash = false)
    (h : PsbtWrapper.newBitcoin input output = some psbt) : FreshPsbt host recipient psbt := by
  obtain ⟨hne, hkeys, _, hslots, hnote, hrecipient⟩ := PsbtWrapper.newBitcoin_spec h
  refine ⟨hkeys ▸ hne, hkeys ▸ hslots, fun _ ↦ hnote, ?_⟩
  rw [hzcash]
  exact hrecipient

theorem FreshPsbt.zcash {config : Config} {input : List OutPoint} {output : List TxOut}
    {bytes : Option (List UInt8)} {expiryHeight currentHeight : ℕ} {recipient : Option String}
    {psbt : PsbtWrapper} (hzcash : host.zcash = true)
    (h : PsbtWrapper.newZcash host config input output bytes expiryHeight currentHeight recipient
      = some psbt) : FreshPsbt host recipient psbt := by
  obtain ⟨hne, hkeys, _, hslots, hrecipient, _⟩ := PsbtWrapper.newZcash_spec h
  refine ⟨hkeys ▸ hne, hkeys ▸ hslots, fun hz ↦ ?_, ?_⟩
  · rw [hzcash] at hz
    cases hz
  · rw [hzcash]
    exact hrecipient

/-- Putting an id into the owner's list of transactions to sign keeps the set of accounts. -/
theorem addPendingSignId_spec {accountId : AccountId} {id : Txid}
    (h : c.addPendingSignId accountId id = some c') :
    accountId ∈ c.accounts ∧
      ∃ accounts, c' = { c with accounts := accounts } ∧
        {a | a ∈ accounts} = {a | a ∈ c.accounts} :=
  internalUnwrapMutAccount_spec h

/-- How a withdrawal is created: its coins leave the pool and the sender gets an account, which
gives the contract `c₁` that the checks are made in; the new pending info is stored there and put
on the sender's list. -/
inductive Contract.WithdrawalCreated (host : Host) (env : Env) (c : Contract)
    (senderId : AccountId) (amount : ℕ) (target : String) (psbt : PsbtWrapper)
    (maxGasFee : Option ℕ) : Receipt → Prop
  | mk (c₀ c₁ c₂ c₃ : Contract) (psbt' : PsbtWrapper) (vutxos : List UTXO) (change : ScriptBuf)
      (inputNum changeNum actual gasFee nowSec : ℕ) (id : Txid)
      (hvutxos : c.generateVutxos host psbt = some (c₀, psbt', vutxos))
      (haccount : c₀.internalUnwrapOrCreateAccount senderId = c₁)
      (hcapacity : c₁.requirePendingSignCapacity senderId = some ())
      (hchange : c₁.config.getChangeScriptPubkey host = some change)
      (hcheck : c₁.checkWithdrawPsbt host env psbt' target change vutxos amount
        (c₁.config.withdrawBridgeFee.getFee amount) = some (inputNum, changeNum, actual, gasFee))
      (hmaxGas : ∀ m ∈ maxGasFee, gasFee ≤ m)
      (hchanges : changeNum ≤ c₁.config.maxChangeNumber)
      (hinputs : inputNum ≤ c₁.config.maxWithdrawalInputNumber)
      (hfew : c₁.utxos.entries.length + vutxos.length < c₁.config.passiveManagementLowerLimit →
        inputNum < changeNum)
      (hmany : c₁.config.passiveManagementLowerLimit ≤ c₁.utxos.entries.length + vutxos.length →
        c₁.config.passiveManagementUpperLimit < c₁.utxos.entries.length + vutxos.length →
          changeNum < inputNum)
      (hid : psbt'.getPendingId host = some id) (hnow : env.nowSec = some nowSec)
      (hinsert : c₁.insertNewBtcPendingInfo id (Contract.originalPendingInfo senderId id amount
        actual (c₁.config.withdrawBridgeFee.getFee amount) gasFee (actual + gasFee) psbt' vutxos
        nowSec .withdrawOriginal) = some c₂)
      (hsign : c₂.addPendingSignId senderId id = some c₃) :
      WithdrawalCreated host env c senderId amount target psbt maxGasFee
        { contract := c₃
          promises := []
          marks := [.utxoRemoved psbt'.getUtxoStorageKeys id,
            .created (Contract.originalPendingInfo senderId id amount actual
              (c₁.config.withdrawBridgeFee.getFee amount) gasFee (actual + gasFee) psbt' vutxos
              nowSec .withdrawOriginal) (some target)]
          returns := some (.u128 0) }

theorem createBtcPendingInfo_inv {senderId : AccountId} {amount : ℕ} {target : String}
    {psbt : PsbtWrapper} {maxGasFee : Option ℕ}
    (h : c.createBtcPendingInfo host env senderId amount target psbt maxGasFee = some receipt) :
    c.WithdrawalCreated host env senderId amount target psbt maxGasFee receipt := by
  simp only [Contract.createBtcPendingInfo, Contract.checkWithdrawPsbtValid, Option.bind_eq_bind,
    Option.bind_eq_some_iff, require_eq_some, Option.some.injEq, exists_and_left, exists_const,
    Prod.exists, Prod.mk.injEq] at h
  obtain ⟨c₀, psbt', vutxos, hvutxos, ⟨⟩, hcapacity, change, hchange, _, _,
    ⟨inputNum, changeNum, actual, gasFee, hcheck, hmaxGas, hchanges, hinputs, hfew, hmany, rfl,
      rfl⟩, id, hid, nowSec, hnow, c₂, hinsert, c₃, hsign, rfl⟩ := h
  exact .mk c₀ _ c₂ c₃ psbt' vutxos change inputNum changeNum actual gasFee nowSec id hvutxos rfl
    hcapacity hchange hcheck hmaxGas hchanges hinputs hfew (fun hlow ↦ hmany (not_lt.mpr hlow))
    hid hnow hinsert hsign

/-- How active management is created: its coins leave the pool, which gives the contract `c₁` that
the checks are made in, and its gas is reserved before the new pending info is stored and listed. -/
inductive Contract.ActiveUtxoManagementCreated (host : Host) (env : Env) (c : Contract)
    (accountId : AccountId) (psbt : PsbtWrapper) : Receipt → Prop
  | mk (c₁ c₂ c₃ : Contract) (psbt' : PsbtWrapper) (vutxos : List UTXO)
      (actual gasFee available nowSec : ℕ) (id : Txid)
      (hcapacity : c.requirePendingSignCapacity accountId = some ())
      (hvutxos : c.generateVutxos host psbt = some (c₁, psbt', vutxos))
      (hnumbers : isMergeUnhealthyUtxos psbt'.getOutputNum vutxos c₁.config.unhealthyUtxoAmount
          = false →
        psbt'.getInputNum ≤ c₁.config.maxActiveUtxoManagementInputNumber ∧
          psbt'.getOutputNum ≤ c₁.config.maxActiveUtxoManagementOutputNumber)
      (hcheck : c₁.checkPsbtOutputAllChangeAddress host psbt' vutxos true false
        = some (actual, gasFee))
      (havailable : available + gasFee = c₁.curAvailableProtocolFee)
      (hid : psbt'.getPendingId host = some id) (hnow : env.nowSec = some nowSec)
      (hinsert : { c₁ with
          curAvailableProtocolFee := available
          curReservedProtocolFee := c₁.curReservedProtocolFee + gasFee }.insertNewBtcPendingInfo id
        (Contract.originalPendingInfo accountId id 0 actual 0 gasFee gasFee psbt' vutxos nowSec
          .activeUtxoManagementOriginal) = some c₂)
      (hsign : c₂.addPendingSignId accountId id = some c₃) :
      ActiveUtxoManagementCreated host env c accountId psbt
        { contract := c₃
          promises := []
          marks := [.utxoRemoved psbt'.getUtxoStorageKeys id,
            .created (Contract.originalPendingInfo accountId id 0 actual 0 gasFee gasFee psbt'
              vutxos nowSec .activeUtxoManagementOriginal) none]
          returns := some .unit }

theorem createActiveUtxoManagementPendingInfo_inv {accountId : AccountId} {psbt : PsbtWrapper}
    (h : c.createActiveUtxoManagementPendingInfo host env accountId psbt = some receipt) :
    c.ActiveUtxoManagementCreated host env accountId psbt receipt := by
  simp only [Contract.createActiveUtxoManagementPendingInfo,
    Contract.checkActiveManagementPsbtValid, Option.bind_eq_bind, Option.bind_eq_some_iff,
    require_eq_some, checkedSub_eq_some, Option.some.injEq, exists_and_left, exists_const,
    Prod.exists] at h
  obtain ⟨⟨⟩, hcapacity, c₁, psbt', vutxos, hvutxos, actual, gasFee, ⟨hnumbers, hcheck⟩,
    available, havailable, id, hid, nowSec, hnow, c₂, hinsert, c₃, hsign, rfl⟩ := h
  exact .mk c₁ c₂ c₃ psbt' vutxos actual gasFee available nowSec id hcapacity hvutxos hnumbers
    hcheck havailable hid hnow hinsert hsign

theorem createBtcPendingInfo_simulates {cause : Cause} {senderId : AccountId} {amount : ℕ}
    {target : String} {psbt : PsbtWrapper} {maxGasFee : Option ℕ} (laws : host.ReadsAddresses)
    (hkeyed : c.Keyed host) (hfresh : FreshPsbt host (some target) psbt)
    (hbuilds : cause.Builds (some (senderId, amount)))
    (h : c.createBtcPendingInfo host env senderId amount target psbt maxGasFee = some receipt) :
    Simulates host Completes cause c inflight log receipt := by
  obtain ⟨_, _, _, _, psbt', vutxos, change, _, _, actual, gasFee, nowSec, id, hvutxos, rfl, _,
    hchange, hcheck, _, _, _, _, _, hid, _, hinsert, hsign⟩ := createBtcPendingInfo_inv h
  obtain ⟨rest, htake, rfl, rfl⟩ := generateVutxos_spec hkeyed hfresh.slots hvutxos
  obtain ⟨accounts, haccounts, hsub, howner⟩ :=
    internalUnwrapOrCreateAccount_spec { c with utxos := rest } senderId
  rw [haccounts] at hchange hcheck hinsert ⊢
  obtain ⟨rfl, hready⟩ := hkeyed.getChangeScriptPubkey laws hchange
  obtain ⟨hnone, rfl⟩ := insertNewBtcPendingInfo_spec hinsert
  obtain ⟨_, accounts', rfl, hsame⟩ := addPendingSignId_spec hsign
  have hnote : host.zcash = false →
      { psbt with inputsUtxo := coinsOf host c.config.chain vutxos }.orchard = none := hfresh.noNote
  obtain ⟨hbalance, hamount, address, haddress, hpays⟩ :=
    checkWithdrawPsbt_spec (c := { c with utxos := rest, accounts := accounts }) hnote hcheck
  have hcreates : CreatesOriginal host (c.ledger inflight log)
      (Contract.originalPendingInfo senderId id amount actual
        (c.config.withdrawBridgeFee.getFee amount) gasFee (actual + gasFee)
        { psbt with inputsUtxo := coinsOf host c.config.chain vutxos } vutxos nowSec
        .withdrawOriginal) (some target) rest :=
    { named := getPendingId_spec hid
      txBytes := rfl
      signatures := fun _ hs ↦ (List.mem_replicate.mp hs).2
      stage := rfl
      kind := Or.inl rfl
      takes := htake
      nonempty := hfresh.nonempty
      coins := rfl
      signatureCount := by
        simp only [Contract.originalPendingInfo, List.length_replicate, PsbtWrapper.getInputNum,
          BTCPendingInfo.inputs, PsbtWrapper.getUtxoStorageKeys, List.length_map]
      payment := ⟨hbalance, hamount, rfl, target, rfl, address, haddress, hpays⟩
      ready := hready
      fresh := hnone
      noNote := hfresh.noNote
      recipient := fun _ ↦ hfresh.recipient }
  have hgrow : (c.ledger inflight log).accounts ⊆ {a | a ∈ accounts'} := hsame ▸ hsub
  have hmem : senderId ∈ {a | a ∈ accounts'} := hsame ▸ howner
  exact .marking (Effect.create (l := c.ledger inflight log) cause _ (some target) rest c.fees
    {a | a ∈ accounts'} hcreates (Fees.Reserves.refl _) hbuilds hgrow hmem) hkeyed

/-- Active management pays change only and takes its gas from the available protocol fees. -/
theorem createActiveUtxoManagementPendingInfo_simulates {cause : Cause} {accountId : AccountId}
    {psbt : PsbtWrapper} (laws : host.ReadsAddresses) (hkeyed : c.Keyed host)
    (hfresh : FreshPsbt host none psbt) (hnote : psbt.orchard = none)
    (hbuilds : cause.Builds none)
    (h : c.createActiveUtxoManagementPendingInfo host env accountId psbt = some receipt) :
    Simulates host Completes cause c inflight log receipt := by
  obtain ⟨_, _, _, psbt', vutxos, actual, gasFee, available, nowSec, id, _, hvutxos, _, hcheck,
    havailable, hid, _, hinsert, hsign⟩ := createActiveUtxoManagementPendingInfo_inv h
  obtain ⟨rest, htake, rfl, rfl⟩ := generateVutxos_spec hkeyed hfresh.slots hvutxos
  obtain ⟨hbalance, hpays, hready⟩ :=
    checkPsbtOutputAllChangeAddress_spec (c := { c with utxos := rest }) laws hkeyed hnote hcheck
  obtain ⟨hnone, rfl⟩ := insertNewBtcPendingInfo_spec hinsert
  obtain ⟨howner, accounts', rfl, hsame⟩ := addPendingSignId_spec hsign
  have hcreates : CreatesOriginal host (c.ledger inflight log)
      (Contract.originalPendingInfo accountId id 0 actual 0 gasFee gasFee
        { psbt with inputsUtxo := coinsOf host c.config.chain vutxos } vutxos nowSec
        .activeUtxoManagementOriginal) none rest :=
    { named := getPendingId_spec hid
      txBytes := rfl
      signatures := fun _ hs ↦ (List.mem_replicate.mp hs).2
      stage := rfl
      kind := Or.inr rfl
      takes := htake
      nonempty := hfresh.nonempty
      coins := rfl
      signatureCount := by
        simp only [Contract.originalPendingInfo, List.length_replicate, PsbtWrapper.getInputNum,
          BTCPendingInfo.inputs, PsbtWrapper.getUtxoStorageKeys, List.length_map]
      payment := ⟨hbalance, rfl, hpays⟩
      ready := hready
      fresh := hnone
      noNote := fun _ ↦ hnote
      recipient := fun hkind ↦ by cases hkind }
  have hreserves : Fees.Reserves gasFee c.fees
      { c.fees with available := available, reserved := c.fees.reserved + gasFee } :=
    ⟨rfl, havailable, rfl, rfl, rfl⟩
  have hmem : accountId ∈ {a | a ∈ accounts'} := hsame ▸ howner
  exact .marking (Effect.create (l := c.ledger inflight log) cause _ none rest _
    {a | a ∈ accounts'} hcreates hreserves hbuilds hsame.superset hmem) hkeyed

/-! ### Entry points of originals -/

/-- What `ft_on_transfer` makes of a message it accepts: a donation is collected, and a withdrawal
is asked for in the Zcash build and created in the Bitcoin build. -/
inductive Contract.TransferAccepted (host : Host) (env : Env) (c : Contract)
    (senderId : AccountId) (amount : ℕ) : TokenReceiverMessage → Receipt → Prop
  | collected (hroom : c.fees.HasRoom amount) :
      TransferAccepted host env c senderId amount .depositProtocolFee
        { contract := c.collected amount
          promises := []
          marks := []
          returns := some (.u128 0) }
  | asked (target : String) (input : List OutPoint) (output : List TxOut) (maxGasFee : Option ℕ)
      (data : Option ChainSpecificData) (hzcash : host.zcash = true)
      (hsender : env.publicWithdrawPaused = false ∨
        c.aclHasRole .trustedWithdrawSender senderId = true) :
      TransferAccepted host env c senderId amount (.withdraw target input output maxGasFee data)
        { contract := c
          promises := [.ftOnTransfer senderId amount target input output maxGasFee data]
          marks := []
          returns := none }
  | created (target : String) (input : List OutPoint) (output : List TxOut)
      (maxGasFee : Option ℕ) (data : Option ChainSpecificData) (psbt : PsbtWrapper)
      (receipt : Receipt) (hbitcoin : host.zcash = false)
      (hsender : env.publicWithdrawPaused = false ∨
        c.aclHasRole .trustedWithdrawSender senderId = true)
      (hpsbt : PsbtWrapper.newBitcoin input output = some psbt)
      (hcreate : c.createBtcPendingInfo host env senderId amount target psbt maxGasFee
        = some receipt) :
      TransferAccepted host env c senderId amount (.withdraw target input output maxGasFee data)
        receipt

theorem ftOnTransfer_inv {senderId : AccountId} {amount : ℕ} {msg : TokenReceiverMessage}
    (h : c.ftOnTransfer host env senderId amount msg = some receipt) :
    env.assertNotPaused = some () ∧ c.config.minWithdrawAmount ≤ amount ∧
      env.predecessor = c.config.nbtcAccountId ∧
      c.TransferAccepted host env senderId amount msg receipt := by
  simp only [Contract.ftOnTransfer, Option.bind_eq_bind, Option.bind_eq_some_iff, require_eq_some,
    exists_const] at h
  obtain ⟨⟨⟩, hpaused, hamount, hpredecessor, h⟩ := h
  refine ⟨hpaused, hamount, hpredecessor, ?_⟩
  cases msg with
  | depositProtocolFee =>
    obtain ⟨c', hcollected, h⟩ := Option.bind_eq_some_iff.mp h
    obtain ⟨hroom, rfl⟩ := collectProtocolFee_eq_some.mp hcollected
    cases h
    exact .collected hroom
  | withdraw target input output maxGasFee data =>
    simp only [Option.bind_eq_some_iff, require_eq_some, exists_and_left, exists_const,
      Contract.ftOnTransferWithdrawChainSpecific] at h
    obtain ⟨hsender, h⟩ := h
    split at h
    · rename_i hzcash
      cases h
      exact .asked target input output maxGasFee data hzcash hsender
    · rename_i hzcash
      simp only [Option.bind_eq_bind, Option.bind_eq_some_iff] at h
      obtain ⟨psbt, hpsbt, hcreate⟩ := h
      exact .created target input output maxGasFee data psbt receipt
        (Bool.eq_false_of_not_eq_true hzcash) hsender hpsbt hcreate

theorem ftOnTransfer_simulates {senderId : AccountId} {amount : ℕ} {msg : TokenReceiverMessage}
    (laws : host.ReadsAddresses) (hkeyed : c.Keyed host)
    (h : c.ftOnTransfer host env senderId amount msg = some receipt) :
    Simulates host Completes (.call env (.ftOnTransfer senderId amount msg)) c inflight log
      receipt := by
  obtain ⟨_, _, _, haccepted⟩ := ftOnTransfer_inv h
  cases haccepted with
  | collected hroom =>
    exact .silent (Effect.collectFee (l := c.ledger inflight log) env _ senderId amount rfl hroom)
      hkeyed
  | asked _ _ _ _ _ hzcash _ => exact simulates_issue hkeyed ⟨hzcash, rfl⟩ rfl
  | created _ _ _ _ _ _ _ hbitcoin _ hpsbt hcreate =>
    exact createBtcPendingInfo_simulates laws hkeyed (.bitcoin hbitcoin hpsbt) rfl hcreate

theorem ftOnTransferCallback_simulates {result : PromiseResult} {senderId : AccountId}
    {amount : ℕ} {target : String} {input : List OutPoint} {output : List TxOut}
    {maxGasFee : Option ℕ} {data : Option ChainSpecificData} (laws : host.ReadsAddresses)
    (hzcash : host.zcash = true) (hkeyed : c.Keyed host)
    (h : c.ftOnTransferCallback host env result senderId amount target input output maxGasFee data
      = some receipt) :
    Simulates host Completes
      (.answer env (.ftOnTransfer senderId amount target input output maxGasFee data) result) c
      inflight log receipt := by
  simp only [Contract.ftOnTransferCallback, Option.bind_eq_bind, Option.bind_eq_some_iff] at h
  obtain ⟨height, _, expiry, _, psbt, hpsbt, h⟩ := h
  exact createBtcPendingInfo_simulates laws hkeyed (.zcash hzcash hpsbt) rfl h

theorem activeUtxoManagement_simulates {input : List OutPoint} {output : List TxOut}
    (laws : host.ReadsAddresses) (hkeyed : c.Keyed host)
    (h : c.activeUtxoManagement host env input output = some receipt) :
    Simulates host Completes (.call env (.activeUtxoManagement input output)) c inflight log
      receipt := by
  simp only [Contract.activeUtxoManagement, Option.bind_eq_bind, Option.bind_eq_some_iff] at h
  obtain ⟨_, _, _, _, _, _, h⟩ := h
  split at h
  · rename_i hzcash
    rw [Option.some.injEq] at h
    subst h
    exact simulates_issue hkeyed hzcash rfl
  · rename_i hzcash
    simp only [Option.bind_eq_some_iff] at h
    obtain ⟨psbt, hpsbt, h⟩ := h
    exact createActiveUtxoManagementPendingInfo_simulates laws hkeyed
      (.bitcoin (Bool.eq_false_of_not_eq_true hzcash) hpsbt)
      (PsbtWrapper.newBitcoin_spec hpsbt).2.2.2.2.1 rfl h

theorem activeUtxoManagementCallback_simulates {result : PromiseResult} {accountId : AccountId}
    {input : List OutPoint} {output : List TxOut} (laws : host.ReadsAddresses)
    (hzcash : host.zcash = true) (hkeyed : c.Keyed host)
    (h : c.activeUtxoManagementCallback host env result accountId input output = some receipt) :
    Simulates host Completes
      (.answer env (.activeUtxoManagement accountId input output) result) c inflight log
      receipt := by
  simp only [Contract.activeUtxoManagementCallback, Option.bind_eq_bind,
    Option.bind_eq_some_iff] at h
  obtain ⟨height, _, psbt, hpsbt, h⟩ := h
  have hnote : psbt.orchard = none := by
    have hiff := (PsbtWrapper.newZcash_spec hpsbt).2.2.2.2.2
    simpa using hiff
  exact createActiveUtxoManagementPendingInfo_simulates laws hkeyed (.zcash hzcash hpsbt) hnote
    rfl h

end SatoshiBridge

import SatoshiBridge.Ledger.ReplaceEffects
import SatoshiBridge.Origins.Requests

/-!
# What a request may become

The checks on a new transaction, read off once for each way to create one: the rules of its chain at
the block height, the limits of the configuration, and what ties it to the request. They hold of
the record as it is created, under the configuration of that moment.
-/

set_option autoImplicit false
set_option relaxedAutoImplicit false

namespace SatoshiBridge

variable {host : Host} {env : Env} {c c' : Contract} {receipt : Receipt}

/-! ### Rules -/

/-- The heights at which a transaction may expire: within one and two gaps from the block height it
was created at. Bitcoin transactions and refunds do not expire. -/
def Config.ExpiresAt (config : Config) (refund : Bool) (expiry : ℕ) : Option ℕ → Prop
  | none => expiry = 0
  | some height =>
    if refund then expiry = refundExpiryHeight
    else height + config.expiryHeightGap ≤ expiry ∧ expiry ≤ height + 2 * config.expiryHeightGap

/-- The rules of the chain: a Zcash transaction is built for the branch that is active at the block
height, pays the conventional fee, and balances the one action its bundle may have. -/
structure ChainRules (host : Host) (config : Config) (height : Option ℕ) (info : BTCPendingInfo) :
    Prop where
  branch : info.psbt.branchId = height.bind config.chain.getBranchId
  active : info.psbt.branchId.isSome = height.isSome
  expiry : config.ExpiresAt info.state.isRefund info.psbt.expiryHeight height
  fee : height.isSome = true → info.psbt.getMinFee host ≤ info.gasFee
  note : ∀ parsed, info.psbt.orchard = some parsed → height.isSome = true ∧
    parsed.bundle.actions = expectedActionsNumber ∧ 0 < parsed.output.amount ∧
    parsed.bundle.valueBalance = -(parsed.output.amount : ℤ)

/-- The transparent outputs that do not pay an address. -/
def PsbtWrapper.beside (psbt : PsbtWrapper) (address : Address) : List TxOut :=
  psbt.vout.filter fun o ↦ address.scriptPubkey ≠ some o.scriptPubkey

/-- The limits on the fee and on the change of what pays a user. -/
structure Contract.PaymentLimits (env : Env) (c : Contract) (address : Address)
    (info : BTCPendingInfo) : Prop where
  gas : c.config.minBtcGasFee ≤ info.gasFee ∧ info.gasFee ≤ c.config.maxBtcGasFee
  floor : ∀ o ∈ info.psbt.beside address, c.config.minChangeAmount ≤ o.value
  below : ∀ o ∈ info.psbt.beside address,
    c.aclHasRole .unrestrictedRelayer env.signer = true ∨ o.value < minInputAmount info.vutxos
  ceiling : (info.psbt.beside address).length < info.inputs.length →
    ∀ o ∈ info.psbt.beside address, o.value < c.config.maxChangeAmount

/-- The limits on the number of coins: a bridge with few coins splits them, one with many merges
them. -/
structure Contract.CoinLimits (c : Contract) (changeNum inputNum : ℕ) : Prop where
  changes : changeNum ≤ c.config.maxChangeNumber
  inputs : inputNum ≤ c.config.maxWithdrawalInputNumber
  few : c.utxos.entries.length < c.config.passiveManagementLowerLimit → inputNum < changeNum
  many : c.config.passiveManagementLowerLimit ≤ c.utxos.entries.length →
    c.config.passiveManagementUpperLimit < c.utxos.entries.length → changeNum < inputNum

/-- The limits on what pays change only; a cancellation may pay any fee. -/
structure Contract.ChangeLimits (c : Contract) (healthy cancel : Bool) (info : BTCPendingInfo) :
    Prop where
  gas : cancel = false →
    c.config.minBtcGasFee ≤ info.gasFee ∧ info.gasFee ≤ c.config.maxBtcGasFee
  floor : ∀ o ∈ info.psbt.vout,
    if healthy then c.config.unhealthyUtxoAmount < o.value else c.config.minChangeAmount ≤ o.value
  ceiling : ∀ o ∈ info.psbt.vout, o.value ≤ c.config.maxChangeAmount

/-- In the Zcash build, amounts stay within the total supply. -/
def InMoney (height : Option ℕ) (outputs : List TxOut) : Prop :=
  height.isSome = true → ∀ o ∈ outputs, o.value ≤ maxMoney

/-! ### The psbts of the two builds -/

/-- A psbt as the build makes it at a block height, before its fee is checked. -/
structure Drafted (host : Host) (config : Config) (refund : Bool) (height : Option ℕ)
    (psbt : PsbtWrapper) : Prop where
  branch : psbt.branchId = height.bind config.chain.getBranchId
  active : psbt.branchId.isSome = height.isSome
  expiry : config.ExpiresAt refund psbt.expiryHeight height
  note : ∀ parsed, psbt.orchard = some parsed → height.isSome = true ∧
    parsed.bundle.actions = expectedActionsNumber ∧ 0 < parsed.output.amount

namespace Drafted

variable {config : Config} {refund : Bool} {height : Option ℕ} {psbt : PsbtWrapper}

/-- Only the Zcash build pays with notes. -/
theorem noNote (h : Drafted host config refund height psbt) (hbuild : height.isSome = host.zcash)
    (hbitcoin : host.zcash = false) : psbt.orchard = none := by
  cases horchard : psbt.orchard with
  | none => rfl
  | some parsed =>
    obtain ⟨hzcash, _⟩ := h.note parsed horchard
    rw [hbuild, hbitcoin] at hzcash
    cases hzcash

theorem withCoins (h : Drafted host config refund height psbt) (coins : List (Option TxOut)) :
    Drafted host config refund height { psbt with inputsUtxo := coins } :=
  ⟨h.branch, h.active, h.expiry, h.note⟩

/-- With the fee paid and the bundle balanced, the rules of the chain are met. -/
theorem rules {info : BTCPendingInfo} (h : Drafted host config refund height info.psbt)
    (hkind : info.state.isRefund = refund)
    (hfee : height.isSome = true → info.psbt.getMinFee host ≤ info.gasFee)
    (hbalance : height.isSome = true → ∀ parsed, info.psbt.orchard = some parsed →
      parsed.bundle.valueBalance = -(parsed.output.amount : ℤ)) :
    ChainRules host config height info where
  branch := h.branch
  active := h.active
  expiry := by
    rw [hkind]
    exact h.expiry
  fee := hfee
  note := by
    intro parsed hparsed
    obtain ⟨hzcash, hactions, hamount⟩ := h.note parsed hparsed
    exact ⟨hzcash, hactions, hamount, hbalance hzcash parsed hparsed⟩

end Drafted

theorem extractOrchardBundle_spec {bytes : Option (List UInt8)} {branchId : BranchId}
    {orchard : Option ParsedOrchardBundle} (h : extractOrchardBundle host bytes branchId
      = some orchard) :
    ∀ parsed, orchard = some parsed →
      parsed.bundle.actions = expectedActionsNumber ∧ 0 < parsed.output.amount := by
  intro parsed hparsed
  subst hparsed
  cases bytes with
  | none => cases h
  | some bytes =>
    simp only [extractOrchardBundle, Option.bind_eq_bind, Option.bind_eq_some_iff,
      require_eq_some, Option.some.injEq, exists_and_left, exists_const] at h
    obtain ⟨bundle, _, hactions, output, _, hamount, rfl⟩ := h
    exact ⟨hactions, Nat.pos_of_ne_zero hamount⟩

theorem Drafted.bitcoin {config : Config} {refund : Bool} {psbt : PsbtWrapper}
    (hbranch : psbt.branchId = none) (hexpiry : psbt.expiryHeight = 0)
    (hnote : psbt.orchard = none) : Drafted host config refund none psbt where
  branch := hbranch
  active := by rw [hbranch]; rfl
  expiry := hexpiry
  note := by
    intro parsed hparsed
    rw [hnote] at hparsed
    cases hparsed

theorem Drafted.ofBitcoin {config : Config} {refund : Bool} {input : List OutPoint}
    {output : List TxOut} {psbt : PsbtWrapper}
    (h : PsbtWrapper.newBitcoin input output = some psbt) :
    Drafted host config refund none psbt := by
  simp only [PsbtWrapper.newBitcoin, Option.bind_eq_bind, Option.bind_eq_some_iff, require_eq_some,
    Option.some.injEq, exists_and_left, exists_const] at h
  obtain ⟨_, _, rfl⟩ := h
  exact .bitcoin rfl rfl rfl

theorem Drafted.zcash {config : Config} {refund : Bool} {psbt : PsbtWrapper} {height : ℕ}
    {branchId : BranchId} {bytes : Option (List UInt8)}
    (hbranch : config.chain.getBranchId height = some branchId)
    (hpsbt : psbt.branchId = some branchId)
    (hexpiry : config.ExpiresAt refund psbt.expiryHeight (some height))
    (hnote : extractOrchardBundle host bytes branchId = some psbt.orchard) :
    Drafted host config refund (some height) psbt where
  branch := hpsbt.trans hbranch.symm
  active := by rw [hpsbt]; rfl
  expiry := hexpiry
  note := fun parsed hparsed ↦ ⟨rfl, extractOrchardBundle_spec hnote parsed hparsed⟩

theorem Drafted.ofZcash {config : Config} {refund : Bool} {input : List OutPoint}
    {output : List TxOut} {bytes : Option (List UInt8)} {expiry height : ℕ}
    {recipient : Option String} {psbt : PsbtWrapper}
    (hexpiry : config.ExpiresAt refund expiry (some height))
    (h : PsbtWrapper.newZcash host config input output bytes expiry height recipient
      = some psbt) : Drafted host config refund (some height) psbt := by
  simp only [PsbtWrapper.newZcash, Option.bind_eq_bind, Option.bind_eq_some_iff, require_eq_some,
    Option.some.injEq, exists_and_left, exists_const] at h
  obtain ⟨_, _, _, branchId, hbranch, orchard, horchard, rfl⟩ := h
  exact .zcash hbranch rfl hexpiry horchard

theorem newZcash_inMoney {config : Config} {input : List OutPoint} {output : List TxOut}
    {bytes : Option (List UInt8)} {expiry height : ℕ} {recipient : Option String}
    {psbt : PsbtWrapper} (h : PsbtWrapper.newZcash host config input output bytes expiry height
      recipient = some psbt) : InMoney (some height) psbt.vout := by
  simp only [PsbtWrapper.newZcash, Option.bind_eq_bind, Option.bind_eq_some_iff, require_eq_some,
    Option.some.injEq, exists_and_left, exists_const] at h
  obtain ⟨_, _, hvalues, _, _, _, _, rfl⟩ := h
  exact fun _ ↦ hvalues

theorem getExpiryHeight_spec {data : Option ChainSpecificData} {height expiry : ℕ}
    (h : c.getExpiryHeight data height = some expiry) :
    c.config.ExpiresAt false expiry (some height) := by
  simp only [Contract.getExpiryHeight, Option.bind_eq_bind, Option.bind_eq_some_iff,
    require_eq_some, Option.some.injEq, exists_and_left, exists_const] at h
  obtain ⟨hwindow, rfl⟩ := h
  exact hwindow

theorem withdrawPsbt_drafted {height : Option ℕ} {target : String} {input : List OutPoint}
    {output : List TxOut} {data : Option ChainSpecificData} {psbt : PsbtWrapper}
    (h : c.withdrawPsbt host height target input output data = some psbt) :
    Drafted host c.config false height psbt ∧ psbt.getUtxoStorageKeys = input ∧
      psbt.vout = output ∧ InMoney height psbt.vout := by
  cases height with
  | none =>
    obtain ⟨_, hkeys, hvout, _⟩ := PsbtWrapper.newBitcoin_spec h
    exact ⟨.ofBitcoin h, hkeys, hvout, fun heq ↦ by cases heq⟩
  | some height =>
    simp only [Contract.withdrawPsbt, Option.bind_eq_bind, Option.bind_eq_some_iff] at h
    obtain ⟨expiry, hexpiry, h⟩ := h
    obtain ⟨_, hkeys, hvout, _⟩ := PsbtWrapper.newZcash_spec h
    exact ⟨.ofZcash (getExpiryHeight_spec hexpiry) h, hkeys, hvout, newZcash_inMoney h⟩

theorem managementPsbt_drafted {height : Option ℕ} {input : List OutPoint} {output : List TxOut}
    {psbt : PsbtWrapper} (h : c.managementPsbt host height input output = some psbt) :
    Drafted host c.config false height psbt ∧ psbt.getUtxoStorageKeys = input ∧
      psbt.vout = output ∧ psbt.orchard = none ∧ InMoney height psbt.vout := by
  cases height with
  | none =>
    obtain ⟨_, hkeys, hvout, _, hnote, _⟩ := PsbtWrapper.newBitcoin_spec h
    exact ⟨.ofBitcoin h, hkeys, hvout, hnote, fun heq ↦ by cases heq⟩
  | some height =>
    have hexpiry : c.config.ExpiresAt false (height + c.config.expiryHeightGap) (some height) :=
      ⟨le_rfl, by omega⟩
    obtain ⟨_, hkeys, hvout, _, _, hnote⟩ := PsbtWrapper.newZcash_spec h
    exact ⟨.ofZcash hexpiry h, hkeys, hvout, by simpa using hnote, newZcash_inMoney h⟩

/-- The psbt of a replacement spends what its original spends. On Zcash an empty list keeps the
outputs. -/
structure Redrafted (host : Host) (c : Contract) (height : Option ℕ) (id : Txid)
    (output : List TxOut) (o : BTCPendingInfo) (psbt : PsbtWrapper) : Prop where
  original : c.btcPendingInfos.lookup id = some o
  drafted : Drafted host c.config false height psbt
  inputs : psbt.getUtxoStorageKeys = o.inputs
  outputs : psbt.vout = output ∧ InMoney height output ∨
    height.isSome = true ∧ output = [] ∧ psbt.vout = o.psbt.vout

theorem rbfPsbt_redrafted {height : Option ℕ} {id : Txid} {output : List TxOut}
    {data : Option ChainSpecificData} {psbt : PsbtWrapper}
    (h : c.rbfPsbt host height id output data = some psbt) :
    (∃ o, Redrafted host c height id output o psbt) ∧ (data = none → psbt.orchard = none) := by
  cases height with
  | none =>
    simp only [Contract.rbfPsbt, Contract.internalUnwrapBtcPendingInfo, Option.bind_eq_bind,
      Option.bind_eq_some_iff, Option.some.injEq] at h
    obtain ⟨o, ho, rfl⟩ := h
    exact ⟨⟨o, ho, .bitcoin rfl rfl rfl, PsbtWrapper.fromOriginalPsbtBitcoin_keys o.psbt output,
      Or.inl ⟨rfl, fun heq ↦ by cases heq⟩⟩, fun _ ↦ rfl⟩
  | some height =>
    simp only [Contract.rbfPsbt, Contract.internalUnwrapBtcPendingInfo, Option.bind_eq_bind,
      Option.bind_eq_some_iff] at h
    obtain ⟨expiry, hexpiry, o, ho, h⟩ := h
    obtain ⟨hkeys, _, _, hnote⟩ := PsbtWrapper.fromOriginalPsbtZcash_spec h
    simp only [PsbtWrapper.fromOriginalPsbtZcash, Option.bind_eq_bind, Option.bind_eq_some_iff,
      require_eq_some, Option.some.injEq, exists_and_left, exists_const] at h
    obtain ⟨hvalues, branchId, hbranch, orchard, horchard, rfl⟩ := h
    refine ⟨⟨o, ho, .zcash hbranch rfl (getExpiryHeight_spec hexpiry) horchard, hkeys, ?_⟩, ?_⟩
    · by_cases hempty : output = []
      · exact Or.inr ⟨rfl, hempty, if_pos hempty⟩
      · exact Or.inl ⟨if_neg hempty, fun _ ↦ hvalues⟩
    · intro hdata
      exact hnote (by rw [hdata]; rfl)

/-! ### The checks -/

theorem checkMinFeeChainSpecific_spec {psbt : PsbtWrapper} {gasFee : ℕ} {height : Option ℕ}
    {u : Unit} (hbuild : height.isSome = host.zcash)
    (h : Contract.checkMinFeeChainSpecific host psbt gasFee = some u) :
    height.isSome = true → psbt.getMinFee host ≤ gasFee := by
  simp only [Contract.checkMinFeeChainSpecific, require_eq_some] at h
  rw [hbuild]
  exact h

/-- The chain specific checks are those of the Zcash build, which knows the height. -/
theorem checkPsbtChainSpecific_spec {psbt : PsbtWrapper} {gasFee : ℕ} {target : String}
    {height : Option ℕ} {u : Unit} (hbuild : height.isSome = host.zcash)
    (h : c.checkPsbtChainSpecific host psbt gasFee target = some u) :
    (height.isSome = true → psbt.getMinFee host ≤ gasFee) ∧
      (height.isSome = true → ∀ parsed, psbt.orchard = some parsed →
        parsed.bundle.valueBalance = -(parsed.output.amount : ℤ)) := by
  by_cases hzcash : host.zcash = true
  · simp only [Contract.checkPsbtChainSpecific, hzcash, if_true, Option.bind_eq_bind,
      Option.bind_eq_some_iff] at h
    obtain ⟨_, hfee, h⟩ := h
    refine ⟨checkMinFeeChainSpecific_spec hbuild hfee, fun _ parsed hparsed ↦ ?_⟩
    simp only [hparsed, Option.isSome_some, if_true, PsbtWrapper.validateOrchardBundle,
      Option.bind_eq_bind, Option.bind_eq_some_iff, require_eq_some, Option.some.injEq,
      exists_and_left, exists_const, exists_eq_left'] at h
    obtain ⟨_, _, _, _, _, _, hbalance⟩ := h
    exact hbalance
  · rw [hbuild]
    exact ⟨fun hz ↦ absurd hz hzcash, fun hz ↦ absurd hz hzcash⟩

/-- The change of a withdrawal, in order, and the sizes it may have. -/
theorem classifyOutputs_changes {target : Option ScriptBuf} {change : ScriptBuf} {minInput : ℕ} :
    ∀ {outputs : List TxOut} {sums : Contract.WithdrawOutputs},
    c.classifyOutputs env target change minInput outputs = some sums →
      sums.changeAmounts =
        (outputs.filter fun o ↦ target ≠ some o.scriptPubkey).map TxOut.value ∧
      ∀ o ∈ outputs.filter fun o ↦ target ≠ some o.scriptPubkey,
        c.config.minChangeAmount ≤ o.value ∧
        (c.aclHasRole .unrestrictedRelayer env.signer = true ∨ o.value < minInput) := by
  intro outputs
  induction outputs with
  | nil =>
    intro sums h
    cases h
    exact ⟨rfl, fun o ho ↦ absurd ho List.not_mem_nil⟩
  | cons output rest ih =>
    intro sums h
    simp only [Contract.classifyOutputs] at h
    split at h
    · rename_i htarget
      simp only [Option.bind_eq_bind, Option.bind_eq_some_iff, Option.some.injEq] at h
      obtain ⟨sums', hsums, rfl⟩ := h
      obtain ⟨hchanges, hsizes⟩ := ih hsums
      rw [List.filter_cons_of_neg (by simpa using htarget)]
      exact ⟨hchanges, hsizes⟩
    · rename_i htarget
      simp only [Option.bind_eq_bind, Option.bind_eq_some_iff, require_eq_some, Option.some.injEq,
        exists_and_left, exists_const] at h
      obtain ⟨_, hfloor, hbelow, sums', hsums, rfl⟩ := h
      obtain ⟨hchanges, hsizes⟩ := ih hsums
      rw [List.filter_cons_of_pos (by simpa using htarget)]
      refine ⟨by rw [List.map_cons, ← hchanges], fun o ho ↦ ?_⟩
      rcases List.mem_cons.mp ho with rfl | ho
      · exact ⟨hfloor, hbelow⟩
      · exact hsizes o ho

/-- The limits a payment to a user has passed. -/
theorem checkWithdrawPsbt_limits {psbt : PsbtWrapper} {target : String} {change : ScriptBuf}
    {vutxos : List UTXO} {amount withdrawFee inputNum changeNum actual gasFee : ℕ}
    {address : Address} {info : BTCPendingInfo}
    (h : c.checkWithdrawPsbt host env psbt target change vutxos amount withdrawFee
      = some (inputNum, changeNum, actual, gasFee))
    (haddress : host.parseAddress c.config.chain target = some address)
    (hpsbt : info.psbt.vout = psbt.vout) (hinputs : info.inputs.length = psbt.vin.length)
    (hcoins : info.vutxos = vutxos) (hgas : info.gasFee = gasFee) :
    c.PaymentLimits env address info ∧ changeNum = (info.psbt.beside address).length ∧
      inputNum = info.inputs.length := by
  have hbeside : info.psbt.beside address =
      psbt.vout.filter fun o ↦ address.scriptPubkey ≠ some o.scriptPubkey := by
    rw [PsbtWrapper.beside, hpsbt]
  unfold Contract.checkWithdrawPsbt at h
  split at h
  · rename_i hempty
    simp only [Option.bind_eq_bind, Option.bind_eq_some_iff, require_eq_some, checkedSub_eq_some,
      Option.some.injEq, exists_and_left, exists_const, Prod.mk.injEq, exists_eq_left',
      PsbtWrapper.getOutput] at h hempty
    obtain ⟨_, _, _, _, gas, _, _, _, _, _, _, hbounds, _, _, rfl, rfl, rfl, rfl⟩ := h
    rw [hempty, List.filter_nil] at hbeside
    have hnone (o : TxOut) : o ∉ info.psbt.beside address := by
      rw [hbeside]
      exact List.not_mem_nil
    refine ⟨⟨?_, fun o ho ↦ absurd ho (hnone o), fun o ho ↦ absurd ho (hnone o),
      fun _ o ho ↦ absurd ho (hnone o)⟩, ?_, hinputs.symm⟩
    · rw [hgas]
      exact hbounds
    · rw [hbeside]
      rfl
  · simp only [Config.targetScriptPubkey, Option.bind_eq_bind, Option.bind_eq_some_iff,
      require_eq_some, checkedSub_eq_some, Option.some.injEq, exists_and_left, exists_const,
      Prod.mk.injEq, PsbtWrapper.getOutput] at h
    obtain ⟨_, ⟨address', haddress', rfl⟩, sums, hsums, _, _, _, hceiling, gas, _, _, _, _, _, _,
      hbounds, _, _, rfl, rfl, rfl, rfl⟩ := h
    rw [haddress, Option.some.injEq] at haddress'
    subst haddress'
    obtain ⟨hchanges, hsizes⟩ := classifyOutputs_changes hsums
    rw [← hbeside] at hchanges hsizes
    have hcount : sums.changeAmounts.length = (info.psbt.beside address).length := by
      rw [hchanges, List.length_map]
    refine ⟨⟨?_, fun o ho ↦ (hsizes o ho).1, ?_, ?_⟩, hcount, hinputs.symm⟩
    · rw [hgas]
      exact hbounds
    · rw [hcoins]
      exact fun o ho ↦ (hsizes o ho).2
    · intro hlt o ho
      rw [← hcount, hinputs] at hlt
      refine hceiling hlt o.value ?_
      rw [hchanges]
      exact List.mem_map_of_mem ho

/-- The limits that pure change has passed, and the fee of the Zcash build. -/
theorem checkPsbtOutputAllChangeAddress_limits {psbt : PsbtWrapper} {vutxos : List UTXO}
    {healthy cancel : Bool} {received gasFee : ℕ} {height : Option ℕ} {info : BTCPendingInfo}
    (hbuild : height.isSome = host.zcash)
    (h : c.checkPsbtOutputAllChangeAddress host psbt vutxos healthy cancel
      = some (received, gasFee))
    (hpsbt : info.psbt.vout = psbt.vout) (hgas : info.gasFee = gasFee) :
    c.ChangeLimits healthy cancel info ∧
      (height.isSome = true → psbt.getMinFee host ≤ gasFee) := by
  simp only [Contract.checkPsbtOutputAllChangeAddress, Option.bind_eq_bind,
    Option.bind_eq_some_iff, require_eq_some, checkedSub_eq_some, Option.some.injEq,
    exists_and_left, exists_const, Prod.mk.injEq, PsbtWrapper.getOutput] at h
  obtain ⟨change, _, houtputs, gas, _, _, hfee, hbounds, rfl, rfl⟩ := h
  refine ⟨⟨?_, ?_, ?_⟩, checkMinFeeChainSpecific_spec hbuild hfee⟩
  · rw [hgas]
    exact hbounds
  · rw [hpsbt]
    exact fun o ho ↦ (houtputs o ho).1
  · rw [hpsbt]
    exact fun o ho ↦ (houtputs o ho).2.1

end SatoshiBridge

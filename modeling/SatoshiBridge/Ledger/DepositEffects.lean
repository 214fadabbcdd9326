import SatoshiBridge.Ledger.Effect

/-!
# The effects of deposits

Every method and callback of the deposit flow is one step of the ledger. `Simulates` is the
statement of this for one receipt; it also carries that the bridge knows its own addresses.
-/

set_option autoImplicit false
set_option relaxedAutoImplicit false

namespace SatoshiBridge

variable {host : Host} {Completes : Ledger → OutPoint → Prop}

/-! ### The keys of the bridge -/

/-- The root public key, once known, is the one the chain signatures contract answers with, and the
change address is derived from it. -/
def Contract.Keyed (host : Host) (c : Contract) : Prop :=
  (c.config.chainSignaturesRootPublicKey = none ∧ c.config.changeAddress = none) ∨
    (c.config.chainSignaturesRootPublicKey = some host.rootPublicKey ∧
      c.config.changeAddress =
        some (host.chainAddress c.config.chain host.rootPublicKey host.currentAccountId))

theorem Contract.Keyed.generateUtxoChainScript {c : Contract} (h : c.Keyed host) {path : Path}
    {script : ScriptBuf} (hscript : c.generateUtxoChainScript host path = some script) :
    script = host.pathScript c.config.chain path ∧ c.config.changeAddress.isSome = true := by
  simp only [Contract.generateUtxoChainScript, Option.bind_eq_bind, Option.bind_eq_some_iff,
    Option.some.injEq] at hscript
  obtain ⟨key, hkey, rfl⟩ := hscript
  rcases h with ⟨hnone, _⟩ | ⟨hsome, haddress⟩
  · rw [hnone] at hkey
    cases hkey
  · rw [hsome, Option.some.injEq] at hkey
    rw [← hkey, haddress]
    exact ⟨rfl, rfl⟩

theorem Contract.Keyed.getChangeScriptPubkey {c : Contract} (laws : host.ReadsAddresses)
    (h : c.Keyed host) {script : ScriptBuf}
    (hscript : c.config.getChangeScriptPubkey host = some script) :
    script = host.changeScript c.config.chain ∧ c.config.changeAddress.isSome = true := by
  simp only [Config.getChangeScriptPubkey, Config.stringToScriptPubkey, Option.bind_eq_bind,
    Option.bind_eq_some_iff] at hscript
  obtain ⟨address, haddress, parsed, hparsed, hscript⟩ := hscript
  rcases h with ⟨_, hnone⟩ | ⟨_, hsome⟩
  · rw [hnone] at haddress
    cases haddress
  · rw [hsome, Option.some.injEq] at haddress
    obtain ⟨receiver, hparse⟩ :=
      laws.parse_chainAddress c.config.chain host.rootPublicKey host.currentAccountId
    rw [← haddress, hparse, Option.some.injEq] at hparsed
    rw [← hparsed, Option.some.injEq] at hscript
    rw [hsome]
    exact ⟨hscript.symm, rfl⟩

/-- A bridge that has its keys knows its change script. -/
theorem Contract.Keyed.getChangeScriptPubkey_of_ready {c : Contract} (laws : host.ReadsAddresses)
    (h : c.Keyed host) (hready : c.config.changeAddress.isSome = true) :
    c.config.getChangeScriptPubkey host = some (host.changeScript c.config.chain) := by
  rcases h with ⟨_, hnone⟩ | ⟨_, hsome⟩
  · rw [hnone] at hready
    cases hready
  · obtain ⟨receiver, hparse⟩ :=
      laws.parse_chainAddress c.config.chain host.rootPublicKey host.currentAccountId
    rw [Config.getChangeScriptPubkey, hsome, Option.bind_eq_bind, Option.bind_some,
      Config.stringToScriptPubkey, hparse]
    rfl

/-! ### One receipt as one effect -/

theorem Effect.of_eq {cause : Cause} {l l' l'' : Ledger} (h : Effect host Completes cause l l')
    (heq : l'' = l') : Effect host Completes cause l l'' := heq ▸ h

/-- A receipt is one step of the ledger and leaves the bridge with its keys. -/
def Simulates (host : Host) (Completes : Ledger → OutPoint → Prop) (cause : Cause) (c : Contract)
    (inflight : Multiset Promise) (log : List Mark) (receipt : Receipt) : Prop :=
  Effect host Completes cause (c.ledger inflight log)
      (receipt.contract.ledger (receipt.promises + inflight) (log ++ receipt.marks)) ∧
    receipt.contract.Keyed host

variable {env : Env} {c : Contract} {inflight : Multiset Promise} {log : List Mark}
  {receipt : Receipt}

/-- A receipt without promises and marks. -/
theorem Simulates.silent {cause : Cause} {c' : Contract} {returns : Option ReturnValue}
    (heffect : Effect host Completes cause (c.ledger inflight log) (c'.ledger inflight log))
    (hkeyed : c'.Keyed host) :
    Simulates host Completes cause c inflight log
      { contract := c', promises := [], marks := [], returns := returns } := by
  refine ⟨heffect.of_eq ?_, hkeyed⟩
  simp only [Multiset.coe_nil, zero_add, List.append_nil]

/-- A receipt without promises. -/
theorem Simulates.marking {cause : Cause} {c' : Contract} {marks : List Mark}
    {returns : Option ReturnValue}
    (heffect : Effect host Completes cause (c.ledger inflight log)
      (c'.ledger inflight (log ++ marks)))
    (hkeyed : c'.Keyed host) :
    Simulates host Completes cause c inflight log
      { contract := c', promises := [], marks := marks, returns := returns } := by
  refine ⟨heffect.of_eq ?_, hkeyed⟩
  simp only [Multiset.coe_nil, zero_add]

/-- A receipt with one promise. -/
theorem Simulates.sending {cause : Cause} {c' : Contract} {p : Promise}
    {returns : Option ReturnValue}
    (heffect : Effect host Completes cause (c.ledger inflight log)
      (c'.ledger (p ::ₘ inflight) log))
    (hkeyed : c'.Keyed host) :
    Simulates host Completes cause c inflight log
      { contract := c', promises := [p], marks := [], returns := returns } := by
  refine ⟨heffect.of_eq ?_, hkeyed⟩
  simp only [Multiset.coe_singleton, Multiset.singleton_add, List.append_nil]

/-- A call that schedules one promise and changes nothing. -/
theorem simulates_issue {method : Method} {p : Promise} {returns : Option ReturnValue}
    (hkeyed : c.Keyed host) (hissued : Issued host env method (c.ledger inflight log) p)
    (hbrings : method.brings = p.brings) :
    Simulates host Completes (.call env method) c inflight log
      { contract := c, promises := [p], marks := [], returns := returns } :=
  .sending (Effect.issue (l := c.ledger inflight log) env method p hissued hbrings) hkeyed

/-- An answer that changes nothing. -/
theorem simulates_ignore {p : Promise} {result : PromiseResult} {returns : Option ReturnValue}
    (hkeyed : c.Keyed host) (h : (Cause.answer env p result).Ignored) :
    Simulates host Completes (.answer env p result) c inflight log
      { contract := c, promises := [], marks := [], returns := returns } :=
  .silent (Effect.ignore (l := c.ledger inflight log) _ h) hkeyed

/-! ### Helpers of the contract -/

theorem internalUnwrapOrCreateAccount_spec (c : Contract) (accountId : AccountId) :
    ∃ accounts, c.internalUnwrapOrCreateAccount accountId = { c with accounts := accounts } ∧
      {a | a ∈ c.accounts} ⊆ {a | a ∈ accounts} ∧ accountId ∈ accounts := by
  unfold Contract.internalUnwrapOrCreateAccount Contract.checkAccountExists
  split
  · rename_i h
    exact ⟨c.accounts, rfl, subset_refl _, AList.lookup_isSome.mp h⟩
  · refine ⟨_, rfl, ?_, ?_⟩
    · intro a ha
      exact (AList.mem_insert _).mpr (Or.inr ha)
    · exact (AList.mem_insert _).mpr (Or.inl rfl)

/-- Writing an account that exists keeps the set of accounts. -/
theorem internalUnwrapMutAccount_spec {c c' : Contract} {accountId : AccountId}
    {update : Account → Account} (h : c.internalUnwrapMutAccount accountId update = some c') :
    accountId ∈ c.accounts ∧
      ∃ accounts, c' = { c with accounts := accounts } ∧
        {a | a ∈ accounts} = {a | a ∈ c.accounts} := by
  simp only [Contract.internalUnwrapMutAccount, Option.bind_eq_bind, Option.bind_eq_some_iff,
    Option.some.injEq] at h
  obtain ⟨account, haccount, rfl⟩ := h
  have hmem : accountId ∈ c.accounts := FiniteMap.mem_iff_lookup.mpr ⟨account, haccount⟩
  refine ⟨hmem, _, rfl, ?_⟩
  ext a
  constructor
  · intro h
    rcases (AList.mem_insert _).mp h with rfl | h
    · exact hmem
    · exact h
  · exact fun h ↦ (AList.mem_insert _).mpr (Or.inr h)

/-- A fee in the books. -/
def Contract.collected (c : Contract) (fee : ℕ) : Contract :=
  { c with
    accCollectedProtocolFee := c.accCollectedProtocolFee + fee
    curAvailableProtocolFee := c.curAvailableProtocolFee + fee }

theorem collectProtocolFee_eq_some {c c' : Contract} {fee : ℕ} :
    c.collectProtocolFee fee = some c' ↔ c.fees.HasRoom fee ∧ c' = c.collected fee := by
  simp only [Contract.collectProtocolFee, Option.bind_eq_bind, Option.bind_eq_some_iff,
    checkedAdd_eq_some, Option.some.injEq]
  constructor
  · rintro ⟨_, ⟨rfl, hcollected⟩, _, ⟨rfl, havailable⟩, rfl⟩
    exact ⟨⟨hcollected, havailable⟩, rfl⟩
  · rintro ⟨⟨hcollected, havailable⟩, rfl⟩
    exact ⟨_, ⟨rfl, hcollected⟩, _, ⟨rfl, havailable⟩, rfl⟩

/-- A fee of nothing is not collected, which changes nothing. -/
theorem collectIfPositive_eq_some {c c' : Contract} {fee : ℕ} :
    (if 0 < fee then c.collectProtocolFee fee else some c) = some c' ↔
      (0 < fee → c.fees.HasRoom fee) ∧ c' = c.collected fee := by
  by_cases hpos : 0 < fee
  · rw [if_pos hpos, collectProtocolFee_eq_some]
    exact and_congr_left fun _ ↦ (imp_iff_right hpos).symm
  · have hzero : fee = 0 := Nat.eq_zero_of_not_pos hpos
    subst hzero
    rw [if_neg hpos, Option.some.injEq]
    exact ⟨fun h ↦ ⟨fun hlt ↦ absurd hlt hpos, h.symm⟩, fun h ↦ h.2.symm⟩

/-! ### Verifying a deposit -/

theorem internalBuildDepositUtxoInfo_spec {depositMsg : DepositMsg} {txBytes : DepositTxProof}
    {txSummary : DepositTxSummary} {vout : ℕ} {info : PendingUTXOInfo} (hkeyed : c.Keyed host)
    (htx : internalResolveDepositTx host txBytes = some txSummary)
    (h : c.internalBuildDepositUtxoInfo host (getDepositPath host depositMsg) txSummary vout
      = some info) :
    info.utxoStorageKey = ⟨txSummary.txId, vout⟩ ∧
      IsDeposit host c.config.chain info.utxoStorageKey info.utxo := by
  simp only [Contract.internalBuildDepositUtxoInfo, Option.bind_eq_bind, Option.bind_eq_some_iff,
    require_eq_some, Option.some.injEq, exists_and_left, exists_const] at h
  obtain ⟨output, houtput, _, script, hscript, heq, rfl⟩ := h
  obtain ⟨hpath, _⟩ := hkeyed.generateUtxoChainScript hscript
  have hpays : output = ⟨output.value, host.pathScript c.config.chain
      (getDepositPath host depositMsg)⟩ := by
    rw [← hpath, heq]
  refine ⟨rfl, ⟨rfl, rfl, txSummary.outputs, internalResolveDepositTx_shows htx, ?_⟩,
    depositMsg, rfl⟩
  rw [houtput, ← hpays]

/-- The running total of the loop over post actions. -/
theorem checkPostActions_amount : ∀ {postActions : List PostAction} {gas amount gas' amount' : ℕ},
    c.checkPostActions host postActions gas amount = some (some (gas', amount')) →
      amount + (postActions.map PostAction.amount).sum = amount' := by
  intro postActions
  induction postActions with
  | nil =>
    intro gas amount gas' amount' h
    simp only [Contract.checkPostActions, Option.some.injEq, Prod.mk.injEq] at h
    rw [List.map_nil, List.sum_nil, Nat.add_zero]
    exact h.2
  | cons postAction rest ih =>
    intro gas amount gas' amount' h
    simp only [Contract.checkPostActions, Option.bind_eq_bind, Option.bind_eq_some_iff,
      checkedAdd_eq_some] at h
    obtain ⟨total, ⟨htotal, _⟩, h⟩ := h
    split at h
    · have hrest := ih h
      rw [List.map_cons, List.sum_cons]
      omega
    · rw [Option.some.injEq] at h
      cases h

/-- The post actions a deposit keeps pass on no more than it mints. -/
theorem checkDepositMsg_amount {depositMsg : DepositMsg} {mintAmount : ℕ}
    {postActions : Option (List PostAction)}
    (h : c.checkDepositMsg host depositMsg mintAmount = some postActions) :
    postActionsAmount postActions ≤ mintAmount := by
  have hnone : postActionsAmount none ≤ mintAmount := Nat.zero_le _
  unfold Contract.checkDepositMsg at h
  split at h
  · rw [Option.some.injEq] at h
    rw [← h]
    exact hnone
  · rename_i actions _
    split at h
    · rw [Option.some.injEq] at h
      rw [← h]
      exact hnone
    · simp only [Option.bind_eq_bind, Option.bind_eq_some_iff] at h
      obtain ⟨checked, hchecked, h⟩ := h
      split at h
      · rw [Option.some.injEq] at h
        rw [← h]
        exact hnone
      · rename_i totalGas totalAmount
        have htotal := checkPostActions_amount hchecked
        split at h
        · rw [Option.some.injEq] at h
          rw [← h]
          exact hnone
        · rename_i hbounds
          rw [Option.some.injEq] at h
          rw [← h]
          show (actions.map PostAction.amount).sum ≤ mintAmount
          omega

theorem verifyDepositV2_simulates {depositMsg : DepositMsg} {txBytes : DepositTxProof}
    {vout txIndex : ℕ} (hkeyed : c.Keyed host)
    (h : c.verifyDepositV2 host env depositMsg txBytes vout txIndex = some receipt) :
    Simulates host Completes (.call env (.verifyDepositV2 depositMsg txBytes vout txIndex)) c
      inflight log receipt := by
  simp only [Contract.verifyDepositV2, Option.bind_eq_bind, Option.bind_eq_some_iff] at h
  obtain ⟨_, _, _, _, _, _, txSummary, htx, h⟩ := h
  split at h
  · simp only [Contract.internalSafeVerifyDepositEntry, Contract.internalSafeVerifyDeposit,
      Option.bind_eq_bind, Option.bind_eq_some_iff, require_eq_some, Option.some.injEq,
      exists_and_left, exists_const] at h
    obtain ⟨_, _, _, info, hinfo, _, rfl⟩ := h
    exact simulates_issue hkeyed
      ⟨(internalBuildDepositUtxoInfo_spec hkeyed htx hinfo).2, rfl⟩ rfl
  · simp only [Contract.internalVerifyDepositEntry, Contract.internalVerifyDeposit,
      Option.bind_eq_bind, Option.bind_eq_some_iff, require_eq_some, checkedSub_eq_some,
      Option.some.injEq, exists_and_left, exists_const, Prod.exists] at h
    obtain ⟨_, _, info, hinfo, _, mintAmount, hmint, protocolFee, relayerFee, hfees,
      postActions, hactions, rfl⟩ := h
    refine simulates_issue hkeyed ⟨(internalBuildDepositUtxoInfo_spec hkeyed htx hinfo).2, ?_,
      checkDepositMsg_amount hactions⟩ rfl
    have hsum := BridgeFee.getProtocolAndRelayerFee_spec hfees
    omega

/-! ### Callbacks -/

theorem expectInclusion_eq_some {result : PromiseResult} {inclusion : TxInclusionInfo} :
    result.expectInclusion = some inclusion ↔ result = .value (.inclusion (some inclusion)) := by
  unfold PromiseResult.expectInclusion
  split
  · simp
  · simp_all

theorem processInclusionAndCheck_inv {c c' : Contract} {result : PromiseResult}
    {info : PendingUTXOInfo} {delta height : ℕ}
    (h : c.processInclusionAndCheck result info delta = some (c', height)) :
    ∃ inclusion, result = .value (.inclusion (some inclusion)) ∧
      height = inclusion.txBlockHeight ∧
      c.bumpAndCheckConfirmations inclusion.txBlockHeight inclusion.mainchainTipHeight
        info.utxo.balance delta = some c' := by
  simp only [Contract.processInclusionAndCheck, Option.bind_eq_bind, Option.bind_eq_some_iff,
    Option.some.injEq, Prod.mk.injEq] at h
  obtain ⟨inclusion, hinclusion, _, hbump, rfl, rfl⟩ := h
  exact ⟨inclusion, expectInclusion_eq_some.mp hinclusion, rfl, hbump⟩

theorem processInclusionAndCheck_spec {c c' : Contract} {result : PromiseResult}
    {info : PendingUTXOInfo} {delta height : ℕ}
    (h : c.processInclusionAndCheck result info delta = some (c', height)) :
    ∃ ring, c' = { c with blockBridgeAmounts := ring } := by
  obtain ⟨_, _, _, hbump⟩ := processInclusionAndCheck_inv h
  simp only [Contract.bumpAndCheckConfirmations, Option.bind_eq_bind, Option.bind_eq_some_iff,
    require_eq_some, Option.some.injEq, exists_and_left, exists_const] at hbump
  obtain ⟨_, _, _, rfl⟩ := hbump
  exact ⟨_, rfl⟩

theorem claimDepositUtxo_spec {c c' : Contract} {info : PendingUTXOInfo}
    (h : c.claimDepositUtxo info = some c') :
    info.utxoStorageKey ∉ c.verifiedDepositUtxo ∧
      c' = { c with
        verifiedDepositUtxo := insert info.utxoStorageKey c.verifiedDepositUtxo
        utxosInProgress := c.utxosInProgress.insert info.utxoStorageKey info.utxo } := by
  simp only [Contract.claimDepositUtxo, Contract.internalSetUtxoInProgress, Option.bind_eq_bind,
    Option.bind_eq_some_iff, require_eq_some, Option.some.injEq, exists_and_left,
    exists_const] at h
  exact ⟨h.1, h.2.symm⟩

/-- The common end of the two callbacks that start a deposit. -/
theorem simulates_begin {c c₁ c₂ : Contract} {p m : Promise} {result : PromiseResult}
    {info : PendingUTXOInfo} {delta height : ℕ} {returns : Option ReturnValue}
    (hkeyed : c.Keyed host)
    (hcheck : c.processInclusionAndCheck result info delta = some (c₁, height))
    (hclaim : c₁.claimDepositUtxo info = some c₂)
    (hmints : Mints c₂.config.nbtcAccountId env.signer info p m) :
    Simulates host Completes (.answer env p result) c inflight log
      { contract := c₂
        promises := [m]
        marks := [.depositStarted info.utxoStorageKey]
        returns := returns } := by
  obtain ⟨ring, rfl⟩ := processInclusionAndCheck_spec hcheck
  obtain ⟨hnew, rfl⟩ := claimDepositUtxo_spec hclaim
  exact ⟨(Effect.begin (l := c.ledger inflight log) env p m result info hmints hnew).of_eq rfl,
    hkeyed⟩

/-- How a confirmed deposit starts: it is counted and claimed, then its mint is asked for. -/
inductive Contract.DepositStarted (c : Contract) (result : PromiseResult) (info : PendingUTXOInfo)
    (delta : ℕ) (mint : AccountId → ℕ → Promise) : Receipt → Prop
  | mk (c₁ c₂ : Contract) (height : ℕ)
      (hcheck : c.processInclusionAndCheck result info delta = some (c₁, height))
      (hclaim : c₁.claimDepositUtxo info = some c₂) :
      DepositStarted c result info delta mint
        { contract := c₂
          promises := [mint c₂.config.nbtcAccountId height]
          marks := [.depositStarted info.utxoStorageKey]
          returns := none }

theorem verifyDepositCallback_inv {result : PromiseResult} {recipientId : AccountId}
    {mintAmount protocolFee relayerFee : ℕ} {info : PendingUTXOInfo}
    {postActions : Option (List PostAction)} {delta : ℕ}
    (h : c.verifyDepositCallback env result recipientId mintAmount protocolFee relayerFee info
      postActions delta = some receipt) :
    c.DepositStarted result info delta (fun token height ↦ .mint token recipientId mintAmount
      protocolFee env.signer relayerFee postActions info (some height)) receipt := by
  simp only [Contract.verifyDepositCallback, Option.bind_eq_bind, Option.bind_eq_some_iff,
    Option.some.injEq, Prod.exists] at h
  obtain ⟨c₁, height, hcheck, c₂, hclaim, rfl⟩ := h
  exact .mk c₁ c₂ height hcheck hclaim

theorem verifySafeDepositCallback_inv {result : PromiseResult} {recipientId : AccountId}
    {mintAmount : ℕ} {msg : String} {info : PendingUTXOInfo} {delta : ℕ}
    (h : c.verifySafeDepositCallback host result recipientId mintAmount msg info delta
      = some receipt) :
    c.DepositStarted result info delta (fun token height ↦ .safeMint token recipientId mintAmount
      (if msg = "" then none else some (injectUtxoIdInMsg host msg info.utxoStorageKey)) info
      (some height)) receipt := by
  simp only [Contract.verifySafeDepositCallback, Option.bind_eq_bind, Option.bind_eq_some_iff,
    Option.some.injEq, Prod.exists] at h
  obtain ⟨c₁, height, hcheck, c₂, hclaim, rfl⟩ := h
  exact .mk c₁ c₂ height hcheck hclaim

theorem verifyDepositCallback_simulates {result : PromiseResult} {recipientId : AccountId}
    {mintAmount protocolFee relayerFee : ℕ} {info : PendingUTXOInfo}
    {postActions : Option (List PostAction)} {delta : ℕ} (hkeyed : c.Keyed host)
    (h : c.verifyDepositCallback env result recipientId mintAmount protocolFee relayerFee info
      postActions delta = some receipt) :
    Simulates host Completes (.answer env
      (.verifyDeposit recipientId mintAmount protocolFee relayerFee info postActions delta) result)
      c inflight log receipt := by
  obtain ⟨_, _, _, hcheck, hclaim⟩ := verifyDepositCallback_inv h
  exact simulates_begin hkeyed hcheck hclaim (.standard _ _ _ _ _ _ _)

theorem verifySafeDepositCallback_simulates {result : PromiseResult} {recipientId : AccountId}
    {mintAmount : ℕ} {msg : String} {info : PendingUTXOInfo} {delta : ℕ} (hkeyed : c.Keyed host)
    (h : c.verifySafeDepositCallback host result recipientId mintAmount msg info delta
      = some receipt) :
    Simulates host Completes (.answer env
      (.verifySafeDeposit recipientId mintAmount msg info delta) result) c inflight log
      receipt := by
  obtain ⟨_, _, _, hcheck, hclaim⟩ := verifySafeDepositCallback_inv h
  exact simulates_begin hkeyed hcheck hclaim (.safe _ _ _ _ _ _)

theorem revertDeposit_spec (c : Contract) (info : PendingUTXOInfo) (height : Option ℕ) :
    ∃ ring, c.revertDeposit info height = { c with
      verifiedDepositUtxo := c.verifiedDepositUtxo.erase info.utxoStorageKey
      blockBridgeAmounts := ring } := by
  cases height with
  | none => exact ⟨c.blockBridgeAmounts, rfl⟩
  | some height => exact ⟨_, rfl⟩

theorem mintCallback_simulates {token recipientId relayer : AccountId}
    {mintAmount protocolFee relayerFee : ℕ} {postActions : Option (List PostAction)}
    {result : PromiseResult} {info : PendingUTXOInfo} {height : Option ℕ}
    (hkeyed : c.Keyed host)
    (h : c.mintCallback result recipientId protocolFee info height = some receipt) :
    Simulates host Completes (.answer env
      (.mint token recipientId mintAmount protocolFee relayer relayerFee postActions info height)
      result) c inflight log receipt := by
  unfold Contract.mintCallback at h
  simp only at h
  split at h
  · rename_i hsuccess
    obtain ⟨accounts, haccounts, hsub, _⟩ :=
      internalUnwrapOrCreateAccount_spec (c.internalRemoveUtxoInProgress info.utxoStorageKey)
        recipientId
    rw [haccounts, Option.bind_eq_bind, Option.bind_eq_some_iff] at h
    obtain ⟨c', hcollected, h⟩ := h
    obtain ⟨hroom, rfl⟩ := collectIfPositive_eq_some.mp hcollected
    rw [Option.some.injEq] at h
    subst h
    exact .marking (Effect.finish (l := c.ledger inflight log) env
      (.mint token recipientId mintAmount protocolFee relayer relayerFee postActions info height)
      result info {a | a ∈ accounts} rfl hsuccess hsub hroom) hkeyed
  · rename_i hfailure
    obtain ⟨ring, hring⟩ := revertDeposit_spec (c.internalRemoveUtxoInProgress info.utxoStorageKey)
      info height
    rw [Option.some.injEq, hring] at h
    subst h
    refine .marking ((Effect.revert (l := c.ledger inflight log) env
      (.mint token recipientId mintAmount protocolFee relayer relayerFee postActions info height)
      result info rfl (Bool.eq_false_of_not_eq_true hfailure)).of_eq ?_) hkeyed
    simp only [Promise.mintRevert, zero_add]
    rfl

theorem safeMintCallback_simulates {token recipientId : AccountId} {mintAmount : ℕ}
    {msg : Option String} {result : PromiseResult} {info : PendingUTXOInfo} {height : Option ℕ}
    (hkeyed : c.Keyed host)
    (h : c.safeMintCallback host env result mintAmount info height = some receipt) :
    Simulates host Completes (.answer env
      (.safeMint token recipientId mintAmount msg info height) result) c inflight log receipt := by
  unfold Contract.safeMintCallback at h
  simp only at h
  split at h
  · rename_i hsuccess
    rw [Option.some.injEq] at h
    subst h
    exact .marking (Effect.finish (l := c.ledger inflight log) env
      (.safeMint token recipientId mintAmount msg info height) result info {a | a ∈ c.accounts} rfl
      hsuccess (subset_refl _) fun hpos ↦ absurd hpos (lt_irrefl 0)) hkeyed
  · rename_i hfailure
    obtain ⟨ring, hring⟩ := revertDeposit_spec (c.internalRemoveUtxoInProgress info.utxoStorageKey)
      info height
    rw [Option.some.injEq, hring] at h
    subst h
    exact ⟨(Effect.revert (l := c.ledger inflight log) env
      (.safeMint token recipientId mintAmount msg info height) result info rfl
      (Bool.eq_false_of_not_eq_true hfailure)).of_eq rfl, hkeyed⟩

/-! ### Completing a deposit by hand -/

theorem completeFailedDepositMint_simulates {depositMsg : DepositMsg} {txBytes : DepositTxProof}
    {vout protocolFee : ℕ} (hkeyed : c.Keyed host)
    (hguard : ∀ summary, internalResolveDepositTx host txBytes = some summary →
      Completes (c.ledger inflight log) ⟨summary.txId, vout⟩)
    (h : c.completeFailedDepositMint host env depositMsg txBytes vout protocolFee
      = some receipt) :
    Simulates host Completes
      (.call env (.completeFailedDepositMint depositMsg txBytes vout protocolFee)) c inflight log
      receipt := by
  simp only [Contract.completeFailedDepositMint, Option.bind_eq_bind, Option.bind_eq_some_iff,
    require_eq_some, exists_and_left, exists_const, collectIfPositive_eq_some] at h
  obtain ⟨_, _, summary, htx, info, hinfo, hverified, hutxo, _, hrequest, _, ⟨hroom, rfl⟩, h⟩ := h
  obtain ⟨hkey, hdeposit⟩ := internalBuildDepositUtxoInfo_spec hkeyed htx hinfo
  obtain ⟨accounts, haccounts, hsub, _⟩ := internalUnwrapOrCreateAccount_spec
    ((c.internalSetUtxo info.utxoStorageKey info.utxo).internalRemoveUtxoInProgress
      info.utxoStorageKey) depositMsg.recipientId
  rw [haccounts] at hroom
  rw [haccounts, Option.some.injEq] at h
  subst h
  exact .marking (Effect.complete (l := c.ledger inflight log) env _ info.utxoStorageKey info.utxo
    protocolFee {a | a ∈ accounts} rfl (hkey ▸ hguard summary htx) hdeposit hverified
    (Option.isNone_iff_eq_none.mp hutxo) (Option.isNone_iff_eq_none.mp hrequest) hsub hroom) hkeyed

end SatoshiBridge

import SatoshiBridge.Model.SampleRun
import SatoshiBridge.Treasury.Runs

/-!
# Solvency

While the light client attests one transaction of a family and no deposit is completed by hand, the
tokens are backed by the coins of the bridge whenever no promise is in flight, and the balance of
the bridge covers what it owes if no callback runs out of gas and every burn is answered while the
sums of its callback fit their type.
-/

set_option autoImplicit false
set_option relaxedAutoImplicit false

namespace SatoshiBridge

namespace World

variable {σ : Setting} {w : World σ}

/-- Whenever no promise is in flight, the tokens are backed by the coins the bridge stores, those of
deposits in progress and those its pending originals have taken out. -/
theorem Reachable.tokens_backed (laws : σ.host.Lawful) (standard : σ.ft.Standard)
    (h : w.Reachable Sys.never) (honce : AttestsOnce w.log) (hquiet : w.Quiet) :
    w.totalSupply ≤ coinsHeld w.contract.utxos w.contract.utxosInProgress
      w.contract.btcPendingInfos := by
  have hsolvent : Solvent False w :=
    .of_runs laws standard (fun _ _ ha ↦ ⟨ha, False.elim⟩) h honce
  obtain ⟨paid, haccounts⟩ := hsolvent.accounts
  have hsupply := haccounts.supply
  have hnone : w.sum Promise.unburnt = 0 := by
    rw [sum, show w.inflight = [] from hquiet]
    rfl
  change w.totalSupply ≤ w.sys.ledger.coins
  omega

/-- And when no callback has run out of gas or added up what does not fit its type, the balance of
the bridge covers the protocol fees, the pending withdrawals and what was lost and found. -/
theorem ReachableFitting.owed_covered (laws : σ.host.Lawful) (standard : σ.ft.Standard)
    (h : w.ReachableFitting) (honce : AttestsOnce w.log) (hquiet : w.Quiet) :
    tokensOwed w.contract.fees w.contract.btcPendingInfos w.contract.lostFound ≤ w.balance := by
  have hsolvent : Solvent True w :=
    .of_runs laws standard (fun _ _ ha ↦ ⟨ha.1.allowed, fun _ ↦ ha⟩) h honce
  obtain ⟨paid, haccounts⟩ := hsolvent.accounts
  -- An executed burn that is not confirmed would be in flight.
  have hnone : paid = ∅ := by
    refine Finset.eq_empty_of_forall_notMem fun id hid ↦ ?_
    rcases haccounts.awaited trivial id hid with hnone | ⟨x, hx, _⟩
    · cases hnone
    · rw [show w.inflight = [] from hquiet] at hx
      cases hx
  have htokens := haccounts.tokens
  rw [hnone] at htokens
  have hzero : w.sys.ledger.amount BTCPendingInfo.debit ∅ = 0 := Finset.sum_empty
  change w.sys.ledger.owes ≤ w.balance
  omega

end World

/-! ### Samples -/

namespace Sample

/-- The standard token: positive amounts, one attached yocto, and accounts that are closed only
when they are empty or by force. -/
def standardToken : FungibleToken where
  State := Balances AccountId
  new := ∅
  accounts := id
  ftTotalSupply := Balances.supply
  internalRegisterAccount := Balances.register
  internalDeposit := Balances.deposit
  internalWithdraw := Balances.withdraw
  internalTransfer t sender receiver amount := do
    require (0 < amount)
    t.transfer sender receiver amount
  ftTransfer env t receiver amount := do
    require (env.attachedDeposit = 1 ∧ 0 < amount)
    t.transfer env.predecessor receiver amount
  ftTransferCall env t receiver amount := do
    require (env.attachedDeposit = 1 ∧ 0 < amount)
    t.transfer env.predecessor receiver amount
  internalFtResolveTransfer t sender receiver amount result :=
    let (t, returned, burnt) := t.giveBack sender receiver (unusedAmount amount result)
    some (t, amount - returned, burnt)
  storageDeposit env t accountId _ := some ((t.register (accountId.getD env.predecessor)).getD t)
  storageWithdraw env t _ := do
    require (env.attachedDeposit = 1)
    some t
  internalStorageUnregister env t force := do
    require (env.attachedDeposit = 1)
    require (t.balance env.predecessor = 0 ∨ force = some true)
    some (t.erase env.predecessor)

/-- A checked operation does what it checks for. -/
theorem of_require {α : Type} {p : Prop} [Decidable p] {x : Option α} {a : α}
    (h : (do require p; x) = some a) : x = some a := by
  simp only [Option.bind_eq_bind, Option.bind_eq_some_iff] at h
  obtain ⟨_, _, h⟩ := h
  exact h

theorem standardToken_standard : standardToken.Standard where
  new_accounts := rfl
  ftTotalSupply _ := rfl
  internalRegisterAccount h := h
  internalDeposit h := h
  internalWithdraw h := h
  internalWithdraw_of_le := Balances.withdraw_of_le
  internalTransfer h := of_require h
  ftTransfer h := of_require h
  ftTransferCall h := of_require h
  internalFtResolveTransfer {t t' sender receiver n result used burnt} h := by
    obtain ⟨after, returned, burnt', hgiven⟩ : ∃ after returned burnt',
        Balances.giveBack t sender receiver (unusedAmount n result) = (after, returned, burnt') :=
      ⟨_, _, _, rfl⟩
    have hreturned := (Balances.giveBack_spec hgiven).1
    have hle := unusedAmount_le n result
    have hresolved : some (after, n - returned, burnt') = some (t', used, burnt) := by
      rw [← h]
      unfold standardToken
      dsimp only
      rw [hgiven]
    cases hresolved
    exact ⟨returned, hgiven, by omega⟩
  storageDeposit {env t t' accountId only} h := by
    cases h
    cases hregister : Balances.register t (accountId.getD env.predecessor) with
    | none => exact Or.inl rfl
    | some after => exact Or.inr hregister
  storageWithdraw h := (Option.some.inj (of_require h)).symm
  internalStorageUnregister h := (Option.some.inj (of_require (of_require h))).symm

/-- The sample host and the standard token. Two messages for the bridge can be read. -/
noncomputable def setting : Setting where
  host := host false
  ft := standardToken
  nbtcId := "nbtc"
  readMessage text :=
    if text = "withdraw" then
      some (.withdraw bridge [⟨0, 0⟩] [⟨990, Numbering.word 0⟩] none none)
    else if text = "donate" then some .depositProtocolFee
    else none

/-- A standard deposit, minted by the token. -/
def minted (msg : DepositMsg) (vout : ℕ) : List WorldAction :=
  [.call (env "relayer" 1 0) (.verifyDepositV2 msg (.full [0]) vout 1),
    .callback 0 (env bridge 1 0) included, .execute 0, .callback 0 (env bridge 1 0) done]

/-- Alice and the DAO deposit, and Alice sends her tokens to the bridge. -/
def sent : List WorldAction :=
  [.call (env "dao" 0 1) .syncChainSignaturesRootPublicKey,
    .callback 0 (env bridge 0 0) (.value (.publicKey "root"))] ++
  minted aliceMsg 0 ++ minted daoMsg 1 ++
  [.nbtc ⟨"nbtc", "alice", 1, 0⟩ (.ftTransferCall bridge 1000 none "withdraw"),
    .onTransfer 0 (env "nbtc" 1 0), .run 0 0]

/-- The withdrawal of Alice is signed, confirmed and burnt. -/
def burnt : List WorldAction :=
  sent ++
  [.call (env "relayer" 2 0) (.signBtcTransaction 2 0 0), .callback 0 (env bridge 2 0) signed,
    .call (env "relayer" 5 0) (.verifyWithdrawV2 2), .callback 0 (env bridge 5 0) confirmed,
    .execute 0, .callback 0 (env bridge 5 0) done]

/-- Two new contracts, the bridge with a configuration. -/
noncomputable def start (config : Config) : Option (World setting) := do
  let contract ← Contract.new (env "dao" 0 0) config
  let nbtc ← NbtcContract.new "controller" bridge
  some ⟨contract, [], [], nbtc, []⟩

/-- The state after a list of actions on them. -/
noncomputable def worldAfterWith (config : Config) (actions : List WorldAction) :
    Option (World setting) := do
  let w ← start config
  Transition.execAll World.exec w actions

noncomputable def worldAfter (actions : List WorldAction) : Option (World setting) :=
  worldAfterWith config actions

theorem start_initial {config : Config} {w : World setting}
    (hconfig : config.nbtcAccountId = "nbtc") (h : start config = some w) : w.Initial := by
  simp only [start, Option.bind_eq_bind, Option.bind_eq_some_iff, Option.some.injEq] at h
  obtain ⟨contract, hnew, nbtc, hnbtc, rfl⟩ := h
  exact ⟨env "dao" 0 0, config, "controller", hnew, hconfig, hnbtc, rfl, rfl, rfl⟩

theorem reachesWorldOf {allowed : World setting → WorldAction → Prop} {config : Config}
    {actions : List WorldAction} {w : World setting} (hconfig : config.nbtcAccountId = "nbtc")
    (hallowed : ∀ w action, action ∈ actions → allowed w action)
    (h : worldAfterWith config actions = some w) :
    Transition.Reachable World.Initial World.exec allowed w := by
  simp only [worldAfterWith, Option.bind_eq_bind, Option.bind_eq_some_iff] at h
  obtain ⟨w₀, hstart, hexec⟩ := h
  exact ⟨w₀, start_initial hconfig hstart, Transition.runs_of_execAll hallowed hexec⟩

/-- Whether an action loses no callback, completes no deposit by hand and changes no
configuration. -/
def plain : WorldAction → Bool
  | .lose .. | .call _ (.completeFailedDepositMint ..) | .call _ (.updateConfig ..) => false
  | _ => true

theorem allowed_of_plain {σ : Setting} {guard : Sys.Guard} {w : World σ} {action : WorldAction}
    (h : plain action = true) : w.Allowed guard action := by
  cases action with
  | call env method =>
    cases method with
    | completeFailedDepositMint | updateConfig => cases h
    | _ => trivial
  | _ => trivial

theorem answering_of_plain {σ : Setting} {w : World σ} {action : WorldAction}
    (h : plain action = true) : w.Answering action := by
  cases action with
  | call env method =>
    have hallowed : w.Allowed Sys.never (.call env method) := allowed_of_plain h
    exact hallowed
  | lose => cases h
  | _ => trivial

theorem reachesWorld {guard : Sys.Guard} {actions : List WorldAction} {w : World setting}
    (hplain : actions.all plain = true) (h : worldAfter actions = some w) : w.Reachable guard :=
  reachesWorldOf rfl (fun _ a ha ↦ allowed_of_plain (List.all_eq_true.mp hplain a ha)) h

/-- Whether the sums of every callback of a run fit. -/
noncomputable def fits (config : Config) (actions : List WorldAction) : Bool :=
  (start config).all fun w ↦
    (Transition.taken World.exec w actions).all fun x ↦ decide (x.1.Fits x.2)

theorem reachesFitting {actions : List WorldAction} {w : World setting}
    (hplain : actions.all plain = true) (hfits : fits config actions = true)
    (h : worldAfter actions = some w) : w.ReachableFitting := by
  simp only [worldAfter, worldAfterWith, Option.bind_eq_bind, Option.bind_eq_some_iff] at h
  obtain ⟨w₀, hstart, hexec⟩ := h
  rw [fits, hstart, Option.all_some, List.all_eq_true] at hfits
  refine ⟨w₀, start_initial rfl hstart, Transition.runs_of_taken (fun x hx ↦ ?_) hexec⟩
  have haction := List.all_eq_true.mp hplain x.2 (Transition.mem_of_taken hx)
  exact ⟨answering_of_plain haction, of_decide_eq_true (hfits x hx)⟩

end Sample

/-- The withdrawal of Alice is burnt: the tokens of the DAO are backed by its coin and change. -/
theorem tokens_backed_burnt :
    ∃ w, Sample.worldAfter Sample.burnt = some w ∧ w.totalSupply = 500 ∧
      w.totalSupply ≤ coinsHeld w.contract.utxos w.contract.utxosInProgress
        w.contract.btcPendingInfos := by
  have hrun : (Sample.worldAfter Sample.burnt).map
      (fun w ↦ (w.totalSupply, w.inflight.length, attestations w.log)) =
        some (500, 0, [(2, 2)]) := by
    decide +kernel
  obtain ⟨w, hw, heq⟩ := Option.map_eq_some_iff.mp hrun
  simp only [Prod.mk.injEq] at heq
  obtain ⟨hsupply, hquiet, hattested⟩ := heq
  have honce : AttestsOnce w.log := .of_replicate 1 2 2 hattested
  have hreach : w.Reachable Sys.never := Sample.reachesWorld (by decide) hw
  exact ⟨w, hw, hsupply, hreach.tokens_backed (Sample.host_lawful false)
    Sample.standardToken_standard honce (List.length_eq_zero_iff.mp hquiet)⟩

/-- The tokens of the withdrawal of Alice are with the bridge. -/
theorem owed_covered_sent :
    ∃ w, Sample.worldAfter Sample.sent = some w ∧ w.balance = 1000 ∧
      tokensOwed w.contract.fees w.contract.btcPendingInfos w.contract.lostFound ≤ w.balance := by
  have hrun : (Sample.worldAfter Sample.sent).map
      (fun w ↦ (w.balance, w.inflight.length, attestations w.log)) = some (1000, 0, []) := by
    decide +kernel
  obtain ⟨w, hw, heq⟩ := Option.map_eq_some_iff.mp hrun
  simp only [Prod.mk.injEq] at heq
  obtain ⟨hbalance, hquiet, hattested⟩ := heq
  have honce : AttestsOnce w.log := .of_replicate 0 2 2 hattested
  have hreach := Sample.reachesFitting (by decide) (by decide +kernel) hw
  exact ⟨w, hw, hbalance, hreach.owed_covered (Sample.host_lawful false)
    Sample.standardToken_standard honce (List.length_eq_zero_iff.mp hquiet)⟩

end SatoshiBridge

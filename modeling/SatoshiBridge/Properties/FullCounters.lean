import SatoshiBridge.Origins.Transfers
import SatoshiBridge.Properties.Solvency

/-!
# A counter that is full

What the protocol has collected is counted in a `u128` that nothing takes from. Fees that are
claimed and given again fill it, and then the callback of a burn panics: the tokens of a confirmed
withdrawal are burnt and the bridge still owes them.
-/

set_option autoImplicit false
set_option relaxedAutoImplicit false

namespace SatoshiBridge

namespace Sample

open Transition (execAll_cons)

/-! ### A gift to the protocol, claimed again -/

/-- The DAO gives ten to the protocol and claims them. -/
def gift : List WorldAction :=
  [.nbtc ⟨"nbtc", "dao", 1, 0⟩ (.ftTransferCall bridge 10 none "donate"),
    .onTransfer 0 (env "nbtc" 6 0), .run 0 0,
    .call (env "dao" 6 1) (.withdrawProtocolFee none), .execute 1,
    .callback 1 (env bridge 6 0) done]

/-- The tokens go to the bridge, which keeps them, and back. -/
noncomputable def swing (t : setting.ft.State) : Option setting.ft.State := do
  let t ← setting.ft.ftTransferCall ⟨"nbtc", "dao", 1, 0⟩ t bridge 10
  let (t, _) ← setting.ft.internalFtResolveTransfer t "dao" bridge 10 (.value (.u128 0))
  setting.ft.ftTransfer ⟨"nbtc", bridge, 1, gasForTokenTransfer⟩ t "dao" 10

section Steps

variable {c : Contract} {x : Promise × Stage} {log : List Mark} {nbtc : NbtcContract setting.ft}
  {t : setting.ft.State}

theorem exec_send
    (h : setting.ft.ftTransferCall ⟨"nbtc", "dao", 1, 0⟩ nbtc.token bridge 10 = some t) :
    World.exec (⟨c, [x], log, nbtc, []⟩ : World setting)
        (.nbtc ⟨"nbtc", "dao", 1, 0⟩ (.ftTransferCall bridge 10 none "donate")) =
      some ⟨c, [x], log, { nbtc with token := t },
        [.transfer ⟨"dao", bridge, 10, "donate"⟩]⟩ := by
  simp only [World.exec, NbtcContract.call, NbtcContract.ftTransferCall, h, Option.bind_eq_bind,
    Option.bind_some]
  rfl

theorem exec_donate (hamount : c.config.minWithdrawAmount ≤ 10)
    (htoken : c.config.nbtcAccountId = "nbtc") (hroom : c.fees.HasRoom 10) :
    World.exec (⟨c, [x], log, nbtc, [.transfer ⟨"dao", bridge, 10, "donate"⟩]⟩ : World setting)
        (.onTransfer 0 (env "nbtc" 6 0)) =
      some ⟨c.collected 10, [x], log, nbtc, [.resolve "dao" bridge 10 (.value (.u128 0))]⟩ := by
  have hpaused : (env "nbtc" 6 0).assertNotPaused = some () := rfl
  have hpredecessor : (env "nbtc" 6 0).predecessor = c.config.nbtcAccountId := htoken.symm
  have hcollect := collectProtocolFee_eq_some.mpr ⟨hroom, rfl⟩
  have hreceipt : c.ftOnTransfer setting.host (env "nbtc" 6 0) "dao" 10 .depositProtocolFee =
      some ⟨c.collected 10, [], [], some (.u128 0)⟩ := by
    simp only [Contract.ftOnTransfer, hpaused, require_of hamount, require_of hpredecessor,
      hcollect, Option.bind_eq_bind, Option.bind_some]
  have hread : setting.readMessage "donate" = some .depositProtocolFee := rfl
  simp only [World.exec, List.getElem?_cons_zero, Option.bind_eq_bind, Option.bind_some,
    World.onTransfer, hread, hreceipt]
  simp [World.apply, World.next, World.resolutions, Transfer.resolve, require, setting, env, host]

theorem exec_keep {used burnt : ℕ}
    (h : setting.ft.internalFtResolveTransfer nbtc.token "dao" bridge 10 (.value (.u128 0)) =
      some (t, used, burnt)) :
    World.exec (⟨c, [x], log, nbtc, [.resolve "dao" bridge 10 (.value (.u128 0))]⟩ :
        World setting) (.run 0 0) = some ⟨c, [x], log, { nbtc with token := t }, []⟩ := by
  simp only [World.exec, List.getElem?_cons_zero, Option.bind_eq_bind, Option.bind_some,
    Flow.run, NbtcContract.ftResolveTransfer, h]
  rfl

theorem exec_claim (htoken : c.config.nbtcAccountId = "nbtc") (hdao : c.aclHasRole .dao "dao")
    (havailable : c.curAvailableProtocolFee = 10) :
    World.exec (⟨c, [x], log, nbtc, []⟩ : World setting)
        (.call (env "dao" 6 1) (.withdrawProtocolFee none)) =
      some ⟨{ c with
          curAvailableProtocolFee := 0
          accClaimedProtocolFee := c.accClaimedProtocolFee + 10 },
        [x, (.withdrawProtocolFee "nbtc" "dao" 10, .waiting)], log, nbtc, []⟩ := by
  have hyocto : (env "dao" 6 1).assertOneYocto = some () := rfl
  have hcaller : c.aclHasRole .dao (env "dao" 6 1).predecessor := hdao
  have hreceipt : c.withdrawProtocolFee (env "dao" 6 1) none = some ⟨{ c with
      curAvailableProtocolFee := 0
      accClaimedProtocolFee := c.accClaimedProtocolFee + 10 },
      [.withdrawProtocolFee "nbtc" "dao" 10], [], none⟩ := by
    simp only [Contract.withdrawProtocolFee, require_of hcaller, hyocto, havailable,
      Option.getD_none, htoken, Option.bind_eq_bind, Option.bind_some]
    rfl
  simp only [World.exec, Contract.call, hreceipt, Option.bind_eq_bind, Option.bind_some]
  simp [World.apply, require, setting, env]

theorem exec_pay
    (h : setting.ft.ftTransfer ⟨"nbtc", bridge, 1, gasForTokenTransfer⟩ nbtc.token "dao" 10 =
      some t) :
    World.exec (⟨c, [x, (.withdrawProtocolFee "nbtc" "dao" 10, .waiting)], log, nbtc, []⟩ :
        World setting) (.execute 1) =
      some ⟨c, [x, (.withdrawProtocolFee "nbtc" "dao" 10, .answered done)], log,
        { nbtc with token := t }, []⟩ := by
  have hreceiver : nbtc.ftTransferReceiver ⟨"nbtc", bridge, 1, gasForTokenTransfer⟩ "dao" none =
      "dao" := rfl
  have hcall : nbtc.call ⟨"nbtc", bridge, 1, gasForTokenTransfer⟩ (.ftTransfer "dao" 10 none) =
      some (NbtcContract.returning { nbtc with token := t } .unit) := by
    simp only [NbtcContract.call, NbtcContract.ftTransfer, hreceiver, h, Option.bind_eq_bind,
      Option.bind_some]
  have henv : World.nbtcEnv setting ⟨"nbtc", .ftTransfer "dao" 10 none, 1, gasForTokenTransfer⟩ =
      ⟨"nbtc", bridge, 1, gasForTokenTransfer⟩ := rfl
  simp only [World.exec, List.getElem?_cons_succ, List.getElem?_cons_zero, Option.bind_eq_bind,
    Option.bind_some, Promise.nbtcCall, World.execute, henv, hcall]
  rfl

theorem exec_paid :
    World.exec (⟨c, [x, (.withdrawProtocolFee "nbtc" "dao" 10, .answered done)], log, nbtc, []⟩ :
        World setting) (.callback 1 (env bridge 6 0) done) =
      some ⟨c, [x], log, nbtc, []⟩ := by
  have hanswered : World.Answered setting (.withdrawProtocolFee "nbtc" "dao" 10) (.answered done)
      done := ⟨fun _ _ _ ↦ rfl, fun h ↦ by cases h⟩
  simp only [World.exec, List.getElem?_cons_succ, List.getElem?_cons_zero, Option.bind_eq_bind,
    Option.bind_some, require_of hanswered, World.callback, Contract.callback,
    Contract.withdrawProtocolFeeCallback]
  simp [World.apply, World.take, World.send, World.resolutions, World.resolution, done,
    PromiseResult.isSuccess]

end Steps

/-- What a gift needs, and leaves as it was. -/
structure Giving (w : World setting) : Prop where
  flows : w.flows = []
  inflight : w.inflight.length = 1
  amount : w.contract.config.minWithdrawAmount ≤ 10
  token : w.contract.config.nbtcAccountId = "nbtc"
  dao : w.contract.aclHasRole .dao "dao" = true
  available : w.contract.curAvailableProtocolFee = 0
  swings : swing w.nbtc.token = some w.nbtc.token

/-- More was collected and claimed. -/
def given (w : World setting) (amount : ℕ) : World setting :=
  { w with contract := { w.contract with
      accCollectedProtocolFee := w.contract.accCollectedProtocolFee + amount
      accClaimedProtocolFee := w.contract.accClaimedProtocolFee + amount } }

theorem Giving.given {w : World setting} (h : Giving w) (amount : ℕ) : Giving (given w amount) :=
  ⟨h.flows, h.inflight, h.amount, h.token, h.dao, h.available, h.swings⟩

/-- A gift that is claimed again only counts. -/
theorem Giving.gift {w : World setting} (h : Giving w)
    (hroom : w.contract.accCollectedProtocolFee + 10 < 2 ^ 128) :
    Transition.execAll World.exec w gift = some (Sample.given w 10) := by
  obtain ⟨c, inflight, log, nbtc, flows⟩ := w
  obtain ⟨hflows, hlength, hamount, htoken, hdao, havailable, hswings⟩ := h
  dsimp only at hflows hlength hamount htoken hdao havailable hswings hroom
  obtain ⟨x, rfl⟩ := List.length_eq_one_iff.mp hlength
  subst hflows
  simp only [swing, Option.bind_eq_bind, Option.bind_eq_some_iff, Prod.exists] at hswings
  obtain ⟨t, hsent, t', used, burnt, hkept, hpaid⟩ := hswings
  have hfees : c.fees.HasRoom 10 := by
    refine ⟨hroom, ?_⟩
    change c.curAvailableProtocolFee + 10 < 2 ^ 128
    rw [havailable]
    decide
  have hten : (c.collected 10).curAvailableProtocolFee = 10 := congrArg (· + 10) havailable
  unfold Sample.gift
  rw [execAll_cons (exec_send hsent), execAll_cons (exec_donate hamount htoken hfees),
    execAll_cons (exec_keep hkept),
    execAll_cons (exec_claim (c := c.collected 10) htoken hdao hten),
    execAll_cons (exec_pay hpaid), execAll_cons exec_paid, Transition.execAll, Sample.given,
    ← havailable]
  rfl

/-- As many gifts as the counter has room for. -/
theorem Giving.gifts {w : World setting} (h : Giving w) (hw : w.ReachableAnswering) (n : ℕ)
    (hroom : w.contract.accCollectedProtocolFee + 10 * n < 2 ^ 128) :
    (Sample.given w (10 * n)).ReachableAnswering := by
  induction n with
  | zero => exact hw
  | succ n ih =>
    have hgift : Transition.execAll World.exec (Sample.given w (10 * n)) Sample.gift =
        some (Sample.given w (10 * (n + 1))) := by
      refine ((h.given (10 * n)).gift ?_).trans ?_
      · change w.contract.accCollectedProtocolFee + 10 * n + 10 < 2 ^ 128
        omega
      · simp only [Sample.given, add_assoc, Nat.mul_succ]
    refine (ih (by omega)).runs (Transition.runs_of_execAll (fun w action haction ↦ ?_) hgift)
    have hplain : Sample.gift.all plain = true := by decide
    exact answering_of_plain (List.all_eq_true.mp hplain action haction)

/-! ### A burn that is never confirmed -/

/-- The protocol takes ten from every withdrawal. -/
def feeConfig : Config := { config with withdrawBridgeFee := ⟨10, 0, 10000⟩ }

/-- Alice withdraws her coin for ten tokens more, and the token has burnt what is confirmed. -/
def executed : List WorldAction :=
  [.call (env "dao" 0 1) .syncChainSignaturesRootPublicKey,
    .callback 0 (env bridge 0 0) (.value (.publicKey "root"))] ++
  minted aliceMsg 0 ++ minted daoMsg 1 ++
  [.nbtc ⟨"nbtc", "dao", 1, 0⟩ (.ftTransfer "alice" 10 none),
    .nbtc ⟨"nbtc", "alice", 1, 0⟩ (.ftTransferCall bridge 1010 none "withdraw"),
    .onTransfer 0 (env "nbtc" 1 0), .run 0 0,
    .call (env "relayer" 2 0) (.signBtcTransaction 2 0 0), .callback 0 (env bridge 2 0) signed,
    .call (env "relayer" 5 0) (.verifyWithdrawV2 2), .callback 0 (env bridge 5 0) confirmed,
    .execute 0]

/-- The burn of the withdrawal. -/
def burn : Promise := .withdrawBurn "nbtc" "alice" 1000 bridge 0 2 10

/-- What the gifts and the callback of the burn find. -/
structure Awaits (w : World setting) : Prop extends Giving w where
  burn : w.inflight = [(Sample.burn, .answered done)]
  collected : w.contract.accCollectedProtocolFee = 10
  attested : attestations w.log = [(2, 2)]
  balance : w.balance = 10
  owed : tokensOwed w.contract.fees w.contract.btcPendingInfos w.contract.lostFound = 1010

theorem executed_awaits :
    ∃ w, worldAfterWith feeConfig (executed ++ gift) = some w ∧ Awaits w := by
  have hbridge : (worldAfterWith feeConfig (executed ++ gift)).map (fun w ↦
      (w.flows.length, w.contract.config.minWithdrawAmount, w.contract.config.nbtcAccountId,
        w.contract.aclHasRole .dao "dao", w.contract.curAvailableProtocolFee)) =
      some (0, 1, "nbtc", true, 0) := by
    decide +kernel
  have hbooks : (worldAfterWith feeConfig (executed ++ gift)).map (fun w ↦
      (w.contract.accCollectedProtocolFee, attestations w.log, w.balance,
        tokensOwed w.contract.fees w.contract.btcPendingInfos w.contract.lostFound)) =
      some (10, [(2, 2)], 10, 1010) := by
    decide +kernel
  have htoken : (worldAfterWith feeConfig (executed ++ gift)).map (fun w ↦
      (decide (w.inflight = [(Sample.burn, .answered done)]),
        decide ((swing w.nbtc.token).map (fun t ↦ (setting.ft.accounts t).entries) =
          some (setting.ft.accounts w.nbtc.token).entries))) = some (true, true) := by
    decide +kernel
  obtain ⟨w, hw, hfacts⟩ := Option.map_eq_some_iff.mp hbridge
  rw [hw, Option.map_some, Option.some.injEq] at hbooks htoken
  simp only [Prod.mk.injEq, decide_eq_true_eq] at hfacts hbooks htoken
  obtain ⟨hflows, hamount, hid, hdao, havailable⟩ := hfacts
  obtain ⟨hcollected, hattested, hbalance, howed⟩ := hbooks
  obtain ⟨hburn, hswings⟩ := htoken
  obtain ⟨t, ht, hentries⟩ := Option.map_eq_some_iff.mp hswings
  have hsame : t = w.nbtc.token := AList.ext hentries
  exact ⟨w, hw, {
    flows := List.length_eq_zero_iff.mp hflows
    inflight := by rw [hburn]; rfl
    amount := by rw [hamount]; decide
    token := hid
    dao := hdao
    available := havailable
    swings := hsame ▸ ht
    burn := hburn
    collected := hcollected
    attested := hattested
    balance := hbalance
    owed := howed }⟩

/-- When the counter is full, the callback of the burn panics. -/
theorem burn_panics {w : World setting} (hw : w.ReachableAnswering)
    (hfull : 2 ^ 128 ≤ w.contract.accCollectedProtocolFee + 10) :
    w.contract.callback setting.host (env bridge 7 0) done Sample.burn = none := by
  by_contra hsome
  obtain ⟨receipt, hreceipt⟩ := Option.ne_none_iff_exists'.mp hsome
  have hreach : w.Reachable Sys.never := hw.mono fun _ _ ha ↦ ha.allowed
  have hreads := (host_lawful false).toReadsAddresses
  have hreached := (World.reachable_sys w hreach).anytime hreads
  have hsums : w.contract.SumsFit Sample.burn :=
    Contract.sumsFit_of_callback hreached rfl hreceipt
  have hfits := (sumsFit_withdrawBurn.mp hsums).1
  omega

/-- The counter is filled while the burn waits for its callback. -/
theorem full_reached : ∃ w : World setting, w.ReachableAnswering ∧
    2 ^ 128 ≤ w.contract.accCollectedProtocolFee + 10 ∧
    w.inflight = [(Sample.burn, .answered done)] ∧ attestations w.log = [(2, 2)] ∧
    w.balance = 10 ∧
    tokensOwed w.contract.fees w.contract.btcPendingInfos w.contract.lostFound = 1010 := by
  obtain ⟨w, hw, hawaits⟩ := executed_awaits
  have hplain : (executed ++ gift).all plain = true := by decide
  have hreach : w.ReachableAnswering := reachesWorldOf rfl
    (fun _ action haction ↦ answering_of_plain (List.all_eq_true.mp hplain action haction)) hw
  have hcollected := hawaits.collected
  have hgiven := hawaits.toGiving.gifts hreach ((2 ^ 128 - 11) / 10) (by omega)
  refine ⟨_, hgiven, ?_, hawaits.burn, hawaits.attested, hawaits.balance, hawaits.owed⟩
  change 2 ^ 128 ≤ w.contract.accCollectedProtocolFee + 10 * ((2 ^ 128 - 11) / 10) + 10
  omega

end Sample

/-- So the balance of the bridge does not cover what it owes in every run without a lost callback:
1010 tokens are owed to Alice and ten are there. -/
theorem owed_uncovered : ¬∀ σ : Setting, σ.host.Lawful → σ.ft.Standard → ∀ w : World σ,
    w.ReachableAnswering → AttestsOnce w.log → w.Quiet →
      tokensOwed w.contract.fees w.contract.btcPendingInfos w.contract.lostFound ≤ w.balance := by
  intro hcovers
  obtain ⟨w, hw, hfull, hburn, hattested, hbalance, howed⟩ := Sample.full_reached
  have hp : w.inflight[0]? = some (Sample.burn, .answered Sample.done) := by
    rw [hburn]
    rfl
  have hanswered : World.Answered Sample.setting Sample.burn (.answered Sample.done) Sample.done :=
    ⟨fun _ _ _ ↦ rfl, fun h ↦ by cases h⟩
  have hexec : w.exec (.callback 0 (Sample.env Sample.bridge 7 0) Sample.done) =
      some (w.drop 0 Sample.burn Sample.done) := by
    simp only [World.exec, hp, Option.bind_eq_bind, Option.bind_some, require_of hanswered,
      World.callback, Sample.burn_panics hw hfull]
    exact congrArg (fun flows ↦ some { w.drop 0 Sample.burn Sample.done with flows := flows })
      (List.append_nil w.flows)
  have hallowed : w.Answering (.callback 0 (Sample.env Sample.bridge 7 0) Sample.done) := trivial
  have hafter : (w.drop 0 Sample.burn Sample.done).ReachableAnswering := hw.next hallowed hexec
  have honce : AttestsOnce (w.drop 0 Sample.burn Sample.done).log := by
    have hlog : (w.drop 0 Sample.burn Sample.done).log = w.log := List.append_nil w.log
    rw [hlog]
    exact .of_replicate 1 2 2 hattested
  have hquiet : (w.drop 0 Sample.burn Sample.done).Quiet := by
    unfold World.Quiet World.drop World.take
    rw [hburn]
    rfl
  have hcovered := hcovers Sample.setting (Sample.host_lawful false)
    Sample.standardToken_standard _ hafter honce hquiet
  change tokensOwed w.contract.fees w.contract.btcPendingInfos w.contract.lostFound ≤ w.balance
    at hcovered
  omega

end SatoshiBridge

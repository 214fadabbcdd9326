import SatoshiBridge.Invariants.Whereabouts
import SatoshiBridge.Properties.BackedMints
import SatoshiBridge.Properties.Custody

/-!
# What tokens are burnt for

A transaction is settled after its tokens were burnt, they are burnt after the light client has
confirmed it, and the light client is asked by a relayer. Apart from this burn the supply falls only
when all tokens of a safe mint come back, when an account closes and gives up what it has, and when
a transfer comes back to a sender that has closed its account.
-/

set_option autoImplicit false
set_option relaxedAutoImplicit false

namespace SatoshiBridge

/-- A burn that nobody awaits follows a safe mint whose tokens all came back. -/
theorem Effect.reverts {host : Host} {Completes : Ledger → OutPoint → Prop} {cause : Cause}
    {l l' : Ledger} (h : Effect host Completes cause l l') {token account relayer : AccountId}
    {amount fee : ℕ} (hp : .burnDetached token account amount relayer fee ∈ l'.inflight) :
    .burnDetached token account amount relayer fee ∈ l.inflight ∨
      account = host.currentAccountId ∧ fee = 0 ∧
        ∃ env token recipientId text info height result,
          cause = .answer env (.safeMint token recipientId amount text info height) result ∧
            result.isRefundRequired = true := by
  have hnew {p : Promise} (hmem : .burnDetached token account amount relayer fee ∈ p ::ₘ l.inflight)
      (hne : ∀ token account amount relayer fee,
        p ≠ .burnDetached token account amount relayer fee) :
      .burnDetached token account amount relayer fee ∈ l.inflight := by
    rcases Multiset.mem_cons.mp hmem with heq | hold
    · exact absurd heq.symm (hne token account amount relayer fee)
    · exact hold
  cases h with
  | issue env method p hissued =>
    refine Or.inl (hnew hp fun _ _ _ _ _ heq ↦ ?_)
    rw [heq] at hissued
    exact hissued
  | begin env p m result info hmints =>
    refine Or.inl (hnew hp fun _ _ _ _ _ heq ↦ ?_)
    rw [heq] at hmints
    cases hmints
  | attest env p burn result txId withdraw info hverifies hpending hstage hrefund hburn =>
    refine Or.inl (hnew hp fun _ _ _ _ _ heq ↦ ?_)
    rw [heq] at hburn
    cases hburn
  | claim | withdrawFee => exact Or.inl (hnew hp fun _ _ _ _ _ heq ↦ by cases heq)
  | revert env m result info hinfo hminted =>
    rcases Multiset.mem_add.mp hp with hsent | hold
    · cases m with
      | safeMint token' recipientId mintAmount text info' height =>
        right
        cases Multiset.mem_singleton.mp hsent
        refine ⟨rfl, rfl, env, token', recipientId, text, info', height, result, rfl, ?_⟩
        simpa [Promise.minted] using hminted
      | _ => exact absurd hsent (Multiset.notMem_zero _)
    · exact Or.inl hold
  | commitWithdraw =>
    rcases Multiset.mem_add.mp hp with hsent | hold
    · unfold refundTransfer at hsent
      split at hsent
      · cases Multiset.mem_singleton.mp hsent
      · exact absurd hsent (Multiset.notMem_zero _)
    · exact Or.inl hold
  | _ => exact Or.inl hp

namespace Sys

variable {host : Host} {s s' : Sys}

/-- All tokens of a safe mint came back. -/
def ComesBack (amount : ℕ) : Transition.Event Sys Action :=
  fun before a _ ↦ ∃ index env token recipientId text info height result,
    a = .callback index env result ∧ result.isRefundRequired = true ∧
    before.inflight[index]? = some (.safeMint token recipientId amount text info height)

theorem exec_comesBack (laws : host.ReadsAddresses) (hs : s.WellShaped host) {a : Action}
    {token account relayer : AccountId} {amount fee : ℕ} (he : s.exec host a = some s')
    (hp : .burnDetached token account amount relayer fee ∈ s'.inflight) :
    .burnDetached token account amount relayer fee ∈ s.inflight ∨
      account = host.currentAccountId ∧ fee = 0 ∧ ComesBack amount s a s' := by
  obtain ⟨cause, mid, hmid, heffect, hcauses, _⟩ := exec_cause laws hs he
  rcases heffect.reverts (Multiset.mem_coe.mpr hp) with hold | ⟨haccount, hfee, env, token',
    recipientId, text, info, height, result, rfl, hrefund⟩
  · left
    have hbefore : .burnDetached token account amount relayer fee ∈ s.ledger.inflight := by
      rw [hmid]
      exact Multiset.mem_add.mpr (Or.inr hold)
    exact Multiset.mem_coe.mp hbefore
  · cases hcauses with
    | answer index env p result receipt hp' =>
      exact Or.inr ⟨haccount, hfee, index, env, token', recipientId, text, info, height, result,
        rfl, hrefund, hp'⟩

end Sys

namespace World

open Transition (Once InOrder)

variable {σ : Setting} {w w' : World σ} {steps : Steps σ} {guard : Sys.Guard} {id root : Txid}

/-! ### Transactions of the bridge -/

/-- The bridge has created the transaction with this id. -/
structure Created (w : World σ) (id : Txid) (info : BTCPendingInfo) : Prop where
  created : ∃ payee, Mark.created info payee ∈ w.log
  txid : σ.host.computeTxid (info.psbt.transaction σ.host) = id

theorem Created.next {info : BTCPendingInfo} (h : w.Created id info) {action : WorldAction}
    (he : w.exec action = some w') : w'.Created id info where
  created := by
    obtain ⟨payee, hcreated⟩ := h.created
    obtain ⟨marks, hlog⟩ := exec_log he
    refine ⟨payee, ?_⟩
    rw [hlog]
    exact List.mem_append_left marks hcreated
  txid := h.txid

theorem Created.runs {info : BTCPendingInfo} (h : w.Created id info) (hw : w.Reachable guard)
    (hruns : Transition.Runs exec (Allowed guard) w w') : w'.Created id info :=
  Transition.Runs.stable (P := fun w ↦ w.Created id info)
    (fun _ _ _ _ hcreated _ he ↦ hcreated.next he) hw h hruns

/-- A pending transaction is one that the bridge has created. -/
theorem created_of_pending (laws : σ.host.ReadsAddresses) (hw : w.Reachable guard)
    {info : BTCPendingInfo} (hinfo : w.contract.btcPendingInfos.lookup id = some info) :
    ∃ first, w.Created id first ∧ Carries σ.host first info := by
  have hreached := (reachable_sys w hw).anytime laws
  obtain ⟨first, payee, hcreated, hcarries⟩ := hreached.descended id info hinfo
  refine ⟨first, ⟨⟨payee, hcreated⟩, ?_⟩, hcarries⟩
  rw [← hcarries.transaction]
  exact (hreached.identified id info hinfo).txid

/-! ### Confirmations -/

/-- The light client is asked by a relayer. -/
theorem History.asksFor {p : Promise} {n : ℕ} (hid : p.inclusion = some (id, n)) :
    ∀ (steps : Steps σ) w, History guard steps w → p ∈ w.sys.inflight →
      Once (Lifts (Sys.AsksFor id n)) steps := by
  refine Transition.History.once ?_ ?_
  · intro w hw hmem
    obtain ⟨_, _, _, hinflight, _⟩ := hw.sys
    rw [hinflight] at hmem
    exact absurd hmem List.not_mem_nil
  · intro _ w action w' _ _ hexec hmem
    rcases exec_sys hexec with hsame | ⟨a, hacts, hstep⟩
    · rw [hsame] at hmem
      exact Or.inl hmem
    · exact (Sys.exec_asksFor hid hstep hmem).imp_right fun hasks ↦ ⟨a, hacts, hasks⟩

/-- The light client has confirmed a transaction for which it was asked. -/
abbrev Confirmed (id : Txid) (n : ℕ) (steps : Steps σ) : Prop :=
  InOrder [Lifts (Sys.Includes id n), Lifts (Sys.AsksFor id n)] steps

theorem History.confirms {n : ℕ} (h : History guard steps w) {action : WorldAction} {a : Action}
    (hacts : w.Acts action a) (hincludes : Sys.Includes id n w.sys a w'.sys) :
    Confirmed id n (⟨w, action, w'⟩ :: steps) := by
  have hevent : Lifts (Sys.Includes id n) w action w' := ⟨a, hacts, hincludes⟩
  obtain ⟨index, env, p, _, hp, hid⟩ := hincludes
  obtain ⟨step, hmem, hasks⟩ := History.asksFor hid steps w h (List.mem_of_getElem? hp)
  obtain ⟨earlier, _, _, _, hsuffix⟩ := h.taken hmem
  exact .now hevent ⟨step, earlier, hsuffix, hasks, trivial⟩

/-- A burn in flight is that of a confirmed transaction. -/
theorem History.burning (laws : σ.host.ReadsAddresses) {p : Promise} (hid : p.burns = some id)
    (h : History guard steps w) (hmem : p ∈ w.sys.inflight) :
    ∃ info n, w.Created id info ∧ p.burnAmount = info.burnAmount ∧ Confirmed id n steps := by
  induction h with
  | start hs =>
    obtain ⟨_, _, _, hinflight, _⟩ := hs.sys
    rw [hinflight] at hmem
    exact absurd hmem List.not_mem_nil
  | @next steps w w' action h ha hexec ih =>
    rcases exec_sys hexec with hsame | ⟨a, hacts, hstep⟩
    · rw [hsame] at hmem
      obtain ⟨info, n, hcreated, hamount, hconfirmed⟩ := ih hmem
      exact ⟨info, n, hcreated.next hexec, hamount, hconfirmed.later⟩
    · rcases Sys.exec_includes laws ((reachable_sys w h.reachable).wellShaped laws) hid hstep
        hmem with hold | ⟨n, info, withdraw, hincludes, hinfo, hburn⟩
      · obtain ⟨info, n, hcreated, hamount, hconfirmed⟩ := ih hold
        exact ⟨info, n, hcreated.next hexec, hamount, hconfirmed.later⟩
      · obtain ⟨first, hcreated, hcarries⟩ := created_of_pending laws h.reachable hinfo
        refine ⟨first, n, hcreated.next hexec, ?_, History.confirms h hacts hincludes⟩
        rw [hburn.amount, hcarries.burnAmount]

/-- Tokens are burnt for a confirmed transaction. -/
theorem History.burns_confirmed (laws : σ.host.ReadsAddresses) (h : History guard steps w)
    {amount : ℕ} (honce : Once (Burns id amount) steps) :
    ∃ n, InOrder [Burns id amount, Lifts (Sys.Includes id n), Lifts (Sys.AsksFor id n)] steps := by
  obtain ⟨step, hmem, hburns⟩ := honce
  obtain ⟨earlier, hearlier, _, _, hsuffix⟩ := h.taken hmem
  have hevent := hburns
  obtain ⟨index, p, _, _, hp, _, _, hid, _⟩ := hburns
  obtain ⟨_, n, _, _, hconfirmed⟩ :=
    History.burning laws hid hearlier (List.mem_of_getElem? (sys_getElem? hp))
  exact ⟨n, step, earlier, hsuffix, hevent, hconfirmed⟩

/-! ### Settled transactions -/

theorem Acts.callback_eq {action : WorldAction} {index : ℕ} {env : Env} {result : PromiseResult}
    (h : w.Acts action (.callback index env result)) : action = .callback index env result := by
  cases h with
  | callback => rfl

/-- The transaction was confirmed, then its tokens were burnt, and then it was settled. -/
abbrev Redeemed (id : Txid) (n amount : ℕ) (steps : Steps σ) : Prop :=
  InOrder [Lifts (Sys.Settles id), Burns id amount, Lifts (Sys.Includes id n),
    Lifts (Sys.AsksFor id n)] steps

/-- The step that settles a transaction. -/
theorem History.settles (laws : σ.host.Lawful) (standard : σ.ft.Standard)
    (h : History Sys.unfinished steps w) {action : WorldAction} {a : Action}
    (he : w.exec action = some w') (hacts : w.Acts action a)
    (hsettles : Sys.Settles id w.sys a w'.sys) {info : BTCPendingInfo}
    (hinfo : w.contract.btcPendingInfos.lookup id = some info) :
    ∃ n, Redeemed id n info.burnAmount (⟨w, action, w'⟩ :: steps) := by
  have hevent : Lifts (Sys.Settles id) w action w' := ⟨a, hacts, hsettles⟩
  obtain ⟨index, env, p, result, rfl, hp, hid, hsuccess⟩ := hsettles
  have haction := hacts.callback_eq
  subst haction
  have hcalls : p.nbtcCall.isSome = true := by
    cases p with
    | withdrawBurn | activeUtxoManagementBurn => rfl
    | _ => cases hid
  have hanswered :=
    answered_of_callback laws.toReadsAddresses h.reachable he hp hcalls
  have honce := History.burnt standard hid hsuccess steps w h hanswered
  have hreached := (reachable_sys w h.reachable).ofUnfinished laws.toReadsAddresses
  have hmem : p ∈ w.sys.ledger.inflight := Multiset.mem_coe.mpr (List.mem_of_getElem? hp)
  obtain ⟨_, _, hburn, _⟩ := hreached.burnOf laws hmem hid hinfo
  rw [hburn.amount] at honce
  obtain ⟨n, horder⟩ := History.burns_confirmed laws.toReadsAddresses h honce
  exact ⟨n, .now hevent horder⟩

/-- While only deposits in progress are completed by hand, a transaction that is settled was asked
for, confirmed by the light client, burnt with its own amount and then settled, in this order. -/
theorem History.redeems (laws : σ.host.Lawful) (standard : σ.ft.Standard)
    (h : History Sys.unfinished steps w) (hm : Mark.committed id root ∈ w.log) :
    ∃ info n, w.Created id info ∧ info.root id = root ∧ Redeemed id n info.burnAmount steps := by
  induction h with
  | start hs =>
    obtain ⟨_, _, _, _, _, _, _, _, hlog⟩ := hs
    rw [hlog] at hm
    exact absurd hm List.not_mem_nil
  | @next steps w w' action h ha hexec ih =>
    have hlater (hold : Mark.committed id root ∈ w.log) : ∃ info n, w'.Created id info ∧
        info.root id = root ∧ Redeemed id n info.burnAmount (⟨w, action, w'⟩ :: steps) := by
      obtain ⟨info, n, hcreated, hroot, hredeemed⟩ := ih hold
      exact ⟨info, n, hcreated.next hexec, hroot, hredeemed.later⟩
    rcases exec_sys hexec with hsame | ⟨a, hacts, hstep⟩
    · have hlog : w'.log = w.log := congrArg Sys.log hsame
      rw [hlog] at hm
      exact hlater hm
    · rcases Sys.exec_settles laws.toReadsAddresses
        ((reachable_sys w h.reachable).wellShaped laws.toReadsAddresses) hstep hm with
        hold | ⟨hsettles, info, hinfo, hroot⟩
      · exact hlater hold
      · obtain ⟨first, hcreated, hcarries⟩ :=
          created_of_pending laws.toReadsAddresses h.reachable hinfo
        obtain ⟨n, hredeemed⟩ := History.settles laws standard h hexec hacts hsettles hinfo
        rw [hcarries.burnAmount] at hredeemed
        rw [hcarries.root] at hroot
        exact ⟨first, n, hcreated.next hexec, hroot, hredeemed⟩

/-- The withdrawal of Alice is redeemed. -/
theorem redeems_burnt :
    ∃ w, Sample.worldAfter Sample.burnt = some w ∧ Mark.committed 2 2 ∈ w.log ∧
      ∃ steps info n, History Sys.unfinished steps w ∧ w.Created 2 info ∧ info.root 2 = 2 ∧
        Redeemed 2 n info.burnAmount steps := by
  have hrun : (Sample.worldAfter Sample.burnt).map
      (fun w ↦ decide (Mark.committed 2 2 ∈ w.log)) = some true := by decide +kernel
  obtain ⟨w, hw, hcommitted⟩ := Option.map_eq_some_iff.mp hrun
  rw [decide_eq_true_eq] at hcommitted
  have hreach : w.Reachable Sys.unfinished := Sample.reachesWorld (by decide) hw
  obtain ⟨steps, hsteps⟩ := Transition.Reachable.history w hreach
  obtain ⟨info, n, hcreated, hroot, hredeemed⟩ :=
    History.redeems (Sample.host_lawful false) Sample.standardToken_standard hsteps hcommitted
  exact ⟨w, hw, hcommitted, steps, info, n, hsteps, hcreated, hroot, hredeemed⟩

/-- In every run, a refund that has ended was asked for and confirmed by the light client. -/
theorem History.refunds_confirmed (laws : σ.host.ReadsAddresses) {key : OutPoint}
    (h : History guard steps w) (hm : Mark.refundFinalised id key ∈ w.log) :
    ∃ info n, w.Created id info ∧ info.state.isRefund = true ∧ info.inputs = [key] ∧
      Confirmed id n steps := by
  induction h with
  | start hs =>
    obtain ⟨_, _, _, _, _, _, _, _, hlog⟩ := hs
    rw [hlog] at hm
    exact absurd hm List.not_mem_nil
  | @next steps w w' action h ha hexec ih =>
    have hlater (hold : Mark.refundFinalised id key ∈ w.log) : ∃ info n, w'.Created id info ∧
        info.state.isRefund = true ∧ info.inputs = [key] ∧
          Confirmed id n (⟨w, action, w'⟩ :: steps) := by
      obtain ⟨info, n, hcreated, hrefund, hinputs, hconfirmed⟩ := ih hold
      exact ⟨info, n, hcreated.next hexec, hrefund, hinputs, hconfirmed.later⟩
    rcases exec_sys hexec with hsame | ⟨a, hacts, hstep⟩
    · have hlog : w'.log = w.log := congrArg Sys.log hsame
      rw [hlog] at hm
      exact hlater hm
    · rcases Sys.exec_ends laws ((reachable_sys w h.reachable).wellShaped laws) hstep hm with
        hold | ⟨n, info, hincludes, hinfo, hrefund, hinputs⟩
      · exact hlater hold
      · obtain ⟨first, hcreated, hcarries⟩ := created_of_pending laws h.reachable hinfo
        rw [hcarries.isRefund] at hrefund
        rw [hcarries.inputs] at hinputs
        exact ⟨first, n, hcreated.next hexec, hrefund, hinputs,
          History.confirms h hacts hincludes⟩

/-- The deposit of Bob is refunded. -/
def refunded : List WorldAction :=
  [.call (Sample.env "dao" 0 1) .syncChainSignaturesRootPublicKey,
    .callback 0 (Sample.env Sample.bridge 0 0) (.value (.publicKey "root")),
    .call (Sample.env "dao" 1 requiredBalanceForRequestRefund)
      (.requestRefund Sample.bobMsg "bob-address" (.full [0]) 2 (some 50)),
    .callback 0 (Sample.env Sample.bridge 1 0) Sample.included,
    .call (Sample.env "relayer" 200 requiredBalanceForExecuteRefund) (.executeRefund ⟨0, 2⟩ none),
    .call (Sample.env "relayer" 201 0) (.signBtcTransaction 6 0 0),
    .callback 0 (Sample.env Sample.bridge 201 0) Sample.signed,
    .call (Sample.env "relayer" 205 0) (.verifyWithdrawV2 6),
    .callback 0 (Sample.env Sample.bridge 205 0) Sample.confirmed]

theorem refunds_confirmed_bob :
    ∃ w, Sample.worldAfter refunded = some w ∧ Mark.refundFinalised 6 ⟨0, 2⟩ ∈ w.log ∧
      ∃ steps info n, History Sys.always steps w ∧ w.Created 6 info ∧ info.state.isRefund = true ∧
        info.inputs = [⟨0, 2⟩] ∧ Confirmed 6 n steps := by
  have hrun : (Sample.worldAfter refunded).map
      (fun w ↦ decide (Mark.refundFinalised 6 ⟨0, 2⟩ ∈ w.log)) = some true := by decide +kernel
  obtain ⟨w, hw, hended⟩ := Option.map_eq_some_iff.mp hrun
  rw [decide_eq_true_eq] at hended
  have hreach : w.Reachable Sys.always := Sample.reachesWorld (by decide) hw
  obtain ⟨steps, hsteps⟩ := Transition.Reachable.history w hreach
  obtain ⟨info, n, hcreated, hrefund, hinputs, hconfirmed⟩ :=
    History.refunds_confirmed (Sample.host_lawful false).toReadsAddresses hsteps hended
  exact ⟨w, hw, hended, steps, info, n, hsteps, hcreated, hrefund, hinputs, hconfirmed⟩

/-! ### Falling supply -/

/-- The bridge is registered with its token. -/
theorem reachable_registered (standard : σ.ft.Standard) :
    ∀ w : World σ, w.Reachable guard → w.nbtc.bridgeId ∈ w.nbtc.books := by
  refine Transition.Reachable.induct ?_ ?_
  · rintro w ⟨_, _, controller, _, _, hnbtc, _⟩
    simp only [NbtcContract.new, Option.bind_eq_bind, Option.bind_eq_some_iff,
      Option.some.injEq] at hnbtc
    obtain ⟨token, hregister, hcontract⟩ := hnbtc
    have hregistered := standard.internalRegisterAccount hregister
    rw [standard.new_accounts] at hregistered
    rw [← hcontract]
    exact (Balances.register_spec hregistered).2.2 _ (Or.inl rfl)
  · intro w action w' hw hin _ hexec
    obtain ⟨_, hissues, _⟩ := exec_issues standard (reachable_bridgeId w hw) hexec
    exact hissues.registered hin

/-- The transfer of a safe mint that has begun. -/
def transferOf : Stage → Option Transfer
  | .transferring t | .resolving t _ => some t
  | .waiting | .answered _ => none

/-- The bridge sends the tokens of its safe mints itself. -/
theorem reachable_sender {p : Promise} {t : Transfer} : ∀ w : World σ, w.Reachable guard →
    ∀ stage, (p, stage) ∈ w.inflight → transferOf stage = some t →
      t.senderId = σ.host.currentAccountId := by
  refine Transition.Reachable.induct ?_ ?_
  · rintro w ⟨_, _, _, _, _, _, hinflight, _⟩ stage hmem
    rw [hinflight] at hmem
    exact absurd hmem List.not_mem_nil
  · intro w action w' _ ih _ hexec stage hmem ht
    rcases exec_reaches hexec hmem with hold | hwaits | ⟨index, old, hp, hreaches⟩
    · exact ih stage hold ht
    · rw [hwaits] at ht
      cases ht
    · cases hreaches with
      | executed call receipt hcall hreceipt =>
        have hanswer : receipt.answer = .transfer t := by
          unfold NbtcAnswer.stage at ht
          split at ht
          · cases ht
          · rename_i heq
            rw [heq, Option.some.inj ht]
        exact ((nbtcCall_spec hreceipt).2 t hanswer).1.symm
      | failed | resolved => cases ht
      | received t' result => exact ih _ (List.mem_of_getElem? hp) ht

/-- All tokens that a burn nobody awaits will burn came back from a safe mint. -/
theorem History.comesBack (laws : σ.host.ReadsAddresses) {token account relayer : AccountId}
    {amount fee : ℕ} : ∀ (steps : Steps σ) w, History guard steps w →
      .burnDetached token account amount relayer fee ∈ w.sys.inflight →
        Once (Lifts (Sys.ComesBack amount)) steps := by
  refine Transition.History.once ?_ ?_
  · intro w hw hmem
    obtain ⟨_, _, _, hinflight, _⟩ := hw.sys
    rw [hinflight] at hmem
    exact absurd hmem List.not_mem_nil
  · intro _ w action w' h _ hexec hmem
    rcases exec_sys hexec with hsame | ⟨a, hacts, hstep⟩
    · rw [hsame] at hmem
      exact Or.inl hmem
    · have hwell := (reachable_sys w h.reachable).wellShaped laws
      exact (Sys.exec_comesBack laws hwell hstep hmem).imp_right fun hback ↦
        ⟨a, hacts, hback.2.2⟩

/-- What tokens are burnt for, with the amount: a confirmed transaction of the bridge, a safe mint
whose tokens came back, an account closed by its owner, or a return to a sender without an account,
as far as the receiver has it. -/
inductive BurntFor (steps : Steps σ) (w : World σ) : WorldAction → ℕ → Prop
  | confirmed (index : ℕ) (p : Promise) (id : Txid) (info : BTCPendingInfo) (n : ℕ)
      (hp : w.inflight[index]? = some (p, .waiting)) (hid : p.burns = some id)
      (hcreated : w.Created id info) (hconfirmed : Confirmed id n steps) :
      BurntFor steps w (.execute index) info.burnAmount
  | reverted (index : ℕ) (token account relayer : AccountId) (amount fee : ℕ)
      (hp : w.inflight[index]? = some (.burnDetached token account amount relayer fee, .waiting))
      (hback : Once (Lifts (Sys.ComesBack amount)) steps) :
      BurntFor steps w (.execute index) amount
  | closed (env : NbtcEnv) (force : Option Bool) :
      BurntFor steps w (.nbtc env (.storageUnregister force))
        (σ.ft.ftBalanceOf w.nbtc.token env.predecessor)
  | lapsed (index prepaidGas : ℕ) (senderId receiverId : AccountId) (amount : ℕ)
      (result : PromiseResult)
      (hflow : w.flows[index]? = some (.resolve senderId receiverId amount result))
      (hclosed : senderId ∉ w.nbtc.books) :
      BurntFor steps w (.run index prepaidGas)
        (min (σ.ft.ftBalanceOf w.nbtc.token receiverId) (unusedAmount amount result))

/-- What the execution of a promise burns. -/
theorem History.executes_burns (laws : σ.host.ReadsAddresses) (standard : σ.ft.Standard)
    (h : History guard steps w) {index : ℕ} {p : Promise} {call : NbtcCall}
    {receipt : NbtcReceipt σ.ft} (hp : w.inflight[index]? = some (p, .waiting))
    (hcall : p.nbtcCall = some call)
    (hreceipt : w.nbtc.call (nbtcEnv σ call) call.method = some receipt) :
    w.nbtc.Grows receipt.contract ∨ ∃ amount, BurntFor steps w (.execute index) amount ∧
      w.nbtc.Burns receipt.contract amount := by
  have hmem := List.mem_of_getElem? (sys_getElem? hp)
  have hburning {id : Txid} (hid : p.burns = some id) :
      ∃ amount, BurntFor steps w (.execute index) amount ∧
        w.nbtc.Burns receipt.contract amount := by
    obtain ⟨hburns, _⟩ := burn_executes standard hid hcall hreceipt
    obtain ⟨info, n, hcreated, hamount, hconfirmed⟩ := History.burning laws hid h hmem
    rw [hamount] at hburns
    exact ⟨_, .confirmed index p id info n hp hid hcreated hconfirmed, hburns⟩
  cases p with
  | mint =>
    cases hcall
    exact Or.inl (NbtcContract.mint_grows standard hreceipt)
  | safeMint =>
    cases hcall
    exact Or.inl (NbtcContract.safeMint_grows standard hreceipt)
  | withdrawBurn | activeUtxoManagementBurn => exact Or.inr (hburning rfl)
  | burnDetached token account amount relayer fee =>
    cases hcall
    have hburn : w.nbtc.burn _ account amount relayer fee = some receipt := hreceipt
    exact Or.inr ⟨amount, .reverted index token account relayer amount fee hp
      (History.comesBack laws steps w h hmem), NbtcContract.burn_burns standard hburn⟩
  | transferNbtc | withdrawProtocolFee =>
    cases hcall
    simp only [NbtcContract.call, Option.bind_eq_bind, Option.bind_eq_some_iff,
      Option.some.injEq] at hreceipt
    obtain ⟨nbtc, htransfer, rfl⟩ := hreceipt
    exact Or.inl (NbtcContract.ftTransfer_burns standard htransfer).grows
  | _ => cases hcall

/-- In every run, the supply falls only by what is burnt for one of these reasons. -/
theorem History.burns_accounted (laws : σ.host.ReadsAddresses) (standard : σ.ft.Standard)
    (h : History guard steps w) {action : WorldAction} (he : w.exec action = some w')
    (hfall : w'.totalSupply < w.totalSupply) :
    ∃ amount, BurntFor steps w action amount ∧ w'.totalSupply + amount = w.totalSupply := by
  rw [totalSupply_eq standard, totalSupply_eq standard] at hfall ⊢
  suffices hburns : w.nbtc.Grows w'.nbtc ∨ ∃ amount, BurntFor steps w action amount ∧
      w.nbtc.Burns w'.nbtc amount from by
    rcases hburns with hgrows | hburns
    · exact absurd hfall (Nat.not_lt.mpr hgrows)
    · exact hburns
  have hbridge := reachable_bridgeId w h.reachable
  have hoperates := exec_operates he
  generalize w'.nbtc = nbtc at hoperates
  cases hoperates with
  | nothing => exact Or.inl (NbtcContract.Burns.refl w.nbtc).grows
  | executes index p call receipt hp hcall hreceipt =>
    exact History.executes_burns laws standard h hp hcall hreceipt
  | calls env method receipt hother hreceipt =>
    rw [← hbridge] at hother
    rcases NbtcContract.call_burns standard hother hreceipt with hnone | ⟨force, rfl, hburns⟩
    · exact Or.inl hnone.grows
    · exact Or.inr ⟨_, .closed env force, hburns⟩
  | resolves index p t result nbtc used hp hresolve =>
    have hburns := NbtcContract.ftResolveTransfer_burns standard hresolve
    have hsender := reachable_sender w h.reachable _ (List.mem_of_getElem? hp) rfl
    -- What comes back from a safe mint goes to the bridge.
    have hin : t.senderId ∈ w.nbtc.books := by
      rw [hsender, ← hbridge]
      exact reachable_registered standard w h.reachable
    rw [if_pos hin] at hburns
    exact Or.inl hburns.grows
  | returns index prepaidGas senderId receiverId amount result nbtc used hflow hresolve =>
    have hburns := NbtcContract.ftResolveTransfer_burns standard hresolve
    by_cases hin : senderId ∈ w.nbtc.books
    · rw [if_pos hin] at hburns
      exact Or.inl hburns.grows
    · rw [if_neg hin] at hburns
      exact Or.inr ⟨_, .lapsed index prepaidGas senderId receiverId amount result hflow hin, hburns⟩
  | posts index prepaidGas senderId postAction nbtc t hflow hhandle =>
    exact Or.inl (NbtcContract.handlePostAction_burns standard hhandle).grows

/-- The burn for the withdrawal of Alice. -/
theorem burns_accounted_withdrawal :
    ∃ w w', Sample.worldAfter (Sample.burnt.take 17) = some w ∧ w.exec (.execute 0) = some w' ∧
      w.totalSupply = 1500 ∧ w'.totalSupply = 500 ∧
      ∃ steps amount, History Sys.always steps w ∧ BurntFor steps w (.execute 0) amount ∧
        w'.totalSupply + amount = w.totalSupply := by
  have hrun : (Sample.worldAfter (Sample.burnt.take 17)).bind (fun w ↦
      (w.exec (.execute 0)).map fun w' ↦ (w.totalSupply, w'.totalSupply)) =
        some (1500, 500) := by decide +kernel
  obtain ⟨w, hw, hsome⟩ := Option.bind_eq_some_iff.mp hrun
  obtain ⟨w', hexec, hfacts⟩ := Option.map_eq_some_iff.mp hsome
  rw [Prod.mk.injEq] at hfacts
  obtain ⟨hbefore, hafter⟩ := hfacts
  have hreach : w.Reachable Sys.always := Sample.reachesWorld (by decide) hw
  obtain ⟨steps, hsteps⟩ := Transition.Reachable.history w hreach
  have hfall : w'.totalSupply < w.totalSupply := by
    rw [hbefore, hafter]
    decide
  obtain ⟨amount, hburnt, hamount⟩ := History.burns_accounted
    (Sample.host_lawful false).toReadsAddresses Sample.standardToken_standard hsteps hexec hfall
  exact ⟨w, w', hw, hexec, hbefore, hafter, steps, amount, hsteps, hburnt, hamount⟩

end World

end SatoshiBridge

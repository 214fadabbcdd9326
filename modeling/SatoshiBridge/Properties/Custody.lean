import SatoshiBridge.Origins.Mints
import SatoshiBridge.Properties.Solvency
import SatoshiBridge.Treasury.Custody

/-!
# Who moves the tokens of an account

Whatever the bridge, the relayers and the other accounts do, an account of the token loses tokens in
three ways only: by a call of its own, as many as the method spends; when a transfer it has received
is resolved, up to what it has answered not to have used; and by a post action of a deposit that was
confirmed for its deposit address, as many as the action names.
-/

set_option autoImplicit false
set_option relaxedAutoImplicit false

namespace SatoshiBridge.World

open Transition (Once)

variable {σ : Setting} {w w' : World σ} {steps : Steps σ} {guard : Sys.Guard} {account : AccountId}

/-! ### What an account has agreed to -/

/-- The receiver of a transfer was called and has answered, or ran out of gas. -/
def AnswersTransfer (senderId receiverId : AccountId) (amount : ℕ) (result : PromiseResult) :
    Transition.Event (World σ) WorldAction :=
  fun w action _ ↦ ∃ t : Transfer, t.senderId = senderId ∧ t.receiverId = receiverId ∧
    t.amount = amount ∧
    ((∃ index, action = .answer index result ∧ w.flows[index]? = some (.transfer t)) ∨
      ∃ index p, action = .receive index result ∧ w.inflight[index]? = some (p, .transferring t))

/-- The ways an account gives tokens away, each with the action that takes them and the amount: a
call of its own, the resolution of a transfer it has answered, or a post action of a deposit for
it. -/
inductive Gives (steps : Steps σ) (w : World σ) (account : AccountId) : WorldAction → ℕ → Prop
  | calls (env : NbtcEnv) (method : NbtcMethod) (hcaller : env.predecessor = account) :
      Gives steps w account (.nbtc env method)
        (method.spends (σ.ft.ftBalanceOf w.nbtc.token account))
  | returns (index prepaidGas : ℕ) (senderId : AccountId) (amount : ℕ) (result : PromiseResult)
      (hflow : w.flows[index]? = some (.resolve senderId account amount result))
      (hanswered : Once (AnswersTransfer senderId account amount result) steps) :
      Gives steps w account (.run index prepaidGas) (unusedAmount amount result)
  | resolves (index : ℕ) (p : Promise) (t : Transfer) (result : PromiseResult)
      (hp : w.inflight[index]? = some (p, .resolving t result)) (hreceiver : t.receiverId = account)
      (hanswered : Once (AnswersTransfer t.senderId account t.amount result) steps) :
      Gives steps w account (.resolve index) (unusedAmount t.amount result)
  | posts (index prepaidGas : ℕ) (action : PostAction) (actions : List PostAction)
      (msg : DepositMsg) (info : PendingUTXOInfo)
      (hflow : w.flows[index]? = some (.postAction account action)) (hmem : action ∈ actions)
      (hmsg : msg.postActions = some actions) (hrecipient : msg.recipientId = account)
      (hdeposited : Deposited steps msg info) :
      Gives steps w account (.run index prepaidGas) action.amount

/-! ### Transfers that were answered -/

/-- Who resolves a transfer to somebody else than the bridge has its answer. -/
theorem History.answers (h : History guard steps w) {senderId : AccountId} {amount : ℕ}
    {result : PromiseResult} (hother : account ≠ σ.host.currentAccountId)
    (hmem : Flow.resolve senderId account amount result ∈ w.flows) :
    Once (AnswersTransfer senderId account amount result) steps := by
  obtain ⟨step, hstep, harises⟩ := History.arises steps w h hmem
  refine ⟨step, hstep, ?_⟩
  obtain ⟨before, action, after⟩ := step
  generalize hflow : Flow.resolve senderId account amount result = flow at harises
  cases harises with
  | answered index result' t hsent =>
    cases hflow
    exact ⟨t, rfl, rfl, rfl, Or.inl ⟨index, rfl, hsent⟩⟩
  | kept =>
    cases hflow
    exact absurd rfl hother
  | _ => cases hflow

/-- A safe mint that waits for the resolution of its transfer has its answer. -/
theorem exec_resolving {action : WorldAction} {p : Promise} {t : Transfer} {result : PromiseResult}
    (he : w.exec action = some w') (hmem : (p, Stage.resolving t result) ∈ w'.inflight) :
    (p, Stage.resolving t result) ∈ w.inflight ∨
      AnswersTransfer t.senderId t.receiverId t.amount result w action w' := by
  rcases exec_reaches he hmem with hold | hwaits | ⟨index, old, hp, hreaches⟩
  · exact Or.inl hold
  · cases hwaits
  · right
    generalize hstage : Stage.resolving t result = stage at hreaches
    cases hreaches with
    | failed | resolved => cases hstage
    | executed call receipt =>
      unfold NbtcAnswer.stage at hstage
      split at hstage
      · cases hstage
      · cases hstage
    | received t' result' =>
      cases hstage
      exact ⟨t, rfl, rfl, rfl, Or.inr ⟨index, p, rfl, hp⟩⟩

theorem History.resolves {p : Promise} {t : Transfer} {result : PromiseResult} :
    ∀ (steps : Steps σ) w, History guard steps w → (p, Stage.resolving t result) ∈ w.inflight →
      Once (AnswersTransfer t.senderId t.receiverId t.amount result) steps := by
  refine Transition.History.once ?_ ?_
  · rintro w ⟨_, _, _, _, _, _, hinflight, _⟩ hmem
    rw [hinflight] at hmem
    exact absurd hmem List.not_mem_nil
  · intro _ w action w' _ _ hexec hmem
    exact exec_resolving hexec hmem

/-! ### Post actions -/

/-- Post actions in flight were asked for by the message of a deposit to the account. -/
theorem History.lists (laws : σ.host.ReadsAddresses) (h : History guard steps w)
    {actions : List PostAction} (hmem : Flow.postActions account actions ∈ w.flows) :
    ∃ msg info, msg.postActions = some actions ∧ msg.recipientId = account ∧
      Deposited steps msg info := by
  obtain ⟨step, hstep, harises⟩ := History.arises steps w h hmem
  obtain ⟨earlier, hearlier, _, _, hsuffix⟩ := h.taken hstep
  obtain ⟨before, action, after⟩ := step
  cases harises with
  | minted index token _ relayer amount protocolFee relayerFee _ info height hp =>
    have hinflight := List.mem_of_getElem? (sys_getElem? hp)
    obtain ⟨msg, hpays, delta, hasked, hconfirmed⟩ :=
      History.mints laws hearlier _ info hinflight rfl
    have hlater := (List.suffix_cons _ earlier).trans hsuffix
    refine ⟨msg, info, ?_, ?_, delta, hasked.suffix hlater, hconfirmed.suffix hlater⟩
    · cases hpays with
      | standard _ _ _ _ _ _ _ _ hactions => exact hactions actions rfl
    · cases hpays with
      | standard => rfl

theorem History.posts (laws : σ.host.ReadsAddresses) (h : History guard steps w)
    {action : PostAction} (hmem : Flow.postAction account action ∈ w.flows) :
    ∃ actions msg info, action ∈ actions ∧ msg.postActions = some actions ∧
      msg.recipientId = account ∧ Deposited steps msg info := by
  obtain ⟨step, hstep, harises⟩ := History.arises steps w h hmem
  obtain ⟨earlier, hearlier, _, _, hsuffix⟩ := h.taken hstep
  obtain ⟨before, taken, after⟩ := step
  cases harises with
  | listed index prepaidGas _ actions _ hflow haction =>
    obtain ⟨msg, info, hmsg, hrecipient, delta, hasked, hconfirmed⟩ :=
      History.lists laws hearlier (List.mem_of_getElem? hflow)
    have hlater := (List.suffix_cons _ earlier).trans hsuffix
    exact ⟨actions, msg, info, haction, hmsg, hrecipient, delta, hasked.suffix hlater,
      hconfirmed.suffix hlater⟩

/-! ### Losses -/

/-- What the resolution of a transfer takes from its receiver. -/
theorem resolve_loses (standard : σ.ft.Standard) {senderId receiverId : AccountId}
    {amount used : ℕ} {result : PromiseResult} {nbtc : NbtcContract σ.ft}
    (hresolve : w.nbtc.ftResolveTransfer senderId receiverId amount result = some (nbtc, used)) :
    w.nbtc.Loses nbtc account 0 ∨
      account = receiverId ∧ w.nbtc.Loses nbtc account (unusedAmount amount result) := by
  have hloses : w.nbtc.Loses nbtc account _ :=
    NbtcContract.ftResolveTransfer_loses standard hresolve
  by_cases hreceiver : account = receiverId
  · rw [if_pos hreceiver] at hloses
    exact Or.inr ⟨hreceiver, hloses⟩
  · rw [if_neg hreceiver] at hloses
    exact Or.inl hloses

/-- In every run, an account other than the bridge keeps its balance in a step or gives tokens away
in it, and then it loses no more than it gives. -/
theorem History.custody (laws : σ.host.ReadsAddresses) (standard : σ.ft.Standard)
    (h : History guard steps w) (hother : account ≠ σ.host.currentAccountId) {action : WorldAction}
    (he : w.exec action = some w') :
    σ.ft.ftBalanceOf w.nbtc.token account ≤ σ.ft.ftBalanceOf w'.nbtc.token account ∨
      ∃ amount, Gives steps w account action amount ∧ σ.ft.ftBalanceOf w.nbtc.token account ≤
        σ.ft.ftBalanceOf w'.nbtc.token account + amount := by
  suffices hloses : w.nbtc.Loses w'.nbtc account 0 ∨ ∃ amount,
      Gives steps w account action amount ∧ w.nbtc.Loses w'.nbtc account amount from hloses
  have hbridge : account ≠ w.nbtc.bridgeId := by
    rw [reachable_bridgeId w h.reachable]
    exact hother
  have hoperates := exec_operates he
  generalize w'.nbtc = nbtc at hoperates
  cases hoperates with
  | nothing => exact Or.inl (.refl w.nbtc account)
  | executes index p call receipt hp hcall hreceipt =>
    have hloses := NbtcContract.call_loses standard hbridge hreceipt
    have hcaller : account ≠ (nbtcEnv σ call).predecessor := hother
    rw [if_neg hcaller] at hloses
    exact Or.inl hloses
  | calls env method receipt _ hreceipt =>
    have hloses := NbtcContract.call_loses standard hbridge hreceipt
    by_cases hcaller : account = env.predecessor
    · rw [if_pos hcaller] at hloses
      exact Or.inr ⟨_, .calls env method hcaller.symm, hloses⟩
    · rw [if_neg hcaller] at hloses
      exact Or.inl hloses
  | resolves index p t result nbtc used hp hresolve =>
    rcases resolve_loses standard hresolve with hkept | ⟨hreceiver, hloses⟩
    · exact Or.inl hkept
    · have hanswered := History.resolves steps w h (List.mem_of_getElem? hp)
      rw [← hreceiver] at hanswered
      exact Or.inr ⟨_, .resolves index p t result hp hreceiver.symm hanswered, hloses⟩
  | returns index prepaidGas senderId receiverId amount result nbtc used hflow hresolve =>
    rcases resolve_loses standard hresolve with hkept | ⟨hreceiver, hloses⟩
    · exact Or.inl hkept
    · rw [← hreceiver] at hflow
      have hanswered := History.answers h hother (List.mem_of_getElem? hflow)
      exact Or.inr ⟨_, .returns index prepaidGas senderId amount result hflow hanswered, hloses⟩
  | posts index prepaidGas senderId postAction nbtc t hflow hhandle =>
    have hloses : w.nbtc.Loses nbtc account _ :=
      NbtcContract.handlePostAction_loses standard hhandle
    by_cases hsender : account = senderId
    · rw [if_pos hsender] at hloses
      rw [← hsender] at hflow
      obtain ⟨actions, msg, info, hmem, hmsg, hrecipient, hdeposited⟩ :=
        History.posts laws h (List.mem_of_getElem? hflow)
      exact Or.inr ⟨_, .posts index prepaidGas postAction actions msg info hflow hmem hmsg
        hrecipient hdeposited, hloses⟩
    · rw [if_neg hsender] at hloses
      exact Or.inl hloses

/-- Alice sends her tokens herself. -/
theorem custody_sent :
    ∃ w w', Sample.worldAfter (Sample.sent.take 10) = some w ∧
      w.exec (.nbtc ⟨"nbtc", "alice", 1, 0⟩
        (.ftTransferCall Sample.bridge 1000 none "withdraw")) = some w' ∧
      Sample.standardToken.ftBalanceOf w.nbtc.token "alice" = 1000 ∧
      Sample.standardToken.ftBalanceOf w'.nbtc.token "alice" = 0 ∧
      ∃ steps, History Sys.always steps w ∧ Gives steps w "alice" (.nbtc ⟨"nbtc", "alice", 1, 0⟩
        (.ftTransferCall Sample.bridge 1000 none "withdraw")) 1000 := by
  have hrun : (Sample.worldAfter (Sample.sent.take 10)).bind (fun w ↦ (w.exec
      (.nbtc ⟨"nbtc", "alice", 1, 0⟩ (.ftTransferCall Sample.bridge 1000 none "withdraw"))).map
        fun w' ↦ (Sample.standardToken.ftBalanceOf w.nbtc.token "alice",
          Sample.standardToken.ftBalanceOf w'.nbtc.token "alice")) = some (1000, 0) := by
    decide +kernel
  obtain ⟨w, hw, hsome⟩ := Option.bind_eq_some_iff.mp hrun
  obtain ⟨w', hexec, hfacts⟩ := Option.map_eq_some_iff.mp hsome
  rw [Prod.mk.injEq] at hfacts
  obtain ⟨hbefore, hafter⟩ := hfacts
  have hreach : w.Reachable Sys.always := Sample.reachesWorld (by decide) hw
  obtain ⟨steps, hsteps⟩ := Transition.Reachable.history w hreach
  have hother : "alice" ≠ Sample.setting.host.currentAccountId := by decide +kernel
  refine ⟨w, w', hw, hexec, hbefore, hafter, steps, ?_⟩
  rcases History.custody (Sample.host_lawful false).toReadsAddresses Sample.standardToken_standard
    hsteps hother hexec with hkept | ⟨amount, hgives, _⟩
  · have hle : (1000 : ℕ) ≤ 0 := by
      rw [← hbefore, ← hafter]
      exact hkept
    exact absurd hle (by decide)
  · cases hgives with
    | calls env method hcaller => exact ⟨hsteps, .calls _ _ hcaller⟩

end SatoshiBridge.World

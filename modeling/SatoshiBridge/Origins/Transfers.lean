import SatoshiBridge.Origins.Runs
import SatoshiBridge.Treasury.Links

/-!
# Where the calls of a run of both contracts come from

The bridge in a run of both contracts takes the steps of a run of its own, and the token calls it
only for transfers in flight. A transfer to the bridge is in flight because its sender has called
`ft_transfer_call`: the tokens of mints and of post actions never go to the bridge that way.
-/

set_option autoImplicit false
set_option relaxedAutoImplicit false

namespace SatoshiBridge.World

open Transition (Once)

/-- The steps of a run of both contracts. -/
abbrev Steps (σ : Setting) := List (Transition.Record (World σ) WorldAction)

/-- The runs of both contracts that keep to a guard, with their steps. -/
abbrev History {σ : Setting} (guard : Sys.Guard) (steps : Steps σ) (w : World σ) : Prop :=
  Transition.History Initial exec (Allowed guard) steps w

variable {σ : Setting} {w w' : World σ} {steps : Steps σ} {guard : Sys.Guard}
  {guard : Sys.Guard}

/-! ### Events -/

/-- The action of the bridge in an action of both contracts. -/
inductive Acts (w : World σ) : WorldAction → Action → Prop
  | call (env : Env) (method : Method) (hother : env.predecessor ≠ σ.nbtcId) :
      Acts w (.call env method) (.call env method)
  | callback (index : ℕ) (env : Env) (result : PromiseResult) :
      Acts w (.callback index env result) (.callback index env result)
  | lose (index : ℕ) (result : PromiseResult) : Acts w (.lose index result) (.lose index result)
  | onTransfer (index : ℕ) (env : Env) (t : Transfer) (msg : TokenReceiverMessage)
      (hflow : w.flows[index]? = some (.transfer t))
      (hreceiver : t.receiverId = σ.host.currentAccountId) (henv : env.predecessor = σ.nbtcId)
      (hmsg : σ.readMessage t.msg = some msg) :
      Acts w (.onTransfer index env) (.call env (.ftOnTransfer t.senderId t.amount msg))

/-- The bridge took a step of this kind. -/
def Lifts (event : Transition.Event Sys Action) : Transition.Event (World σ) WorldAction :=
  fun w action w' ↦ ∃ a, w.Acts action a ∧ event w.sys a w'.sys

/-! ### The bridge in a run of both contracts -/

theorem sys_execute (w : World σ) {index : ℕ} {p : Promise} {stage : Stage} {call : NbtcCall}
    (hp : w.inflight[index]? = some (p, stage)) : (w.execute index p call).sys = w.sys := by
  unfold World.execute
  split
  · exact sys_advance hp _
  · exact sys_advance hp _

theorem sys_resolve (w : World σ) {index : ℕ} {p : Promise} {stage : Stage} {t : Transfer}
    {result : PromiseResult} (hp : w.inflight[index]? = some (p, stage)) :
    (w.resolve index p t result).sys = w.sys := by
  unfold World.resolve
  split
  · exact sys_advance hp _
  · exact sys_advance hp _

/-- How the call of a promise comes further: the token executes it, it runs out of gas, the receiver
of its transfer answers, or the transfer is resolved. -/
inductive Reaches (w w' : World σ) (index : ℕ) (p : Promise) : Stage → WorldAction → Stage → Prop
  | executed (call : NbtcCall) (receipt : NbtcReceipt σ.ft) (hcall : p.nbtcCall = some call)
      (hreceipt : w.nbtc.call (nbtcEnv σ call) call.method = some receipt)
      (hnbtc : w'.nbtc = receipt.contract) :
      Reaches w w' index p .waiting (.execute index) receipt.answer.stage
  | failed (old : Stage) (action : WorldAction) (hold : old.executes = true) :
      Reaches w w' index p old action (.answered .failed)
  | received (t : Transfer) (result : PromiseResult) :
      Reaches w w' index p (.transferring t) (.receive index result) (.resolving t result)
  | resolved (t : Transfer) (result : PromiseResult) (used : ℕ) :
      Reaches w w' index p (.resolving t result) (.resolve index) (.answered (.value (.u128 used)))

/-- What an action does for the bridge: it is an action of the bridge, or brings the call of one of
its promises further, or is nothing to it. -/
inductive Advances (w w' : World σ) (action : WorldAction) : Prop
  | acts (a : Action) (sent : List Promise) (hacts : w.Acts action a)
      (hstep : w.sys.exec σ.host a = some w'.sys)
      (hinflight : w'.inflight = Sys.rest a w.inflight ++ sent.map fun p ↦ (p, .waiting))
  | reaches (index : ℕ) (p : Promise) (old stage : Stage)
      (hp : w.inflight[index]? = some (p, old)) (hreaches : Reaches w w' index p old action stage)
      (hinflight : w'.inflight = w.inflight.set index (p, stage)) (hsys : w'.sys = w.sys)
  | rests (hinflight : w'.inflight = w.inflight) (hsys : w'.sys = w.sys)

theorem exec_advances {action : WorldAction} (h : w.exec action = some w') :
    Advances w w' action := by
  cases action with
  | call env method =>
    simp only [exec, Option.bind_eq_bind, Option.bind_eq_some_iff, require_eq_some, exists_const,
      Option.some.injEq] at h
    obtain ⟨hother, receipt, hcall, rfl⟩ := h
    have hsame : w.sys.contract.call σ.host env method = some receipt := hcall
    refine .acts _ receipt.promises (.call env method hother) ?_ rfl
    rw [sys_apply, Sys.exec, hsame]
    rfl
  | callback index env result =>
    simp only [exec, Option.bind_eq_bind, Option.bind_eq_some_iff, require_eq_some, exists_const,
      Option.some.injEq, Prod.exists] at h
    obtain ⟨p, stage, hp, hanswered, rfl⟩ := h
    have hrequired : require (p.Answers σ.host result) = some () :=
      require_eq_some.mpr hanswered.2
    unfold World.callback
    split
    · rename_i receipt hcallback
      have hsame : w.sys.contract.callback σ.host env result p = some receipt := hcallback
      refine .acts _ receipt.promises (.callback index env result) ?_ rfl
      change w.sys.exec σ.host (.callback index env result) =
        some ((w.take index).apply receipt).sys
      rw [sys_apply, sys_take, Sys.exec, sys_getElem? hp]
      simp only [Option.bind_eq_bind, Option.bind_some, hrequired, hsame]
      rfl
    · rename_i hcallback
      have hsame : w.sys.contract.callback σ.host env result p = none := hcallback
      refine .acts _ [] (.callback index env result) ?_ (List.append_nil _).symm
      change w.sys.exec σ.host (.callback index env result) = some (w.drop index p result).sys
      rw [sys_drop, Sys.exec, sys_getElem? hp]
      simp only [Option.bind_eq_bind, Option.bind_some, hrequired, hsame]
  | lose index result =>
    simp only [exec, Option.bind_eq_bind, Option.bind_eq_some_iff, require_eq_some, exists_const,
      Option.some.injEq, Prod.exists] at h
    obtain ⟨p, stage, hp, _, rfl⟩ := h
    refine .acts _ [] (.lose index result) ?_ (List.append_nil _).symm
    change w.sys.exec σ.host (.lose index result) = some (w.drop index p result).sys
    rw [sys_drop, Sys.exec, sys_getElem? hp]
    rfl
  | execute index =>
    simp only [exec, Option.bind_eq_bind, Option.bind_eq_some_iff, require_eq_some, exists_const,
      Option.some.injEq, Prod.exists] at h
    obtain ⟨p, old, hp, call, hcall, ⟨_, rfl⟩, rfl⟩ := h
    have hsys : (w.execute index p call).sys = w.sys := sys_execute w hp
    unfold World.execute at hsys ⊢
    split at hsys
    · rename_i receipt hreceipt
      exact .reaches index p .waiting _ hp (.executed call receipt hcall hreceipt rfl) rfl hsys
    · exact .reaches index p .waiting _ hp (.failed _ _ rfl) rfl hsys
  | fail index =>
    simp only [exec, Option.bind_eq_bind, Option.bind_eq_some_iff, require_eq_some, exists_const,
      Option.some.injEq, Prod.exists] at h
    obtain ⟨p, old, hp, call, _, ⟨_, hold, _⟩, rfl⟩ := h
    exact .reaches index p old _ hp (.failed _ _ hold) rfl (sys_advance hp _)
  | receive index result =>
    simp only [exec, Option.bind_eq_bind, Option.bind_eq_some_iff] at h
    obtain ⟨x, hx, h⟩ := h
    split at h
    · rename_i p t
      cases h
      exact .reaches index p _ _ hx (.received t result) rfl (sys_advance hx _)
    · cases h
  | resolve index =>
    simp only [exec, Option.bind_eq_bind, Option.bind_eq_some_iff] at h
    obtain ⟨x, hx, h⟩ := h
    split at h
    · rename_i p t result
      cases h
      have hsys : (w.resolve index p t result).sys = w.sys := sys_resolve w hx
      unfold World.resolve at hsys ⊢
      split at hsys
      · exact .reaches index p _ _ hx (.resolved t result _) rfl hsys
      · exact .reaches index p _ _ hx (.failed _ _ rfl) rfl hsys
    · cases h
  | nbtc env method =>
    simp only [exec, Option.bind_eq_bind, Option.bind_eq_some_iff, Option.some.injEq] at h
    obtain ⟨_, _, receipt, _, rfl⟩ := h
    exact .rests rfl rfl
  | onTransfer index env =>
    simp only [exec, Option.bind_eq_bind, Option.bind_eq_some_iff] at h
    obtain ⟨flow, hflow, h⟩ := h
    split at h
    · rename_i t
      simp only [Option.bind_eq_some_iff, require_eq_some, exists_const, Option.some.injEq] at h
      obtain ⟨⟨hreceiver, henv⟩, rfl⟩ := h
      unfold World.onTransfer
      dsimp only
      split
      · rename_i receipt hreceipt
        simp only [Option.bind_eq_bind, Option.bind_eq_some_iff] at hreceipt
        obtain ⟨msg, hmsg, hcall⟩ := hreceipt
        have hsame : w.sys.contract.call σ.host env (.ftOnTransfer t.senderId t.amount msg) =
            some receipt := hcall
        refine .acts _ receipt.promises (.onTransfer index env t msg hflow hreceiver henv hmsg) ?_
          rfl
        change w.sys.exec σ.host (.call env (.ftOnTransfer t.senderId t.amount msg)) =
          some (w.apply receipt).sys
        rw [sys_apply, Sys.exec, hsame]
        rfl
      · exact .rests rfl rfl
    · cases h
  | answer index result =>
    simp only [exec, Option.bind_eq_bind, Option.bind_eq_some_iff] at h
    obtain ⟨flow, _, h⟩ := h
    split at h
    · simp only [Option.bind_eq_some_iff, Option.some.injEq] at h
      obtain ⟨_, _, rfl⟩ := h
      exact .rests rfl rfl
    · cases h
  | run index prepaidGas =>
    simp only [exec, Option.bind_eq_bind, Option.bind_eq_some_iff, Option.some.injEq,
      Prod.exists] at h
    obtain ⟨flow, _, nbtc, flows, _, rfl⟩ := h
    exact .rests rfl rfl
  | expire index =>
    simp only [exec, Option.bind_eq_bind, Option.bind_eq_some_iff, Option.some.injEq] at h
    obtain ⟨flow, _, _, _, rfl⟩ := h
    exact .rests rfl rfl

/-- An action of both contracts is one of the bridge or leaves it as it is. -/
theorem exec_sys {action : WorldAction} (h : w.exec action = some w') :
    w'.sys = w.sys ∨ ∃ a, w.Acts action a ∧ w.sys.exec σ.host a = some w'.sys := by
  cases exec_advances h with
  | acts a sent hacts hstep => exact Or.inr ⟨a, hacts, hstep⟩
  | reaches _ _ _ _ _ _ _ hsys => exact Or.inl hsys
  | rests _ hsys => exact Or.inl hsys

/-- The promises an action leaves were in flight before. -/
theorem mem_rest {α : Type} {a : Action} {inflight : List α} {x : α}
    (h : x ∈ Sys.rest a inflight) : x ∈ inflight := by
  unfold Sys.rest at h
  split at h
  · exact h
  · exact List.mem_of_mem_eraseIdx h
  · exact List.mem_of_mem_eraseIdx h

/-- A promise is at the stage it was at, or waits since the bridge has sent it, or has just come
further. -/
theorem exec_reaches {action : WorldAction} {p : Promise} {stage : Stage}
    (h : w.exec action = some w') (hmem : (p, stage) ∈ w'.inflight) :
    (p, stage) ∈ w.inflight ∨ stage = .waiting ∨ ∃ index old,
      w.inflight[index]? = some (p, old) ∧ Reaches w w' index p old action stage := by
  cases exec_advances h with
  | acts a sent _ _ hinflight =>
    rw [hinflight] at hmem
    rcases List.mem_append.mp hmem with hold | hnew
    · exact Or.inl (mem_rest hold)
    · obtain ⟨q, _, hq⟩ := List.mem_map.mp hnew
      cases hq
      exact Or.inr (Or.inl rfl)
  | reaches index q old stage' hq hreaches hinflight =>
    rw [hinflight] at hmem
    rcases List.mem_or_eq_of_mem_set hmem with hold | heq
    · exact Or.inl hold
    · cases heq
      exact Or.inr (Or.inr ⟨index, old, hq, hreaches⟩)
  | rests hinflight =>
    rw [hinflight] at hmem
    exact Or.inl hmem

theorem Acts.allowed {action : WorldAction} {a : Action} (h : w.Acts action a)
    (hallowed : w.Allowed guard action) : Sys.Allowed σ.host guard w.sys a := by
  cases h with
  | call env method => exact hallowed.call.1
  | callback | lose | onTransfer => trivial

theorem Initial.sys (h : w.Initial) : w.sys.Initial := by
  obtain ⟨env, config, _, hnew, _, _, hinflight, _, hlog⟩ := h
  refine ⟨env, config, hnew, ?_, hlog⟩
  unfold World.sys
  rw [hinflight]
  rfl

/-- The bridge alone takes the steps of a run that keeps to the same guard. -/
theorem reachable_sys :
    ∀ w : World σ, w.Reachable guard → Sys.Reachable σ.host guard w.sys := by
  refine Transition.Reachable.induct (fun w h₀ ↦ .start h₀.sys) ?_
  intro w action w' _ hsys hallowed hexec
  rcases exec_sys hexec with hsame | ⟨a, hacts, hstep⟩
  · rw [hsame]
    exact hsys
  · exact hsys.next (hacts.allowed hallowed) hstep

/-- And it keeps its token. -/
theorem reachable_token (laws : σ.host.ReadsAddresses) :
    ∀ w : World σ, w.Reachable guard → w.contract.config.nbtcAccountId = σ.nbtcId := by
  refine Transition.Reachable.induct ?_ ?_
  · rintro w ⟨env, config, controller, hnew, htoken, _⟩
    rw [(Contract.new_config hnew).1]
    exact htoken
  · intro w action w' hw htoken hallowed hexec
    have hsys := reachable_sys w hw
    rcases exec_sys hexec with hsame | ⟨a, hacts, hstep⟩
    · have hcontract : w'.contract = w.contract := congrArg Sys.contract hsame
      rw [hcontract]
      exact htoken
    · obtain ⟨cause, mid, hmid, heffect, hcauses, _⟩ :=
        Sys.exec_cause laws (hsys.wellShaped laws) hstep
      have hmidToken : mid.token = w.contract.config.nbtcAccountId :=
        (congrArg Ledger.token hmid).symm
      cases hacts with
      | call env method hother =>
        simp only [exec, Option.bind_eq_bind, Option.bind_eq_some_iff, Option.some.injEq] at hexec
        obtain ⟨_, _, receipt, hcall, rfl⟩ := hexec
        refine (call_token (fun update hupdate id hid ↦ ?_) hcall).trans htoken
        rw [htoken]
        exact hallowed.call.2 update hupdate id hid
      | callback | lose =>
        refine (heffect.token fun env method hcall ↦ ?_).trans (hmidToken.trans htoken)
        subst hcall
        cases hcauses
      | onTransfer index env t msg =>
        simp only [Sys.exec, Option.bind_eq_bind, Option.bind_eq_some_iff,
          Option.some.injEq] at hstep
        obtain ⟨receipt, hcall, hsys'⟩ := hstep
        have hcontract : receipt.contract = w'.contract := congrArg Sys.contract hsys'
        rw [← hcontract]
        exact (call_token (fun _ hupdate ↦ by cases hupdate) hcall).trans htoken

/-! ### The token -/

section Token

variable {ft : FungibleToken} {env : NbtcEnv} {c c' : NbtcContract ft} {receipt : NbtcReceipt ft}

/-- No method changes the bridge of the token. Who is not the bridge sends the receiver of a
transfer a message with `ft_transfer_call` only. -/
theorem nbtcCall_spec {method : NbtcMethod} (h : c.call env method = some receipt) :
    receipt.contract.bridgeId = c.bridgeId ∧ ∀ t, receipt.answer = .transfer t →
      env.predecessor = t.senderId ∧ (env.predecessor = c.bridgeId ∨
        ∃ memo, method = .ftTransferCall t.receiverId t.amount memo t.msg) := by
  cases method with
  | setController =>
    simp only [NbtcContract.call, NbtcContract.setController, Option.bind_eq_bind,
      Option.bind_eq_some_iff, Option.some.injEq] at h
    obtain ⟨_, _, _, _, rfl⟩ := h
    exact ⟨rfl, fun t ht ↦ by cases ht⟩
  | setWithdrawRelayerAddress =>
    simp only [NbtcContract.call, NbtcContract.setWithdrawRelayerAddress, Option.bind_eq_bind,
      Option.bind_eq_some_iff, Option.some.injEq] at h
    obtain ⟨_, _, _, _, rfl⟩ := h
    exact ⟨rfl, fun t ht ↦ by cases ht⟩
  | safeMint accountId amount msg =>
    simp only [NbtcContract.call, NbtcContract.safeMint, NbtcContract.assertBridge,
      Option.bind_eq_bind, Option.bind_eq_some_iff, require_eq_some] at h
    obtain ⟨_, hbridge, _, _, token, _, h⟩ := h
    split at h
    · cases h
      exact ⟨rfl, fun t ht ↦ by cases ht⟩
    · split at h
      · simp only [NbtcContract.ftTransferCall, Option.bind_eq_bind, Option.bind_eq_some_iff,
          Option.some.injEq] at h
        obtain ⟨_, _, rfl⟩ := h
        refine ⟨rfl, fun t ht ↦ ?_⟩
        cases ht
        exact ⟨rfl, Or.inl hbridge.symm⟩
      · simp only [NbtcContract.ftTransfer, Option.bind_eq_bind, Option.bind_eq_some_iff,
          Option.some.injEq] at h
        obtain ⟨_, ⟨_, _, rfl⟩, rfl⟩ := h
        exact ⟨rfl, fun t ht ↦ by cases ht⟩
  | mint =>
    simp only [NbtcContract.call, NbtcContract.mint, Option.bind_eq_bind, Option.bind_eq_some_iff,
      Option.some.injEq] at h
    obtain ⟨_, _, _, _, _, _, _, _, rfl⟩ := h
    exact ⟨rfl, fun t ht ↦ by cases ht⟩
  | burn =>
    simp only [NbtcContract.call, NbtcContract.burn, Option.bind_eq_bind, Option.bind_eq_some_iff,
      Option.some.injEq] at h
    obtain ⟨_, _, _, _, _, _, rfl⟩ := h
    exact ⟨rfl, fun t ht ↦ by cases ht⟩
  | ftTransfer =>
    simp only [NbtcContract.call, NbtcContract.ftTransfer, Option.bind_eq_bind,
      Option.bind_eq_some_iff, Option.some.injEq] at h
    obtain ⟨_, ⟨_, _, rfl⟩, rfl⟩ := h
    exact ⟨rfl, fun t ht ↦ by cases ht⟩
  | ftTransferCall receiverId amount memo msg =>
    simp only [NbtcContract.call, NbtcContract.ftTransferCall, Option.bind_eq_bind,
      Option.bind_eq_some_iff, Option.some.injEq] at h
    obtain ⟨_, _, rfl⟩ := h
    refine ⟨rfl, fun t ht ↦ ?_⟩
    cases ht
    exact ⟨rfl, Or.inr ⟨memo, rfl⟩⟩
  | storageDeposit | storageWithdraw | storageUnregister =>
    simp only [NbtcContract.call, NbtcContract.storing, Option.bind_eq_bind,
      Option.bind_eq_some_iff, Option.some.injEq] at h
    obtain ⟨_, _, rfl⟩ := h
    exact ⟨rfl, fun t ht ↦ by cases ht⟩

/-- Post actions come with mints of the bridge, for the account that the tokens go to. -/
theorem postActions_of_call {method : NbtcMethod} {account : AccountId} {actions : List PostAction}
    (h : c.call env method = some receipt)
    (hactions : receipt.postActions = some (account, actions)) :
    env.predecessor = c.bridgeId ∧ ∃ amount protocolFee relayer relayerFee,
      method = .mint account amount protocolFee relayer relayerFee (some actions) := by
  cases method with
  | setController | setWithdrawRelayerAddress =>
    simp only [NbtcContract.call, NbtcContract.setController,
      NbtcContract.setWithdrawRelayerAddress, Option.bind_eq_bind, Option.bind_eq_some_iff,
      Option.some.injEq] at h
    obtain ⟨_, _, _, _, rfl⟩ := h
    cases hactions
  | safeMint accountId amount msg =>
    simp only [NbtcContract.call, NbtcContract.safeMint, Option.bind_eq_bind,
      Option.bind_eq_some_iff] at h
    obtain ⟨_, _, _, _, token, _, h⟩ := h
    split at h
    · cases h
      cases hactions
    · split at h
      · simp only [NbtcContract.ftTransferCall, Option.bind_eq_bind, Option.bind_eq_some_iff,
          Option.some.injEq] at h
        obtain ⟨_, _, rfl⟩ := h
        cases hactions
      · simp only [Option.bind_eq_some_iff, Option.some.injEq] at h
        obtain ⟨_, _, rfl⟩ := h
        cases hactions
  | mint mintAccountId amount protocolFee relayer relayerFee postActions =>
    simp only [NbtcContract.call, NbtcContract.mint, NbtcContract.assertBridge,
      Option.bind_eq_bind, Option.bind_eq_some_iff, require_eq_some, exists_const,
      Option.some.injEq] at h
    obtain ⟨hbridge, _, _, _, _, _, _, rfl⟩ := h
    obtain ⟨own, rfl, hown⟩ := Option.map_eq_some_iff.mp hactions
    cases hown
    exact ⟨hbridge.symm, amount, protocolFee, relayer, relayerFee, rfl⟩
  | burn =>
    simp only [NbtcContract.call, NbtcContract.burn, Option.bind_eq_bind, Option.bind_eq_some_iff,
      Option.some.injEq] at h
    obtain ⟨_, _, _, _, _, _, rfl⟩ := h
    cases hactions
  | ftTransfer | ftTransferCall =>
    simp only [NbtcContract.call, NbtcContract.ftTransferCall, Option.bind_eq_bind,
      Option.bind_eq_some_iff, Option.some.injEq] at h
    obtain ⟨_, _, rfl⟩ := h
    cases hactions
  | storageDeposit | storageWithdraw | storageUnregister =>
    simp only [NbtcContract.call, NbtcContract.storing, Option.bind_eq_bind,
      Option.bind_eq_some_iff, Option.some.injEq] at h
    obtain ⟨_, _, rfl⟩ := h
    cases hactions

end Token

theorem callback_nbtc (w : World σ) (index : ℕ) (env : Env) (p : Promise)
    (result : PromiseResult) : (w.callback index env p result).nbtc = w.nbtc := by
  unfold World.callback
  split
  · rfl
  · rfl

theorem onTransfer_nbtc (w : World σ) (index : ℕ) (env : Env) (t : Transfer) :
    (w.onTransfer index env t).nbtc = w.nbtc := by
  unfold World.onTransfer
  dsimp only
  split
  · rfl
  · rfl

/-- What an action has the token do: nothing, a call of the bridge or of somebody else, the
resolution of a transfer, or a post action. -/
inductive Operates (w : World σ) : WorldAction → NbtcContract σ.ft → Prop
  | nothing (action : WorldAction) : Operates w action w.nbtc
  | executes (index : ℕ) (p : Promise) (call : NbtcCall) (receipt : NbtcReceipt σ.ft)
      (hp : w.inflight[index]? = some (p, .waiting)) (hcall : p.nbtcCall = some call)
      (hreceipt : w.nbtc.call (nbtcEnv σ call) call.method = some receipt) :
      Operates w (.execute index) receipt.contract
  | calls (env : NbtcEnv) (method : NbtcMethod) (receipt : NbtcReceipt σ.ft)
      (hother : env.predecessor ≠ σ.host.currentAccountId)
      (hreceipt : w.nbtc.call env method = some receipt) :
      Operates w (.nbtc env method) receipt.contract
  | resolves (index : ℕ) (p : Promise) (t : Transfer) (result : PromiseResult)
      (nbtc : NbtcContract σ.ft) (used : ℕ)
      (hp : w.inflight[index]? = some (p, .resolving t result))
      (hresolve : w.nbtc.ftResolveTransfer t.senderId t.receiverId t.amount result =
        some (nbtc, used)) : Operates w (.resolve index) nbtc
  | returns (index prepaidGas : ℕ) (senderId receiverId : AccountId) (amount : ℕ)
      (result : PromiseResult) (nbtc : NbtcContract σ.ft) (used : ℕ)
      (hflow : w.flows[index]? = some (.resolve senderId receiverId amount result))
      (hresolve : w.nbtc.ftResolveTransfer senderId receiverId amount result = some (nbtc, used)) :
      Operates w (.run index prepaidGas) nbtc
  | posts (index prepaidGas : ℕ) (senderId : AccountId) (postAction : PostAction)
      (nbtc : NbtcContract σ.ft) (t : Transfer)
      (hflow : w.flows[index]? = some (.postAction senderId postAction))
      (hhandle : w.nbtc.handlePostAction prepaidGas senderId postAction = some (nbtc, t)) :
      Operates w (.run index prepaidGas) nbtc

/-- A receipt of the token itself resolves a transfer, makes a post action or does nothing. -/
theorem run_operates {index prepaidGas : ℕ} {flow : Flow} {nbtc : NbtcContract σ.ft}
    {flows : List Flow} (hflow : w.flows[index]? = some flow)
    (h : flow.run w.nbtc prepaidGas = some (nbtc, flows)) :
    Operates w (.run index prepaidGas) nbtc := by
  unfold Flow.run at h
  cases flow with
  | transfer => cases h
  | resolve senderId receiverId amount result =>
    dsimp only at h
    split at h
    · rename_i used hresolve
      cases h
      exact .returns index prepaidGas senderId receiverId amount result nbtc used hflow hresolve
    · cases h
      exact .nothing _
  | postActions =>
    cases h
    exact .nothing _
  | postAction senderId postAction =>
    dsimp only at h
    split at h
    · rename_i t hhandle
      cases h
      exact .posts index prepaidGas senderId postAction nbtc t hflow hhandle
    · cases h
      exact .nothing _

/-- Everything an action may do to the token is one of these. -/
theorem exec_operates {action : WorldAction} (h : w.exec action = some w') :
    Operates w action w'.nbtc := by
  cases action with
  | call env method =>
    simp only [exec, Option.bind_eq_bind, Option.bind_eq_some_iff, Option.some.injEq] at h
    obtain ⟨_, _, receipt, _, rfl⟩ := h
    exact .nothing _
  | callback index env result =>
    simp only [exec, Option.bind_eq_bind, Option.bind_eq_some_iff, Option.some.injEq,
      Prod.exists] at h
    obtain ⟨p, stage, _, _, _, rfl⟩ := h
    rw [callback_nbtc]
    exact .nothing _
  | lose index result =>
    simp only [exec, Option.bind_eq_bind, Option.bind_eq_some_iff, Option.some.injEq,
      Prod.exists] at h
    obtain ⟨p, stage, _, _, _, rfl⟩ := h
    exact .nothing _
  | execute index =>
    simp only [exec, Option.bind_eq_bind, Option.bind_eq_some_iff, require_eq_some, exists_const,
      Option.some.injEq, Prod.exists] at h
    obtain ⟨p, stage, hp, call, hcall, ⟨_, rfl⟩, rfl⟩ := h
    unfold World.execute
    split
    · rename_i receipt hreceipt
      exact .executes index p call receipt hp hcall hreceipt
    · exact .nothing _
  | fail index =>
    simp only [exec, Option.bind_eq_bind, Option.bind_eq_some_iff, Option.some.injEq,
      Prod.exists] at h
    obtain ⟨p, stage, _, call, _, _, _, rfl⟩ := h
    exact .nothing _
  | receive index result =>
    simp only [exec, Option.bind_eq_bind, Option.bind_eq_some_iff] at h
    obtain ⟨x, _, h⟩ := h
    split at h
    · cases h
      exact .nothing _
    · cases h
  | resolve index =>
    simp only [exec, Option.bind_eq_bind, Option.bind_eq_some_iff] at h
    obtain ⟨x, hp, h⟩ := h
    split at h
    · rename_i p t result
      cases h
      unfold World.resolve
      split
      · rename_i nbtc used hresolve
        exact .resolves index p t result nbtc used hp hresolve
      · exact .nothing _
    · cases h
  | nbtc env method =>
    simp only [exec, Option.bind_eq_bind, Option.bind_eq_some_iff, require_eq_some, exists_const,
      Option.some.injEq] at h
    obtain ⟨⟨_, hother⟩, receipt, hcall, rfl⟩ := h
    exact .calls env method receipt hother hcall
  | onTransfer index env =>
    simp only [exec, Option.bind_eq_bind, Option.bind_eq_some_iff] at h
    obtain ⟨flow, _, h⟩ := h
    split at h
    · simp only [Option.bind_eq_some_iff, Option.some.injEq] at h
      obtain ⟨_, _, rfl⟩ := h
      rw [onTransfer_nbtc]
      exact .nothing _
    · cases h
  | answer index result =>
    simp only [exec, Option.bind_eq_bind, Option.bind_eq_some_iff] at h
    obtain ⟨flow, _, h⟩ := h
    split at h
    · simp only [Option.bind_eq_some_iff, Option.some.injEq] at h
      obtain ⟨_, _, rfl⟩ := h
      exact .nothing _
    · cases h
  | run index prepaidGas =>
    simp only [exec, Option.bind_eq_bind, Option.bind_eq_some_iff, Option.some.injEq,
      Prod.exists] at h
    obtain ⟨flow, hflow, nbtc, flows, hrun, rfl⟩ := h
    exact run_operates hflow hrun
  | expire index =>
    simp only [exec, Option.bind_eq_bind, Option.bind_eq_some_iff, Option.some.injEq] at h
    obtain ⟨flow, _, _, _, rfl⟩ := h
    exact .nothing _

/-- The token keeps its bridge. -/
theorem exec_bridgeId {action : WorldAction} (h : w.exec action = some w') :
    w'.nbtc.bridgeId = w.nbtc.bridgeId := by
  have hresolved {senderId receiverId : AccountId} {amount used : ℕ} {result : PromiseResult}
      {nbtc : NbtcContract σ.ft}
      (hresolve : w.nbtc.ftResolveTransfer senderId receiverId amount result = some (nbtc, used)) :
      nbtc.bridgeId = w.nbtc.bridgeId := by
    simp only [NbtcContract.ftResolveTransfer, Option.bind_eq_bind, Option.bind_eq_some_iff,
      Option.some.injEq, Prod.exists, Prod.mk.injEq] at hresolve
    obtain ⟨_, _, _, _, rfl, _⟩ := hresolve
    rfl
  have hoperates := exec_operates h
  generalize w'.nbtc = nbtc at hoperates
  cases hoperates with
  | nothing => rfl
  | executes index p call receipt hp hcall hreceipt => exact (nbtcCall_spec hreceipt).1
  | calls env method receipt hother hreceipt => exact (nbtcCall_spec hreceipt).1
  | resolves index p t result nbtc used hp hresolve => exact hresolved hresolve
  | returns index prepaidGas senderId receiverId amount result nbtc used hflow hresolve =>
    exact hresolved hresolve
  | posts index prepaidGas senderId postAction nbtc t hflow hhandle =>
    simp only [NbtcContract.handlePostAction, Option.bind_eq_bind, Option.bind_eq_some_iff,
      Option.some.injEq, Prod.mk.injEq] at hhandle
    obtain ⟨_, _, _, _, _, _, rfl, _⟩ := hhandle
    rfl

theorem reachable_bridgeId :
    ∀ w : World σ, w.Reachable guard → w.nbtc.bridgeId = σ.host.currentAccountId := by
  refine Transition.Reachable.induct ?_ ?_
  · rintro w ⟨_, _, controller, _, _, hnew, _⟩
    simp only [NbtcContract.new, Option.bind_eq_bind, Option.bind_eq_some_iff,
      Option.some.injEq] at hnew
    obtain ⟨_, _, hcontract⟩ := hnew
    rw [← hcontract]
  · intro w action w' _ hbridge _ hexec
    exact (exec_bridgeId hexec).trans hbridge

/-! ### Receipts of the token in flight -/

/-- How a receipt of the token comes into flight: a sender calls `ft_transfer_call`, the receiver of
a transfer answers, a mint is executed, or its post actions are made. What the bridge answers is
resolved for the bridge. -/
inductive Arises (w : World σ) : WorldAction → Flow → Prop
  | sent (env : NbtcEnv) (memo : Option String) (t : Transfer)
    (hsender : env.predecessor = t.senderId)
      (hcurrent : env.currentAccountId = σ.nbtcId)
      (hcall : (w.nbtc.call env (.ftTransferCall t.receiverId t.amount memo t.msg)).isSome = true) :
      Arises w (.nbtc env (.ftTransferCall t.receiverId t.amount memo t.msg)) (.transfer t)
  | answered (index : ℕ) (result : PromiseResult) (t : Transfer)
      (hflow : w.flows[index]? = some (.transfer t)) :
      Arises w (.answer index result) (t.resolve result)
  | kept (action : WorldAction) (senderId : AccountId) (amount : ℕ) (result : PromiseResult) :
      Arises w action (.resolve senderId σ.host.currentAccountId amount result)
  | minted (index : ℕ) (token account relayer : AccountId) (amount protocolFee relayerFee : ℕ)
      (actions : List PostAction) (info : PendingUTXOInfo) (height : Option ℕ)
      (hp : w.inflight[index]? = some (.mint token account amount protocolFee relayer relayerFee
        (some actions) info height, .waiting)) :
      Arises w (.execute index) (.postActions account actions)
  | listed (index prepaidGas : ℕ) (account : AccountId) (actions : List PostAction)
      (action : PostAction) (hflow : w.flows[index]? = some (.postActions account actions))
      (hmem : action ∈ actions) : Arises w (.run index prepaidGas) (.postAction account action)
  | posted (index prepaidGas : ℕ) (t : Transfer)
      (hreceiver : t.receiverId ≠ w.nbtc.bridgeId) :
      Arises w (.run index prepaidGas) (.transfer t)

theorem mem_resolution {result : PromiseResult} {p : Promise} {flow : Flow}
    (h : flow ∈ resolution σ result p) : ∃ senderId amount,
      flow = .resolve senderId σ.host.currentAccountId amount result := by
  cases p with
  | ftOnTransfer senderId amount => exact ⟨senderId, amount, List.mem_singleton.mp h⟩
  | _ => exact absurd h List.not_mem_nil

theorem mem_resolutions {returns : Option ReturnValue} {resolve : PromiseResult → List Flow}
    {flow : Flow} (h : flow ∈ resolutions returns resolve) : ∃ result, flow ∈ resolve result := by
  cases returns with
  | none => exact absurd h List.not_mem_nil
  | some v => exact ⟨.value v, h⟩

theorem mem_detached {ft : FungibleToken} {receipt : NbtcReceipt ft} {flow : Flow}
    (h : flow ∈ receipt.detached) : ∃ account actions,
      receipt.postActions = some (account, actions) ∧ flow = .postActions account actions := by
  unfold NbtcReceipt.detached at h
  split at h
  · rename_i account actions hactions
    exact ⟨account, actions, hactions, List.mem_singleton.mp h⟩
  · exact absurd h List.not_mem_nil

/-- The bridge answers a transfer to itself. -/
theorem arises_resolve {action : WorldAction} {t : Transfer} {result : PromiseResult} {flow : Flow}
    (hreceiver : t.receiverId = σ.host.currentAccountId) (h : flow ∈ [t.resolve result]) :
    Arises w action flow := by
  rw [List.mem_singleton.mp h]
  unfold Transfer.resolve
  rw [hreceiver]
  exact .kept action t.senderId t.amount result

/-- What a receipt of the token itself leaves. -/
theorem arises_run {index prepaidGas : ℕ} {flow flow' : Flow} {nbtc : NbtcContract σ.ft}
    {flows : List Flow} (hflow : w.flows[index]? = some flow)
    (h : flow.run w.nbtc prepaidGas = some (nbtc, flows)) (hmem : flow' ∈ flows) :
    Arises w (.run index prepaidGas) flow' := by
  unfold Flow.run at h
  cases flow with
  | transfer => cases h
  | resolve senderId receiverId amount result =>
    dsimp only at h
    split at h
    · cases h
      exact absurd hmem List.not_mem_nil
    · cases h
      exact absurd hmem List.not_mem_nil
  | postActions account actions =>
    cases h
    obtain ⟨action, haction, rfl⟩ := List.mem_map.mp hmem
    exact .listed index prepaidGas account actions action hflow haction
  | postAction account action =>
    dsimp only at h
    split at h
    · rename_i t hhandle
      simp only [NbtcContract.handlePostAction, Option.bind_eq_bind, Option.bind_eq_some_iff,
        require_eq_some, Option.some.injEq, exists_and_left, exists_const, Prod.mk.injEq] at hhandle
      obtain ⟨_, hreceiver, _, _, rfl, rfl⟩ := hhandle
      cases h
      rw [List.mem_singleton.mp hmem]
      exact .posted index prepaidGas _ hreceiver
    · cases h
      exact absurd hmem List.not_mem_nil

/-- What the execution of a promise leaves. -/
theorem arises_execute {index : ℕ} {p : Promise} {call : NbtcCall} {flow : Flow}
    (hp : w.inflight[index]? = some (p, .waiting)) (hcall : p.nbtcCall = some call)
    (hmem : flow ∈ (w.execute index p call).flows) :
    flow ∈ w.flows ∨ Arises w (.execute index) flow := by
  unfold World.execute at hmem
  split at hmem
  · rename_i receipt hreceipt
    rcases List.mem_append.mp hmem with hold | hnew
    · exact Or.inl hold
    · obtain ⟨account, actions, hactions, rfl⟩ := mem_detached hnew
      obtain ⟨_, amount, protocolFee, relayer, relayerFee, hmethod⟩ :=
        postActions_of_call hreceipt hactions
      right
      cases p with
      | mint token recipientId mintAmount fee relayer' relayerFee' postActions info height =>
        cases hcall
        cases hmethod
        exact .minted index token account relayer amount protocolFee relayerFee actions info height
          hp
      | safeMint | burnDetached | withdrawBurn | activeUtxoManagementBurn | transferNbtc
      | withdrawProtocolFee =>
        cases hcall
        cases hmethod
      | _ => cases hcall
  · exact Or.inl hmem

/-- What is in flight after a step was in flight before or arises in it. -/
theorem exec_flows (hbridge : w.nbtc.bridgeId = σ.host.currentAccountId) {action : WorldAction}
    {flow : Flow} (h : w.exec action = some w') (hmem : flow ∈ w'.flows) :
    flow ∈ w.flows ∨ Arises w action flow := by
  cases action with
  | call env method =>
    simp only [exec, Option.bind_eq_bind, Option.bind_eq_some_iff, Option.some.injEq] at h
    obtain ⟨_, _, receipt, _, rfl⟩ := h
    exact Or.inl hmem
  | callback index env result =>
    simp only [exec, Option.bind_eq_bind, Option.bind_eq_some_iff, Option.some.injEq,
      Prod.exists] at h
    obtain ⟨p, stage, _, _, _, rfl⟩ := h
    unfold World.callback at hmem
    split at hmem
    · refine (List.mem_append.mp hmem).imp_right fun hnew ↦ ?_
      obtain ⟨result', hresult⟩ := mem_resolutions hnew
      obtain ⟨senderId, amount, rfl⟩ := mem_resolution hresult
      exact .kept _ senderId amount result'
    · refine (List.mem_append.mp hmem).imp_right fun hnew ↦ ?_
      obtain ⟨senderId, amount, rfl⟩ := mem_resolution hnew
      exact .kept _ senderId amount .failed
  | lose index result =>
    simp only [exec, Option.bind_eq_bind, Option.bind_eq_some_iff, Option.some.injEq,
      Prod.exists] at h
    obtain ⟨p, stage, _, _, _, rfl⟩ := h
    refine (List.mem_append.mp hmem).imp_right fun hnew ↦ ?_
    obtain ⟨senderId, amount, rfl⟩ := mem_resolution hnew
    exact .kept _ senderId amount .failed
  | execute index =>
    simp only [exec, Option.bind_eq_bind, Option.bind_eq_some_iff, require_eq_some, exists_const,
      Option.some.injEq, Prod.exists] at h
    obtain ⟨p, stage, hp, call, hcall, ⟨_, rfl⟩, rfl⟩ := h
    exact arises_execute hp hcall hmem
  | fail index =>
    simp only [exec, Option.bind_eq_bind, Option.bind_eq_some_iff, Option.some.injEq,
      Prod.exists] at h
    obtain ⟨p, stage, _, call, _, _, _, rfl⟩ := h
    exact Or.inl hmem
  | receive index result =>
    simp only [exec, Option.bind_eq_bind, Option.bind_eq_some_iff] at h
    obtain ⟨x, _, h⟩ := h
    split at h
    · cases h
      exact Or.inl hmem
    · cases h
  | resolve index =>
    simp only [exec, Option.bind_eq_bind, Option.bind_eq_some_iff] at h
    obtain ⟨x, _, h⟩ := h
    split at h
    · cases h
      left
      unfold World.resolve at hmem
      split at hmem
      · exact hmem
      · exact hmem
    · cases h
  | nbtc env method =>
    simp only [exec, Option.bind_eq_bind, Option.bind_eq_some_iff, require_eq_some, exists_const,
      Option.some.injEq] at h
    obtain ⟨⟨hcurrent, hother⟩, receipt, hcall, rfl⟩ := h
    rw [← hbridge] at hother
    refine (List.mem_append.mp hmem).imp_right fun hnew ↦ ?_
    rcases List.mem_append.mp hnew with hanswer | hdetached
    · cases hreceipt : receipt.answer with
      | value v =>
        rw [hreceipt] at hanswer
        exact absurd hanswer List.not_mem_nil
      | transfer t =>
        rw [hreceipt] at hanswer
        rw [List.mem_singleton.mp hanswer]
        obtain ⟨hsender, hcaller⟩ := (nbtcCall_spec hcall).2 t hreceipt
        rcases hcaller with hcaller | ⟨memo, rfl⟩
        · exact absurd hcaller hother
        · exact .sent env memo t hsender hcurrent (Option.isSome_of_eq_some hcall)
    · obtain ⟨account, actions, hactions, _⟩ := mem_detached hdetached
      exact absurd (postActions_of_call hcall hactions).1 hother
  | onTransfer index env =>
    simp only [exec, Option.bind_eq_bind, Option.bind_eq_some_iff] at h
    obtain ⟨flow', _, h⟩ := h
    split at h
    · simp only [Option.bind_eq_some_iff, require_eq_some, exists_const, Option.some.injEq] at h
      obtain ⟨⟨hreceiver, _⟩, rfl⟩ := h
      unfold World.onTransfer at hmem
      dsimp only at hmem
      split at hmem
      · refine (List.mem_append.mp hmem).imp List.mem_of_mem_eraseIdx fun hnew ↦ ?_
        obtain ⟨result, hresult⟩ := mem_resolutions hnew
        exact arises_resolve hreceiver hresult
      · exact (List.mem_append.mp hmem).imp List.mem_of_mem_eraseIdx (arises_resolve hreceiver)
    · cases h
  | answer index result =>
    simp only [exec, Option.bind_eq_bind, Option.bind_eq_some_iff] at h
    obtain ⟨flow', hflow, h⟩ := h
    split at h
    · rename_i t
      simp only [Option.bind_eq_some_iff, Option.some.injEq] at h
      obtain ⟨_, _, rfl⟩ := h
      refine (List.mem_append.mp hmem).imp List.mem_of_mem_eraseIdx fun hnew ↦ ?_
      rw [List.mem_singleton.mp hnew]
      exact .answered index result t hflow
    · cases h
  | run index prepaidGas =>
    simp only [exec, Option.bind_eq_bind, Option.bind_eq_some_iff, Option.some.injEq,
      Prod.exists] at h
    obtain ⟨flow', hflow, nbtc, flows, hrun, rfl⟩ := h
    exact (List.mem_append.mp hmem).imp List.mem_of_mem_eraseIdx (arises_run hflow hrun)
  | expire index =>
    simp only [exec, Option.bind_eq_bind, Option.bind_eq_some_iff, Option.some.injEq] at h
    obtain ⟨flow', _, _, _, rfl⟩ := h
    refine (List.mem_append.mp hmem).imp List.mem_of_mem_eraseIdx fun hnew ↦ ?_
    exact absurd hnew List.not_mem_nil

/-- What a run of both contracts has in flight has arisen in a step of it. -/
theorem History.arises {flow : Flow} :
    ∀ (steps : Steps σ) w, History guard steps w → flow ∈ w.flows →
    Once (fun b action _ ↦ Arises b action flow) steps := by
  refine Transition.History.once ?_ ?_
  · rintro w ⟨_, _, _, _, _, _, _, hflows, _⟩ hmem
    rw [hflows] at hmem
    exact absurd hmem List.not_mem_nil
  · intro _ w action w' h _ hexec hmem
    exact exec_flows (reachable_bridgeId w h.reachable) hexec hmem

/-- The sender has sent the transfer with `ft_transfer_call`. -/
def SendsTransfer (t : Transfer) : Transition.Event (World σ) WorldAction :=
  fun w action _ ↦ ∃ env memo, action = .nbtc env
    (.ftTransferCall t.receiverId t.amount memo t.msg) ∧
    env.predecessor = t.senderId ∧ env.currentAccountId = σ.nbtcId ∧
    (w.nbtc.call env (.ftTransferCall t.receiverId t.amount memo t.msg)).isSome = true

/-- A transfer to the bridge that is in flight was sent by its sender. -/
theorem History.sends {t : Transfer} {w : World σ} {steps : Steps σ} (h : History guard steps w)
    (hreceiver : t.receiverId = σ.host.currentAccountId) (hmem : Flow.transfer t ∈ w.flows) :
    Once (SendsTransfer t) steps := by
  obtain ⟨step, hstep, harises⟩ := History.arises steps w h hmem
  obtain ⟨earlier, hearlier, _, _, _⟩ := h.taken hstep
  obtain ⟨before, action, after⟩ := step
  cases harises with
  | sent env memo t hsender hcurrent hcall =>
    exact ⟨_, hstep, env, memo, rfl, hsender, hcurrent, hcall⟩
  | posted _ _ _ hother =>
    have hbridge : before.nbtc.bridgeId = _ := reachable_bridgeId _ hearlier.reachable
    exact absurd (hreceiver.trans hbridge.symm) hother

/-! ### Promises and transactions of the bridge -/

/-- A promise of the bridge that is asked for was asked for by a call. -/
theorem History.asked {p : Promise} (hasked : p.asked = true) :
    ∀ (steps : Steps σ) w, History guard steps w → p ∈ w.sys.inflight →
      Once (Lifts (Sys.Asks σ.host p)) steps := by
  refine Transition.History.once ?_ ?_
  · intro w hw hmem
    obtain ⟨_, _, _, hinflight, _⟩ := hw.sys
    rw [hinflight] at hmem
    exact absurd hmem List.not_mem_nil
  · intro _ w action w' _ _ hexec hmem
    rcases exec_sys hexec with hsame | ⟨a, hacts, hstep⟩
    · rw [hsame] at hmem
      exact Or.inl hmem
    · exact (Sys.exec_promises hstep hmem hasked).imp_right fun hasks ↦ ⟨a, hacts, hasks.1⟩

/-- Every transaction of the bridge was created by a step that went on with a request of the run. -/
theorem History.created {info : BTCPendingInfo} {payee : Option String} (h : History guard steps w)
    (hcreated : Mark.created info payee ∈ w.log) :
    ∃ p, Once (Lifts (Sys.Continues σ.host p info payee)) steps ∧
      Once (Lifts (Sys.Asks σ.host p)) steps := by
  induction h with
  | start hs =>
    obtain ⟨_, _, _, _, _, _, _, _, hlog⟩ := hs
    rw [hlog] at hcreated
    exact absurd hcreated List.not_mem_nil
  | @next steps w w' action h ha hexec ih =>
    rcases exec_sys hexec with hsame | ⟨a, hacts, hstep⟩
    · have hlog : w'.log = w.log := congrArg Sys.log hsame
      rw [hlog] at hcreated
      obtain ⟨p, hcontinues, hasked⟩ := ih hcreated
      exact ⟨p, hcontinues.later, hasked.later⟩
    · have hawaits := Sys.Reachable.awaits w.sys (reachable_sys w h.reachable)
      rcases Sys.exec_continues hawaits hstep hcreated with hold | ⟨p, hcontinues⟩
      · obtain ⟨p, hcontinues, hasked⟩ := ih hold
        exact ⟨p, hcontinues.later, hasked.later⟩
      · refine ⟨p, .now ⟨a, hacts, hcontinues⟩, ?_⟩
        have hasked := Promise.asked_of_creates hcontinues.creates_promise
        rcases hcontinues.source with hmem | hasks
        · exact (History.asked hasked _ _ h hmem).later
        · exact .now ⟨a, hacts, hasks⟩

end SatoshiBridge.World

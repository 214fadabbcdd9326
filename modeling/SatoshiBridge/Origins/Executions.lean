import SatoshiBridge.Origins.Confirmations
import SatoshiBridge.Origins.Transfers
import SatoshiBridge.Treasury.Supply

/-!
# Where answers of the token come from

What the token answers to a promise of the bridge it has executed, or resolved after a transfer. The
answer to a burn comes from its execution, in which exactly the amount of the transaction is burnt.
-/

set_option autoImplicit false
set_option relaxedAutoImplicit false

namespace SatoshiBridge

/-- The tokens that the burn of a transaction asks for. -/
def Promise.burnAmount : Promise → ℕ
  | withdrawBurn _ _ amount _ _ _ _ | activeUtxoManagementBurn _ _ amount _ _ => amount
  | _ => 0

theorem BurnOf.amount {token : AccountId} {info : BTCPendingInfo} {id : Txid} {withdraw : Bool}
    {p : Promise} (h : BurnOf token info id withdraw p) : p.burnAmount = info.burnAmount := by
  cases h with
  | withdraw | active => rfl

namespace World

open Transition (Once)

variable {σ : Setting} {w w' : World σ} {steps : Steps σ} {guard : Sys.Guard}

/-! ### Promises to the token -/

/-- Every promise of the bridge goes to its token. -/
theorem reachable_promises (laws : σ.host.ReadsAddresses) :
    ∀ w : World σ, w.Reachable guard → w.sys.ledger.PromisesTo σ.nbtcId := by
  refine Transition.Reachable.induct ?_ ?_
  · intro w h₀ p hp
    have hinitial : w.sys.ledger.Initial ∧ w.sys.WellShaped σ.host := h₀.sys.ledger
    rw [hinitial.1.inflight] at hp
    exact absurd hp (Multiset.notMem_zero p)
  · intro w action w' hw hpromises _ hexec
    rcases exec_sys hexec with hsame | ⟨a, _, hstep⟩
    · rw [hsame]
      exact hpromises
    · obtain ⟨cause, mid, hmid, heffect, _⟩ :=
        Sys.exec_cause laws ((reachable_sys w hw).wellShaped laws) hstep
      have htoken : mid.token = σ.nbtcId :=
        (congrArg Ledger.token hmid).symm.trans (reachable_token laws w hw)
      refine Ledger.PromisesTo.step (fun p hp ↦ hpromises p ?_) htoken heffect
      rw [hmid]
      exact Multiset.mem_add.mpr (Or.inr hp)

/-- A promise that is answered has been answered by the token. -/
theorem answered_of_callback (laws : σ.host.ReadsAddresses) (hw : w.Reachable guard) {index : ℕ}
    {env : Env} {result : PromiseResult} (he : w.exec (.callback index env result) = some w')
    {p : Promise} (hp : w.sys.inflight[index]? = some p) (hcall : p.nbtcCall.isSome = true) :
    (p, .answered result) ∈ w.inflight := by
  simp only [exec, Option.bind_eq_bind, Option.bind_eq_some_iff, require_eq_some, exists_const,
    Option.some.injEq, Prod.exists] at he
  obtain ⟨q, stage, hq, hanswered, _⟩ := he
  have hsame : q = p := Option.some.inj ((sys_getElem? hq).symm.trans hp)
  rw [hsame] at hq hanswered
  have hmem := List.mem_of_getElem? hq
  have hgoes := reachable_promises laws w hw p
    (Multiset.mem_coe.mpr (List.mem_of_getElem? (sys_getElem? hq)))
  obtain ⟨call, hcall⟩ := Option.isSome_iff_exists.mp hcall
  rw [← hanswered.1 call hcall (hgoes.token call hcall)]
  exact hmem

/-! ### Burns -/

/-- The token executes the burn of a transaction. -/
def Burns (id : Txid) (amount : ℕ) : Transition.Event (World σ) WorldAction :=
  fun w action w' ↦ ∃ index p call, action = .execute index ∧
    w.inflight[index]? = some (p, .waiting) ∧ p.nbtcCall = some call ∧
    (w.nbtc.call (nbtcEnv σ call) call.method).isSome = true ∧ p.burns = some id ∧
    p.burnAmount = amount ∧ w'.totalSupply + amount = w.totalSupply

theorem totalSupply_eq (standard : σ.ft.Standard) (w : World σ) :
    w.totalSupply = w.nbtc.books.supply := standard.ftTotalSupply w.nbtc.token

/-- The token answers a burn at once, and has then burnt its amount. -/
theorem burn_executes (standard : σ.ft.Standard) {id : Txid} {p : Promise} {call : NbtcCall}
    {receipt : NbtcReceipt σ.ft} (hid : p.burns = some id) (hcall : p.nbtcCall = some call)
    (hreceipt : w.nbtc.call (nbtcEnv σ call) call.method = some receipt) :
    w.nbtc.Burns receipt.contract p.burnAmount ∧ ∃ v, receipt.answer = .value v := by
  have hburn {env : NbtcEnv} {account relayer : AccountId} {amount relayerFee : ℕ}
      (h : w.nbtc.call env (.burn account amount relayer relayerFee) = some receipt) :
      w.nbtc.Burns receipt.contract amount ∧ ∃ v, receipt.answer = .value v := by
    have hburn : w.nbtc.burn env account amount relayer relayerFee = some receipt := h
    refine ⟨NbtcContract.burn_burns standard hburn, ?_⟩
    simp only [NbtcContract.call, NbtcContract.burn, Option.bind_eq_bind, Option.bind_eq_some_iff,
      Option.some.injEq] at h
    obtain ⟨_, _, token, _, token', _, rfl⟩ := h
    exact ⟨_, rfl⟩
  cases p with
  | withdrawBurn | activeUtxoManagementBurn =>
    cases hcall
    exact hburn hreceipt
  | _ => cases hid

/-- A burn waits or has been answered. -/
theorem reachable_burn (standard : σ.ft.Standard) {id : Txid} {p : Promise}
    (hid : p.burns = some id) :
    ∀ w : World σ, w.Reachable guard → ∀ stage, (p, stage) ∈ w.inflight →
      stage = .waiting ∨ ∃ result, stage = .answered result := by
  refine Transition.Reachable.induct ?_ ?_
  · rintro w ⟨_, _, _, _, _, _, hinflight, _⟩ stage hmem
    rw [hinflight] at hmem
    exact absurd hmem List.not_mem_nil
  · intro w action w' _ ih _ hexec stage hmem
    rcases exec_reaches hexec hmem with hold | hwaits | ⟨index, old, hp, hreaches⟩
    · exact ih stage hold
    · exact Or.inl hwaits
    · cases hreaches with
      | executed call receipt hcall hreceipt =>
        obtain ⟨_, v, hv⟩ := burn_executes standard hid hcall hreceipt
        rw [hv]
        exact Or.inr ⟨_, rfl⟩
      | failed => exact Or.inr ⟨_, rfl⟩
      | received t result =>
        rcases ih _ (List.mem_of_getElem? hp) with habsurd | ⟨_, habsurd⟩
        · cases habsurd
        · cases habsurd
      | resolved => exact Or.inr ⟨_, rfl⟩

/-- A burn that has succeeded was executed. -/
theorem History.burnt (standard : σ.ft.Standard) {id : Txid} {p : Promise} {result : PromiseResult}
    (hid : p.burns = some id) (hsuccess : result.isSuccess = true) :
    ∀ (steps : Steps σ) w, History guard steps w → (p, .answered result) ∈ w.inflight →
      Once (Burns id p.burnAmount) steps := by
  refine Transition.History.once ?_ ?_
  · rintro w ⟨_, _, _, _, _, _, hinflight, _⟩ hmem
    rw [hinflight] at hmem
    exact absurd hmem List.not_mem_nil
  · intro _ w action w' h _ hexec hmem
    rcases exec_reaches hexec hmem with hold | hwaits | ⟨index, old, hp, hreaches⟩
    · exact Or.inl hold
    · cases hwaits
    · right
      generalize hstage : Stage.answered result = stage at hreaches
      cases hreaches with
      | received => cases hstage
      | executed call receipt hcall hreceipt hnbtc =>
        obtain ⟨hburns, _⟩ := burn_executes standard hid hcall hreceipt
        refine ⟨index, p, call, rfl, hp, hcall, Option.isSome_of_eq_some hreceipt, hid, rfl, ?_⟩
        rw [totalSupply_eq standard, totalSupply_eq standard, hnbtc]
        exact hburns
      | failed =>
        cases hstage
        cases hsuccess
      | resolved t result' used =>
        have hwaits := reachable_burn standard hid w h.reachable _ (List.mem_of_getElem? hp)
        rcases hwaits with habsurd | ⟨_, habsurd⟩
        · cases habsurd
        · cases habsurd

end World

end SatoshiBridge

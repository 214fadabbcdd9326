import SatoshiBridge.Ledger.Simulation
import SatoshiBridge.Origins.Transfers
import SatoshiBridge.Properties.RequiredConfirmations

/-!
# Where mints come from

A mint in flight pays out a deposit: a relayer asked for the deposit with a message whose address
the output pays, and the light client has confirmed the transaction at the depth that the amounts of
its block and the relayer ask for.
-/

set_option autoImplicit false
set_option relaxedAutoImplicit false

namespace SatoshiBridge

/-- The mint pays out the deposit of a message: to its recipient go the tokens, with what the
message adds for the token, and to the bridge and the relayer the fees, all out of the value of the
output. -/
inductive Promise.PaysOut (host : Host) (token : AccountId) (msg : DepositMsg)
    (info : PendingUTXOInfo) : Promise → Prop
  | standard (mintAmount protocolFee relayerFee : ℕ) (relayer : AccountId)
      (postActions : Option (List PostAction)) (height : Option ℕ)
      (hsafe : isSafeDeposit host msg = false)
      (hamount : mintAmount + (protocolFee + relayerFee) = info.utxo.balance)
      (hactions : ∀ actions ∈ postActions, msg.postActions = some actions) :
      PaysOut host token msg info (.mint token msg.recipientId mintAmount protocolFee relayer
        relayerFee postActions info height)
  | safe (text : Option String) (height : Option ℕ) (hsafe : isSafeDeposit host msg = true)
      (htext : text = if (msg.safeDeposit.getD ⟨""⟩).msg = "" then none
        else some (injectUtxoIdInMsg host (msg.safeDeposit.getD ⟨""⟩).msg info.utxoStorageKey)) :
      PaysOut host token msg info
        (.safeMint token msg.recipientId info.utxo.balance text info height)

/-- A deposit is minted with its own post actions or without any. -/
theorem checkDepositMsg_actions {host : Host} {c : Contract} {msg : DepositMsg} {mintAmount : ℕ}
    {postActions : Option (List PostAction)}
    (h : c.checkDepositMsg host msg mintAmount = some postActions) :
    ∀ actions ∈ postActions, msg.postActions = some actions := by
  unfold Contract.checkDepositMsg at h
  split at h
  · cases h
    exact fun _ hmem ↦ by cases hmem
  · rename_i own hown
    split at h
    · cases h
      exact fun _ hmem ↦ by cases hmem
    · simp only [Option.bind_eq_bind, Option.bind_eq_some_iff] at h
      obtain ⟨checked, _, h⟩ := h
      split at h
      · cases h
        exact fun _ hmem ↦ by cases hmem
      · split at h
        · cases h
          exact fun _ hmem ↦ by cases hmem
        · cases h
          exact fun _ hmem ↦ hown.trans hmem

namespace Sys

variable {host : Host} {s s' : Sys}

/-- The light client has confirmed a deposit that is not in use, deep enough below the tip. -/
def Confirms (info : PendingUTXOInfo) (delta : ℕ) : Transition.Event Sys Action :=
  fun before a after ↦ ∃ index env block tier,
    a = .callback index env (.value (.inclusion (some block))) ∧
    before.contract.requiredConfirmations block.txBlockHeight info.utxo.balance = some tier ∧
    tier + delta ≤ depthAt block.txBlockHeight block.mainchainTipHeight ∧
    info.utxoStorageKey ∉ before.contract.verifiedDepositUtxo ∧
    info.utxoStorageKey ∈ after.contract.verifiedDepositUtxo

/-- The promise waits for the light client to confirm a deposit, with what will be minted then. -/
inductive Waits (host : Host) (token : AccountId) (info : PendingUTXOInfo) (delta : ℕ)
    (m : Promise) : Promise → Prop
  | standard (recipientId relayer : AccountId) (mintAmount protocolFee relayerFee : ℕ)
      (postActions : Option (List PostAction)) (height : Option ℕ)
      (hm : m = .mint token recipientId mintAmount protocolFee relayer relayerFee postActions info
        height) :
      Waits host token info delta m
        (.verifyDeposit recipientId mintAmount protocolFee relayerFee info postActions delta)
  | safe (recipientId : AccountId) (mintAmount : ℕ) (msg : String) (height : Option ℕ)
      (hm : m = .safeMint token recipientId mintAmount (if msg = "" then none
        else some (injectUtxoIdInMsg host msg info.utxoStorageKey)) info height) :
      Waits host token info delta m (.verifySafeDeposit recipientId mintAmount msg info delta)

/-- The check of the two callbacks that start a deposit. -/
theorem confirms_of_check {c c₁ c₂ : Contract} {result : PromiseResult} {info : PendingUTXOInfo}
    {delta height : ℕ} (hcheck : c.processInclusionAndCheck result info delta = some (c₁, height))
    (hclaim : c₁.claimDepositUtxo info = some c₂) :
    c₂.config = c.config ∧ ∃ block tier, result = .value (.inclusion (some block)) ∧
      c.requiredConfirmations block.txBlockHeight info.utxo.balance = some tier ∧
      tier + delta ≤ depthAt block.txBlockHeight block.mainchainTipHeight ∧
      info.utxoStorageKey ∉ c.verifiedDepositUtxo ∧
      info.utxoStorageKey ∈ c₂.verifiedDepositUtxo := by
  obtain ⟨ring, hring⟩ := processInclusionAndCheck_spec hcheck
  obtain ⟨hnew, rfl⟩ := claimDepositUtxo_spec hclaim
  rw [hring] at hnew ⊢
  obtain ⟨block, hresult, _, hbump⟩ := processInclusionAndCheck_inv hcheck
  have hpasses := Contract.bumpAndCheckConfirmations_isSome.mp (Option.isSome_of_eq_some hbump)
  obtain ⟨tier, htier, hdepth⟩ := hpasses
  exact ⟨rfl, block, tier, hresult, htier, hdepth, hnew, Finset.mem_insert_self _ _⟩

/-- A mint that comes into flight is that of a deposit which has just been confirmed. -/
theorem exec_mints (laws : host.ReadsAddresses) (hs : s.WellShaped host) {a : Action} {m : Promise}
    {info : PendingUTXOInfo} (hinfo : m.mintInfo = some info) (he : s.exec host a = some s')
    (hm : m ∈ s'.inflight) :
    m ∈ s.inflight ∨ ∃ p delta, p ∈ s.inflight ∧
      Waits host s.contract.config.nbtcAccountId info delta m p ∧ Confirms info delta s a s' := by
  obtain ⟨cause, mid, hmid, heffect, hcauses, _⟩ := exec_cause laws hs he
  have htoken : mid.token = s.contract.config.nbtcAccountId := (congrArg Ledger.token hmid).symm
  rcases heffect.sent (Multiset.mem_coe.mpr hm) with hold | hsent
  · left
    have hbefore : m ∈ s.ledger.inflight := by
      rw [hmid]
      exact Multiset.mem_add.mpr (Or.inr hold)
    exact Multiset.mem_coe.mp hbefore
  · cases hsent with
    | issued env method hcause hissued =>
      cases m with
      | mint | safeMint => exact hissued.elim
      | _ => cases hinfo
    | minted env p result info' hcause hmints =>
      subst hcause
      cases hcauses with
      | answer index env p result receipt hp hcallback hafter =>
        have hmem := List.mem_of_getElem? hp
        rw [hafter] at hm
        rcases List.mem_append.mp hm with hold | hnew
        · exact Or.inl (List.mem_of_mem_eraseIdx hold)
        · right
          cases hmints with
          | standard recipientId mintAmount protocolFee relayerFee postActions delta height =>
            cases hinfo
            obtain ⟨_, _, _, hcheck, hclaim⟩ := verifyDepositCallback_inv hcallback
            obtain ⟨_, block, tier, hresult, hchecks⟩ := confirms_of_check hcheck hclaim
            rw [htoken]
            refine ⟨_, delta, hmem, .standard recipientId _ mintAmount protocolFee relayerFee
              postActions height rfl, ?_⟩
            rw [hafter, hresult]
            exact ⟨index, env, block, tier, rfl, hchecks⟩
          | safe recipientId mintAmount msg msg' delta height =>
            cases hinfo
            obtain ⟨_, _, _, hcheck, hclaim⟩ := verifySafeDepositCallback_inv hcallback
            obtain ⟨hconfig, block, tier, hresult, hchecks⟩ := confirms_of_check hcheck hclaim
            have hsame := List.mem_singleton.mp hnew
            rw [hconfig] at hsame
            refine ⟨_, delta, hmem, .safe recipientId mintAmount msg _ hsame, ?_⟩
            rw [hafter, hresult]
            exact ⟨index, env, block, tier, rfl, hchecks⟩
    | burning _ _ _ _ _ _ _ _ _ _ hburn => cases hburn <;> cases hinfo
    | detached _ _ _ _ _ hp | transferred _ _ _ hp | claimed _ _ _ hp =>
      rw [hp] at hinfo
      cases hinfo

/-- What is asked for a deposit is paid out for its message. -/
theorem paysOut_of_requests {c : Contract} {env : Env} {method : Method} {token : AccountId}
    {info : PendingUTXOInfo} {delta : ℕ} {m p : Promise} (hwaits : Waits host token info delta m p)
    (hrequests : c.Requests host env method p) :
    ∃ msg, m.PaysOut host token msg info ∧ c.AsksDeposit host env method msg info delta := by
  cases hwaits with
  | standard recipientId relayer mintAmount protocolFee relayerFee postActions height hm =>
    obtain ⟨msg, hasks, hrecipient, hstandard, hactions, hmint, hfees⟩ := hrequests
    rw [hm, hrecipient]
    refine ⟨msg, .standard mintAmount protocolFee relayerFee relayer postActions height hstandard ?_
      (checkDepositMsg_actions hactions), hasks⟩
    rw [hfees]
    exact hmint
  | safe recipientId mintAmount text height hm =>
    obtain ⟨msg, hasks, hrecipient, hsafe, htext, hamount, _⟩ := hrequests
    rw [hm, hrecipient, hamount, htext]
    exact ⟨msg, .safe _ height hsafe rfl, hasks⟩

end Sys

namespace World

open Transition (Once)

variable {σ : Setting} {guard : Sys.Guard}

/-- The deposit of a message was asked for and confirmed. -/
def Deposited (steps : Steps σ) (msg : DepositMsg) (info : PendingUTXOInfo) : Prop :=
  ∃ delta, Once (Lifts (Sys.Accepts fun c env method ↦
      c.AsksDeposit σ.host env method msg info delta)) steps ∧
    Once (Lifts (Sys.Confirms info delta)) steps

theorem Deposited.later {steps : Steps σ} {msg : DepositMsg} {info : PendingUTXOInfo}
    {step : Transition.Record (World σ) WorldAction} (h : Deposited steps msg info) :
    Deposited (step :: steps) msg info := by
  obtain ⟨delta, hasked, hconfirmed⟩ := h
  exact ⟨delta, hasked.later, hconfirmed.later⟩

/-- Every mint in flight pays out a deposit of the run. -/
theorem History.mints (laws : σ.host.ReadsAddresses) {steps : Steps σ} {w : World σ}
    (h : History guard steps w) : ∀ m info, m ∈ w.sys.inflight → m.mintInfo = some info →
      ∃ msg, m.PaysOut σ.host σ.nbtcId msg info ∧ Deposited steps msg info := by
  induction h with
  | start hs =>
    intro m info hmem
    obtain ⟨_, _, _, hinflight, _⟩ := hs.sys
    rw [hinflight] at hmem
    exact absurd hmem List.not_mem_nil
  | @next steps w w' action h ha hexec ih =>
    intro m info hmem hinfo
    have hsys := reachable_sys w h.reachable
    rcases exec_sys hexec with hsame | ⟨a, hacts, hstep⟩
    · rw [hsame] at hmem
      obtain ⟨msg, hpays, hdeposited⟩ := ih m info hmem hinfo
      exact ⟨msg, hpays, hdeposited.later⟩
    · rcases Sys.exec_mints laws (hsys.wellShaped laws) hinfo hstep hmem with
        hold | ⟨p, delta, hp, hwaits, hconfirms⟩
      · obtain ⟨msg, hpays, hdeposited⟩ := ih m info hold hinfo
        exact ⟨msg, hpays, hdeposited.later⟩
      · have hasked : p.asked = true := by
          cases hwaits with
          | standard | safe => rfl
        obtain ⟨step, hstep', a', hacts', env, method, ha', hrequests⟩ :=
          History.asked hasked steps w h hp
        have htoken : w.sys.contract.config.nbtcAccountId = σ.nbtcId :=
          reachable_token laws w h.reachable
        rw [htoken] at hwaits
        obtain ⟨msg, hpays, hasks⟩ := Sys.paysOut_of_requests hwaits hrequests
        exact ⟨msg, hpays, delta, ⟨step, List.mem_cons_of_mem _ hstep', a', hacts', env, method,
          ha', hasks⟩, .now ⟨a, hacts, hconfirms⟩⟩

end World

end SatoshiBridge

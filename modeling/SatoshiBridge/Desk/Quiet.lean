import SatoshiBridge.Desk.Invariant
import SatoshiBridge.Ledger.Simulation

/-!
# What leaves the desk as it is

Asking for a verification, minting, requesting and rejecting refunds, and moving the bridge's own
tokens do not touch what is pending. All but the deposits leave the window as it is too.
-/

set_option autoImplicit false
set_option relaxedAutoImplicit false

namespace SatoshiBridge

variable {Burns : Txid → Prop} {c c' : Contract}

namespace Contract

/-- The desk of a contract. -/
def desk (c : Contract) : Desk where
  pendings := c.btcPendingInfos
  signs accountId := (c.account accountId).btcPendingSignIds
  verifies accountId := (c.account accountId).btcPendingVerifyList
  families := c.rbfTxs
  limit := c.getMaxPendingSignTxs

end Contract

/-- `c'` leaves the lists, the families and the pending transactions of `c` as they are. -/
def Quiet (c c' : Contract) : Prop := ∃ limit, c'.desk = { c.desk with limit := limit }

theorem Quiet.of_eq (h : c'.desk = c.desk) : Quiet c c' := ⟨c.desk.limit, h⟩

theorem Quiet.desk (h : Quiet c c') : Desk.Effect Burns c.desk c'.desk := by
  obtain ⟨limit, heq⟩ := h
  rw [heq]
  exact .quiet limit

theorem Configures.quiet (h : Configures c c') : Quiet c c' := by
  refine ⟨c'.getMaxPendingSignTxs, ?_⟩
  unfold Contract.desk
  simp only [h.btcPendingInfos, h.reads, h.rbfTxs]

/-- `c'` leaves the window as it is besides. -/
structure Still (c c' : Contract) : Prop where
  quiet : Quiet c c'
  window : c'.window = c.window

theorem Still.of_eq (hdesk : c'.desk = c.desk) (hwindow : c'.window = c.window) : Still c c' :=
  ⟨.of_eq hdesk, hwindow⟩

theorem desk_createAccount (c : Contract) (a : AccountId) :
    (c.internalUnwrapOrCreateAccount a).desk = c.desk := by
  have haccount := account_internalUnwrapOrCreateAccount c a
  obtain ⟨accounts, haccounts, _⟩ := internalUnwrapOrCreateAccount_spec c a
  rw [haccounts] at haccount ⊢
  unfold Contract.desk
  simp only [haccount]
  rfl

theorem desk_unbump (c : Contract) (height : Option ℕ) (amount : ℕ) :
    (c.unbumpBlockAmount height amount).desk = c.desk := by
  cases height <;> rfl

/-- A deposit is counted and claimed. -/
theorem claimDeposit_quiet {result : PromiseResult} {info : PendingUTXOInfo} {delta height : ℕ}
    {c₁ c₂ : Contract} (hcheck : c.processInclusionAndCheck result info delta = some (c₁, height))
    (hclaim : c₁.claimDepositUtxo info = some c₂) : Quiet c c₂ := by
  obtain ⟨_, rfl⟩ := processInclusionAndCheck_spec hcheck
  obtain ⟨_, rfl⟩ := claimDepositUtxo_spec hclaim
  exact .of_eq rfl

end SatoshiBridge

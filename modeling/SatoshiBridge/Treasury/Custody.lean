import SatoshiBridge.Treasury.Nbtc

/-!
# What an account of the token can lose

The loss of one account from step to step. A call takes tokens from its caller only, as many as its
method spends, the resolution of a transfer from the receiver, up to what he has not used, and a
post action from the account its deposit was for.
-/

set_option autoImplicit false
set_option relaxedAutoImplicit false

namespace SatoshiBridge

/-- What a method takes from an account that calls it: the amount it sends, or everything when it
closes the account. -/
def NbtcMethod.spends (balance : ℕ) : NbtcMethod → ℕ
  | .ftTransfer _ amount _ | .ftTransferCall _ amount _ _ => amount
  | .storageUnregister _ => balance
  | _ => 0

namespace NbtcContract

variable {ft : FungibleToken} {env : NbtcEnv} {c c' c'' : NbtcContract ft}
  {receipt : NbtcReceipt ft} {account : AccountId}

/-- From `c` to `c'` the account loses at most `lost`. -/
def Loses (c c' : NbtcContract ft) (account : AccountId) (lost : ℕ) : Prop :=
  c.books.balance account ≤ c'.books.balance account + lost

namespace Loses

variable {lost lost' : ℕ}

theorem refl (c : NbtcContract ft) (account : AccountId) : c.Loses c account 0 := le_refl _

theorem trans (h : c.Loses c' account lost) (h' : c'.Loses c'' account lost') :
    c.Loses c'' account (lost + lost') := by
  unfold Loses at h h' ⊢
  omega

/-- A step that takes nothing from the account before or after one that may. -/
theorem then_none (h : c.Loses c' account lost) (h' : c'.Loses c'' account 0) :
    c.Loses c'' account lost := h.trans h'

theorem mono (h : c.Loses c' account lost) (hle : lost ≤ lost') : c.Loses c' account lost' := by
  unfold Loses at h ⊢
  omega

end Loses

/-! ### Operations on the books -/

section Books

variable (laws : ft.Standard) {token : ft.State} {a sender receiver : AccountId} {n : ℕ}

theorem loses_transfer
    (h : (ft.accounts c.token).transfer sender receiver n = some (ft.accounts token)) :
    c.Loses { c with token := token } account (if account = sender then n else 0) := by
  obtain ⟨_, hbalance, _, _⟩ := Balances.transfer_spec h
  have haccount := hbalance account
  unfold Loses books
  dsimp only
  omega

include laws

theorem loses_deposit (h : ft.internalDeposit c.token a n = some token) :
    c.Loses { c with token := token } account 0 := by
  obtain ⟨hbalance, _, _⟩ := Balances.deposit_spec (laws.internalDeposit h)
  have haccount := hbalance account
  unfold Loses books
  dsimp only
  omega

theorem loses_withdraw (hne : account ≠ a) (h : ft.internalWithdraw c.token a n = some token) :
    c.Loses { c with token := token } account 0 := by
  obtain ⟨hbalance, _, _⟩ := Balances.withdraw_spec (laws.internalWithdraw h)
  have haccount := hbalance account
  rw [if_neg hne] at haccount
  unfold Loses books
  dsimp only
  omega

theorem loses_registered (h : registered c.token a = some token) :
    c.Loses { c with token := token } account 0 := by
  unfold registered at h
  split at h
  · obtain ⟨hbalance, _, _⟩ := Balances.register_spec (laws.internalRegisterAccount h)
    have haccount := hbalance account
    unfold Loses books
    dsimp only
    omega
  · cases h
    exact .refl c account

theorem loses_mintInner (h : mintInner c.token a n = some token) :
    c.Loses { c with token := token } account 0 := by
  simp only [mintInner, Option.bind_eq_bind, Option.bind_eq_some_iff] at h
  obtain ⟨mid, hmid, hdeposit⟩ := h
  have hfirst : c.Loses { c with token := mid } account 0 := loses_registered laws hmid
  exact hfirst.then_none (loses_deposit (c := { c with token := mid }) laws hdeposit)

theorem loses_mintFee (h : mintFee c.token a n = some token) :
    c.Loses { c with token := token } account 0 := by
  unfold mintFee at h
  split at h
  · exact loses_mintInner laws h
  · cases h
    exact .refl c account

theorem loses_payRelayer (hne : account ≠ c.bridgeId)
    (h : payRelayer c.token c.bridgeId a n = some token) :
    c.Loses { c with token := token } account 0 := by
  unfold payRelayer at h
  split at h
  · simp only [Option.bind_eq_bind, Option.bind_eq_some_iff] at h
    obtain ⟨mid, hmid, htransfer⟩ := h
    have hfirst : c.Loses { c with token := mid } account 0 := loses_registered laws hmid
    have hsecond : ({ c with token := mid } : NbtcContract ft).Loses { c with token := token }
        account (if account = c.bridgeId then n else 0) :=
      loses_transfer (c := { c with token := mid }) (laws.internalTransfer htransfer)
    rw [if_neg hne] at hsecond
    exact hfirst.then_none hsecond
  · cases h
    exact .refl c account

end Books

/-! ### Methods -/

section Methods

variable (laws : ft.Standard)

include laws

theorem ftTransfer_loses {receiverId : AccountId} {amount : ℕ} {memo : Option String}
    (h : c.ftTransfer env receiverId amount memo = some c') :
    c.Loses c' account (if account = env.predecessor then amount else 0) := by
  simp only [ftTransfer, Option.bind_eq_bind, Option.bind_eq_some_iff, Option.some.injEq] at h
  obtain ⟨token, htransfer, rfl⟩ := h
  exact loses_transfer (laws.ftTransfer htransfer)

theorem ftTransferCall_loses {receiverId : AccountId} {amount : ℕ} {msg : String}
    (h : c.ftTransferCall env receiverId amount msg = some receipt) :
    c.Loses receipt.contract account (if account = env.predecessor then amount else 0) := by
  simp only [ftTransferCall, Option.bind_eq_bind, Option.bind_eq_some_iff, Option.some.injEq] at h
  obtain ⟨token, htransfer, rfl⟩ := h
  exact loses_transfer (laws.ftTransferCall htransfer)

/-- The bridge mints for the account, and sends on what it has minted. -/
theorem safeMint_loses {accountId : AccountId} {amount : ℕ} {msg : Option String}
    (hne : account ≠ c.bridgeId) (h : c.safeMint env accountId amount msg = some receipt) :
    c.Loses receipt.contract account 0 := by
  simp only [safeMint, Option.bind_eq_bind, Option.bind_eq_some_iff, assertBridge_eq_some,
    exists_and_left, exists_const] at h
  obtain ⟨hbridge, _, _, token, hdeposit, h⟩ := h
  have hminted : c.Loses { c with token := token } account 0 := loses_deposit laws hdeposit
  rw [← hbridge] at hne
  split at h
  · cases h
    exact hminted
  · split at h
    · have hsent : ({ c with token := token } : NbtcContract ft).Loses receipt.contract account
          (if account = env.predecessor then amount else 0) := ftTransferCall_loses laws h
      rw [if_neg hne] at hsent
      exact hminted.then_none hsent
    · simp only [Option.bind_eq_some_iff, Option.some.injEq] at h
      obtain ⟨c', htransfer, rfl⟩ := h
      have hsent : ({ c with token := token } : NbtcContract ft).Loses c' account
          (if account = env.predecessor then amount else 0) := ftTransfer_loses laws htransfer
      rw [if_neg hne] at hsent
      exact hminted.then_none hsent

theorem mint_loses {accountId relayerAccountId : AccountId} {amount protocolFee relayerFee : ℕ}
    {postActions : Option (List PostAction)}
    (h : c.mint env accountId amount protocolFee relayerAccountId relayerFee postActions =
      some receipt) : c.Loses receipt.contract account 0 := by
  simp only [mint, Option.bind_eq_bind, Option.bind_eq_some_iff, Option.some.injEq] at h
  obtain ⟨_, _, token₁, hmint, token₂, hfee, token₃, hrelayer, rfl⟩ := h
  have hfirst : c.Loses { c with token := token₁ } account 0 := loses_mintInner laws hmint
  have hsecond : ({ c with token := token₁ } : NbtcContract ft).Loses { c with token := token₂ }
      account 0 := loses_mintFee laws hfee
  have hthird : ({ c with token := token₂ } : NbtcContract ft).Loses { c with token := token₃ }
      account 0 := loses_mintFee laws hrelayer
  exact (hfirst.then_none hsecond).then_none hthird

theorem burn_loses {accountId relayerAccountId : AccountId} {amount relayerFee : ℕ}
    (hne : account ≠ c.bridgeId)
    (h : c.burn env accountId amount relayerAccountId relayerFee = some receipt) :
    c.Loses receipt.contract account 0 := by
  simp only [burn, Option.bind_eq_bind, Option.bind_eq_some_iff, Option.some.injEq] at h
  obtain ⟨_, _, token₁, hwithdraw, token₂, hrelayer, rfl⟩ := h
  have hfirst : c.Loses { c with token := token₁ } account 0 :=
    loses_withdraw laws hne hwithdraw
  exact hfirst.then_none
    (loses_payRelayer (c := { c with token := token₁ }) laws hne hrelayer)

/-- A call takes tokens from its caller only, and no more than it spends. -/
theorem call_loses {method : NbtcMethod} (hne : account ≠ c.bridgeId)
    (h : c.call env method = some receipt) :
    c.Loses receipt.contract account
      (if account = env.predecessor then method.spends (c.books.balance account) else 0) := by
  cases method with
  | setController | setWithdrawRelayerAddress =>
    simp only [call, setController, setWithdrawRelayerAddress, Option.bind_eq_bind,
      Option.bind_eq_some_iff, Option.some.injEq] at h
    obtain ⟨_, _, _, _, rfl⟩ := h
    exact (Loses.refl c account).mono (Nat.zero_le _)
  | safeMint => exact (safeMint_loses laws hne h).mono (Nat.zero_le _)
  | mint => exact (mint_loses laws h).mono (Nat.zero_le _)
  | burn burnAccountId burnAmount relayerAccountId relayerFee =>
    have hburn : c.burn env burnAccountId burnAmount relayerAccountId relayerFee = some receipt := h
    exact (burn_loses laws hne hburn).mono (Nat.zero_le _)
  | ftTransfer =>
    simp only [call, Option.bind_eq_bind, Option.bind_eq_some_iff, Option.some.injEq] at h
    obtain ⟨c', htransfer, rfl⟩ := h
    exact ftTransfer_loses laws htransfer
  | ftTransferCall => exact ftTransferCall_loses laws h
  | storageDeposit accountId only =>
    simp only [call, storing, Option.bind_eq_bind, Option.bind_eq_some_iff,
      Option.some.injEq] at h
    obtain ⟨token, hdeposit, rfl⟩ := h
    have hkept : c.Loses { c with token := token } account 0 := by
      unfold Loses books
      rcases laws.storageDeposit hdeposit with hsame | hregister
      · rw [hsame]
        exact le_refl _
      · have haccount := (Balances.register_spec hregister).1 account
        dsimp only
        omega
    exact hkept.mono (Nat.zero_le _)
  | storageWithdraw amount =>
    simp only [call, storing, Option.bind_eq_bind, Option.bind_eq_some_iff,
      Option.some.injEq] at h
    obtain ⟨token, hwithdraw, rfl⟩ := h
    have hkept : c.Loses { c with token := token } account 0 := by
      unfold Loses books
      rw [laws.storageWithdraw hwithdraw]
      exact le_refl _
    exact hkept.mono (Nat.zero_le _)
  | storageUnregister force =>
    simp only [call, storing, Option.bind_eq_bind, Option.bind_eq_some_iff,
      Option.some.injEq] at h
    obtain ⟨token, hunregister, rfl⟩ := h
    by_cases hcaller : account = env.predecessor
    · rw [if_pos hcaller]
      exact Nat.le_add_left _ _
    · have haccount := (Balances.erase_spec (ft.accounts c.token) env.predecessor).1 account hcaller
      unfold returning Loses books
      rw [if_neg hcaller, laws.internalStorageUnregister hunregister, haccount]
      exact le_refl _

/-- A resolution takes from the receiver, up to what he has not used. -/
theorem ftResolveTransfer_loses {senderId receiverId : AccountId} {amount used : ℕ}
    {result : PromiseResult}
    (h : c.ftResolveTransfer senderId receiverId amount result = some (c', used)) :
    c.Loses c' account (if account = receiverId then unusedAmount amount result else 0) := by
  simp only [ftResolveTransfer, Option.bind_eq_bind, Option.bind_eq_some_iff, Option.some.injEq,
    Prod.mk.injEq, Prod.exists] at h
  obtain ⟨token, used', burnt, hresolve, rfl, rfl⟩ := h
  obtain ⟨returned, hgiven, _⟩ := laws.internalFtResolveTransfer hresolve
  obtain ⟨hle, hbalance, _, _, _⟩ := Balances.giveBack_spec hgiven
  have haccount := hbalance account
  unfold Loses books
  dsimp only
  by_cases hreceiver : account = receiverId
  · rw [if_pos hreceiver] at haccount ⊢
    omega
  · rw [if_neg hreceiver] at haccount ⊢
    omega

/-- A post action takes its amount from the account it is for. -/
theorem handlePostAction_loses {senderId : AccountId} {postAction : PostAction} {prepaidGas : ℕ}
    {t : Transfer} (h : c.handlePostAction prepaidGas senderId postAction = some (c', t)) :
    c.Loses c' account (if account = senderId then postAction.amount else 0) := by
  simp only [handlePostAction, Option.bind_eq_bind, Option.bind_eq_some_iff, Option.some.injEq,
    Prod.mk.injEq] at h
  obtain ⟨_, _, _, _, token, htransfer, rfl, rfl⟩ := h
  exact loses_transfer (laws.internalTransfer htransfer)

end Methods

end NbtcContract

end SatoshiBridge

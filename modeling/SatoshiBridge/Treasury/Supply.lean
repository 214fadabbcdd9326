import SatoshiBridge.Treasury.Nbtc

/-!
# What burns tokens

The supply of the token from step to step, exactly. The bridge burns what it asks for, an account
that closes burns its balance, and a transfer that comes back to a closed account is burnt. Nothing
else lowers the supply.
-/

set_option autoImplicit false
set_option relaxedAutoImplicit false

namespace SatoshiBridge.NbtcContract

variable {ft : FungibleToken} {env : NbtcEnv} {c c' c'' : NbtcContract ft}
  {receipt : NbtcReceipt ft} {n m : ℕ}

/-- From `c` to `c'` exactly `n` tokens are burnt, and none are minted. -/
def Burns (c c' : NbtcContract ft) (n : ℕ) : Prop := c'.books.supply + n = c.books.supply

/-- From `c` to `c'` no tokens are burnt. -/
def Grows (c c' : NbtcContract ft) : Prop := c.books.supply ≤ c'.books.supply

theorem Burns.refl (c : NbtcContract ft) : c.Burns c 0 := rfl

theorem Burns.then_none (h : c.Burns c' n) (h' : c'.Burns c'' 0) : c.Burns c'' n := by
  unfold Burns at h h' ⊢
  omega

theorem Burns.grows (h : c.Burns c' 0) : c.Grows c' := by
  unfold Burns at h
  unfold Grows
  omega

theorem Grows.trans (h : c.Grows c') (h' : c'.Grows c'') : c.Grows c'' := Nat.le_trans h h'

/-! ### Operations on the books -/

section Books

variable (laws : ft.Standard) {token : ft.State} {a sender receiver : AccountId}

theorem burns_transfer
    (h : (ft.accounts c.token).transfer sender receiver n = some (ft.accounts token)) :
    c.Burns { c with token := token } 0 := by
  obtain ⟨_, _, hsupply, _⟩ := Balances.transfer_spec h
  exact hsupply

include laws

theorem burns_withdraw (h : ft.internalWithdraw c.token a n = some token) :
    c.Burns { c with token := token } n := by
  obtain ⟨_, hsupply, _⟩ := Balances.withdraw_spec (laws.internalWithdraw h)
  exact hsupply

theorem grows_deposit (h : ft.internalDeposit c.token a n = some token) :
    c.Grows { c with token := token } := by
  obtain ⟨_, hsupply, _⟩ := Balances.deposit_spec (laws.internalDeposit h)
  unfold Grows books
  dsimp only
  omega

theorem burns_registered (h : registered c.token a = some token) :
    c.Burns { c with token := token } 0 := by
  unfold registered at h
  split at h
  · obtain ⟨_, hsupply, _⟩ := Balances.register_spec (laws.internalRegisterAccount h)
    exact hsupply
  · cases h
    exact .refl c

theorem grows_mintInner (h : mintInner c.token a n = some token) :
    c.Grows { c with token := token } := by
  simp only [mintInner, Option.bind_eq_bind, Option.bind_eq_some_iff] at h
  obtain ⟨mid, hmid, hdeposit⟩ := h
  have hfirst : c.Burns { c with token := mid } 0 := burns_registered laws hmid
  exact hfirst.grows.trans (grows_deposit (c := { c with token := mid }) laws hdeposit)

theorem grows_mintFee (h : mintFee c.token a n = some token) :
    c.Grows { c with token := token } := by
  unfold mintFee at h
  split at h
  · exact grows_mintInner laws h
  · cases h
    exact (Burns.refl c).grows

theorem burns_payRelayer (h : payRelayer c.token c.bridgeId a n = some token) :
    c.Burns { c with token := token } 0 := by
  unfold payRelayer at h
  split at h
  · simp only [Option.bind_eq_bind, Option.bind_eq_some_iff] at h
    obtain ⟨mid, hmid, htransfer⟩ := h
    have hfirst : c.Burns { c with token := mid } 0 := burns_registered laws hmid
    exact hfirst.then_none
      (burns_transfer (c := { c with token := mid }) (laws.internalTransfer htransfer))
  · cases h
    exact .refl c

end Books

/-! ### Methods -/

section Methods

variable (laws : ft.Standard)

include laws

theorem ftTransfer_burns {receiverId : AccountId} {amount : ℕ} {memo : Option String}
    (h : c.ftTransfer env receiverId amount memo = some c') : c.Burns c' 0 := by
  simp only [ftTransfer, Option.bind_eq_bind, Option.bind_eq_some_iff, Option.some.injEq] at h
  obtain ⟨token, htransfer, rfl⟩ := h
  exact burns_transfer (laws.ftTransfer htransfer)

theorem ftTransferCall_burns {receiverId : AccountId} {amount : ℕ} {msg : String}
    (h : c.ftTransferCall env receiverId amount msg = some receipt) :
    c.Burns receipt.contract 0 := by
  simp only [ftTransferCall, Option.bind_eq_bind, Option.bind_eq_some_iff, Option.some.injEq] at h
  obtain ⟨token, htransfer, rfl⟩ := h
  exact burns_transfer (laws.ftTransferCall htransfer)

theorem safeMint_grows {accountId : AccountId} {amount : ℕ} {msg : Option String}
    (h : c.safeMint env accountId amount msg = some receipt) : c.Grows receipt.contract := by
  simp only [safeMint, Option.bind_eq_bind, Option.bind_eq_some_iff] at h
  obtain ⟨_, _, _, _, token, hdeposit, h⟩ := h
  have hminted : c.Grows { c with token := token } := grows_deposit laws hdeposit
  split at h
  · cases h
    exact hminted
  · split at h
    · exact hminted.trans (ftTransferCall_burns laws h).grows
    · simp only [Option.bind_eq_some_iff, Option.some.injEq] at h
      obtain ⟨c', htransfer, rfl⟩ := h
      exact hminted.trans (ftTransfer_burns laws htransfer).grows

theorem mint_grows {accountId relayerAccountId : AccountId} {amount protocolFee relayerFee : ℕ}
    {postActions : Option (List PostAction)}
    (h : c.mint env accountId amount protocolFee relayerAccountId relayerFee postActions =
      some receipt) : c.Grows receipt.contract := by
  simp only [mint, Option.bind_eq_bind, Option.bind_eq_some_iff, Option.some.injEq] at h
  obtain ⟨_, _, token₁, hmint, token₂, hfee, token₃, hrelayer, rfl⟩ := h
  have hfirst : c.Grows { c with token := token₁ } := grows_mintInner laws hmint
  have hsecond : ({ c with token := token₁ } : NbtcContract ft).Grows { c with token := token₂ } :=
    grows_mintFee laws hfee
  have hthird : ({ c with token := token₂ } : NbtcContract ft).Grows { c with token := token₃ } :=
    grows_mintFee laws hrelayer
  exact (hfirst.trans hsecond).trans hthird

/-- The bridge burns what it asks for; what it pays a relayer stays in the supply. -/
theorem burn_burns {accountId relayerAccountId : AccountId} {amount relayerFee : ℕ}
    (h : c.burn env accountId amount relayerAccountId relayerFee = some receipt) :
    c.Burns receipt.contract amount := by
  simp only [burn, Option.bind_eq_bind, Option.bind_eq_some_iff, Option.some.injEq] at h
  obtain ⟨_, _, token₁, hwithdraw, token₂, hrelayer, rfl⟩ := h
  have hfirst : c.Burns { c with token := token₁ } amount := burns_withdraw laws hwithdraw
  exact hfirst.then_none (burns_payRelayer (c := { c with token := token₁ }) laws hrelayer)

/-- Of the calls of others than the bridge only the closing of an account lowers the supply. -/
theorem call_burns {method : NbtcMethod} (hne : env.predecessor ≠ c.bridgeId)
    (h : c.call env method = some receipt) :
    c.Burns receipt.contract 0 ∨ ∃ force, method = .storageUnregister force ∧
      c.Burns receipt.contract (c.books.balance env.predecessor) := by
  cases method with
  | setController | setWithdrawRelayerAddress =>
    simp only [call, setController, setWithdrawRelayerAddress, Option.bind_eq_bind,
      Option.bind_eq_some_iff, Option.some.injEq] at h
    obtain ⟨_, _, _, _, rfl⟩ := h
    exact Or.inl rfl
  | safeMint => exact absurd (safeMint_moves laws h).1 hne
  | mint => exact absurd (mint_moves laws h).1 hne
  | burn burnAccountId burnAmount relayerAccountId relayerFee =>
    have hburn : c.burn env burnAccountId burnAmount relayerAccountId relayerFee = some receipt := h
    exact absurd (burn_moves laws hburn).1 hne
  | ftTransfer receiverId amount memo =>
    simp only [call, Option.bind_eq_bind, Option.bind_eq_some_iff, Option.some.injEq] at h
    obtain ⟨c', htransfer, rfl⟩ := h
    exact Or.inl (ftTransfer_burns laws htransfer)
  | ftTransferCall => exact Or.inl (ftTransferCall_burns laws h)
  | storageDeposit accountId only =>
    simp only [call, storing, Option.bind_eq_bind, Option.bind_eq_some_iff,
      Option.some.injEq] at h
    obtain ⟨token, hdeposit, rfl⟩ := h
    left
    unfold returning Burns books
    rcases laws.storageDeposit hdeposit with hsame | hregister
    · rw [hsame, add_zero]
    · exact (Balances.register_spec hregister).2.1
  | storageWithdraw amount =>
    simp only [call, storing, Option.bind_eq_bind, Option.bind_eq_some_iff,
      Option.some.injEq] at h
    obtain ⟨token, hwithdraw, rfl⟩ := h
    left
    unfold returning Burns books
    rw [laws.storageWithdraw hwithdraw, add_zero]
  | storageUnregister force =>
    simp only [call, storing, Option.bind_eq_bind, Option.bind_eq_some_iff,
      Option.some.injEq] at h
    obtain ⟨token, hunregister, rfl⟩ := h
    refine Or.inr ⟨force, rfl, ?_⟩
    unfold returning Burns books
    rw [laws.internalStorageUnregister hunregister]
    exact (Balances.erase_spec (ft.accounts c.token) env.predecessor).2.1

/-- A resolution burns what would go back to an account that is closed. -/
theorem ftResolveTransfer_burns {senderId receiverId : AccountId} {amount used : ℕ}
    {result : PromiseResult}
    (h : c.ftResolveTransfer senderId receiverId amount result = some (c', used)) :
    c.Burns c' (if senderId ∈ c.books then 0
      else min (c.books.balance receiverId) (unusedAmount amount result)) := by
  simp only [ftResolveTransfer, Option.bind_eq_bind, Option.bind_eq_some_iff, Option.some.injEq,
    Prod.mk.injEq, Prod.exists] at h
  obtain ⟨token, used', burnt, hresolve, rfl, rfl⟩ := h
  obtain ⟨returned, hgiven, _⟩ := laws.internalFtResolveTransfer hresolve
  obtain ⟨hrefund, _, hsupply, _, hregistered, hclosed⟩ := Balances.giveBack_spec hgiven
  have hburnt : burnt = if senderId ∈ c.books then 0
      else min (c.books.balance receiverId) (unusedAmount amount result) := by
    split
    · rename_i hin
      exact hregistered hin
    · rename_i hnot
      rw [hclosed hnot, Nat.zero_add] at hrefund
      exact hrefund
  rw [← hburnt]
  exact hsupply

theorem handlePostAction_burns {senderId : AccountId} {postAction : PostAction} {prepaidGas : ℕ}
    {t : Transfer} (h : c.handlePostAction prepaidGas senderId postAction = some (c', t)) :
    c.Burns c' 0 := by
  simp only [handlePostAction, Option.bind_eq_bind, Option.bind_eq_some_iff, Option.some.injEq,
    Prod.mk.injEq] at h
  obtain ⟨_, _, _, _, token, htransfer, rfl, rfl⟩ := h
  exact burns_transfer (laws.internalTransfer htransfer)

end Methods

end SatoshiBridge.NbtcContract

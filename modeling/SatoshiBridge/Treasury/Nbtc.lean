import SatoshiBridge.Model.Nbtc

/-!
# What the token does to the balance of the bridge

For every method and every receipt of the token, what the bridge may lose and what it gains, what is
burnt and what may be minted. Tokens leave the bridge only through its own calls, and are minted and
burnt for the bridge alone.
-/

set_option autoImplicit false
set_option relaxedAutoImplicit false

namespace SatoshiBridge

/-- The tokens of the bridge that it has not booked until a transfer to it is answered. -/
def Transfer.demand (bridge : AccountId) (t : Transfer) : ℕ :=
  if bridge = t.receiverId then t.amount else 0

/-- The same for what a method answers with. -/
def NbtcAnswer.demand (bridge : AccountId) : NbtcAnswer → ℕ
  | value _ => 0
  | transfer t => t.demand bridge

namespace NbtcContract

variable {ft : FungibleToken} {env : NbtcEnv} {c c' c'' : NbtcContract ft}

/-- The books of the token. -/
def books (c : NbtcContract ft) : Balances AccountId := ft.accounts c.token

/-- From `c` to `c'` the bridge loses at most `lost` and gains `gained`, at least `burnt` is burnt
and at most `minted` is minted. -/
structure Moves (c c' : NbtcContract ft) (lost gained burnt minted : ℕ) : Prop where
  bridgeId : c'.bridgeId = c.bridgeId
  registered : c.bridgeId ∈ c.books → c.bridgeId ∈ c'.books
  balance : c.books.balance c.bridgeId + gained ≤ c'.books.balance c.bridgeId + lost
  supply : c'.books.supply + burnt ≤ c.books.supply + minted

namespace Moves

variable {lost gained burnt minted lost' gained' burnt' minted' : ℕ}

theorem refl (c : NbtcContract ft) : c.Moves c 0 0 0 0 := ⟨rfl, id, le_refl _, le_refl _⟩

theorem trans (h : c.Moves c' lost gained burnt minted)
    (h' : c'.Moves c'' lost' gained' burnt' minted') :
    c.Moves c'' (lost + lost') (gained + gained') (burnt + burnt') (minted + minted') where
  bridgeId := h'.bridgeId.trans h.bridgeId
  registered := by
    intro hin
    have hmid := h'.registered
    rw [h.bridgeId] at hmid
    exact hmid (h.registered hin)
  balance := by
    have hfirst := h.balance
    have hsecond := h'.balance
    rw [h.bridgeId] at hsecond
    omega
  supply := by
    have hfirst := h.supply
    have hsecond := h'.supply
    omega

/-- A weaker account of the same step. -/
theorem weaken (h : c.Moves c' lost gained burnt minted) (hlost : lost ≤ lost')
    (hgained : gained' ≤ gained) (hburnt : burnt' ≤ burnt) (hminted : minted ≤ minted') :
    c.Moves c' lost' gained' burnt' minted' where
  bridgeId := h.bridgeId
  registered := h.registered
  balance := by
    have hbalance := h.balance
    omega
  supply := by
    have hsupply := h.supply
    omega

end Moves

/-! ### Operations on the books -/

section Books

variable (laws : ft.Standard) {token : ft.State} {a sender receiver : AccountId} {n : ℕ}

include laws

theorem moves_deposit (h : ft.internalDeposit c.token a n = some token) :
    c.Moves { c with token := token } 0 (if c.bridgeId = a then n else 0) 0 n := by
  obtain ⟨hbalance, hsupply, hkept⟩ := Balances.deposit_spec (laws.internalDeposit h)
  have hbridge := hbalance c.bridgeId
  refine ⟨rfl, hkept c.bridgeId, ?_, by unfold books; dsimp only; omega⟩
  unfold books
  dsimp only
  omega

theorem moves_withdraw (h : ft.internalWithdraw c.token a n = some token) :
    c.Moves { c with token := token } n 0 n 0 := by
  obtain ⟨hbalance, hsupply, hkept⟩ := Balances.withdraw_spec (laws.internalWithdraw h)
  have hbridge := hbalance c.bridgeId
  refine ⟨rfl, hkept c.bridgeId, ?_, by unfold books; dsimp only; omega⟩
  unfold books
  dsimp only
  split at hbridge
  · omega
  · omega

theorem moves_register (h : ft.internalRegisterAccount c.token a = some token) :
    c.Moves { c with token := token } 0 0 0 0 := by
  obtain ⟨hbalance, hsupply, hkept⟩ := Balances.register_spec (laws.internalRegisterAccount h)
  have hbridge := hbalance c.bridgeId
  refine ⟨rfl, fun hin ↦ hkept c.bridgeId (Or.inr hin), ?_, ?_⟩
  · unfold books
    dsimp only
    omega
  · unfold books
    dsimp only
    omega

omit laws in
theorem moves_transfer
    (h : (ft.accounts c.token).transfer sender receiver n = some (ft.accounts token)) :
    c.Moves { c with token := token } (if c.bridgeId = sender then n else 0)
      (if c.bridgeId = receiver then n else 0) 0 0 := by
  obtain ⟨_, hbalance, hsupply, hkept⟩ := Balances.transfer_spec h
  have hbridge := hbalance c.bridgeId
  refine ⟨rfl, hkept c.bridgeId, ?_, ?_⟩
  · unfold books
    dsimp only
    omega
  · unfold books
    dsimp only
    omega

theorem moves_registered (h : registered c.token a = some token) :
    c.Moves { c with token := token } 0 0 0 0 := by
  unfold registered at h
  split at h
  · exact moves_register laws h
  · cases h
    exact .refl c

theorem moves_mintInner (h : mintInner c.token a n = some token) :
    c.Moves { c with token := token } 0 (if c.bridgeId = a then n else 0) 0 n := by
  simp only [mintInner, Option.bind_eq_bind, Option.bind_eq_some_iff] at h
  obtain ⟨mid, hmid, hdeposit⟩ := h
  have hfirst := moves_registered laws hmid
  have hsecond := moves_deposit (c := { c with token := mid }) laws hdeposit
  have hboth := hfirst.trans hsecond
  simp only [zero_add] at hboth
  exact hboth

theorem moves_mintFee (h : mintFee c.token a n = some token) :
    c.Moves { c with token := token } 0 (if c.bridgeId = a then n else 0) 0 n := by
  unfold mintFee at h
  split at h
  · exact moves_mintInner laws h
  · rename_i hnone
    cases h
    rw [Nat.eq_zero_of_not_pos hnone, ite_self]
    exact .refl c

theorem moves_payRelayer (h : payRelayer c.token c.bridgeId a n = some token) :
    c.Moves { c with token := token } n 0 0 0 := by
  unfold payRelayer at h
  split at h
  · simp only [Option.bind_eq_bind, Option.bind_eq_some_iff] at h
    obtain ⟨mid, hmid, htransfer⟩ := h
    have hfirst := moves_registered laws hmid
    have hsecond := moves_transfer (c := { c with token := mid }) (laws.internalTransfer htransfer)
    have hboth := hfirst.trans hsecond
    rw [if_pos rfl] at hboth
    refine hboth.weaken ?_ (Nat.zero_le _) (le_refl _) (le_refl _)
    omega
  · rename_i hnone
    cases h
    rw [Nat.eq_zero_of_not_pos hnone]
    exact .refl c

end Books

/-! ### Methods of everybody -/

section Methods

variable (laws : ft.Standard) {receipt : NbtcReceipt ft} {accountId receiverId : AccountId}
  {amount : ℕ}

include laws

theorem ftTransfer_moves {memo : Option String}
    (h : c.ftTransfer env receiverId amount memo = some c') :
    c.Moves c' (if c.bridgeId = env.predecessor then amount else 0) 0 0 0 := by
  simp only [ftTransfer, Option.bind_eq_bind, Option.bind_eq_some_iff, Option.some.injEq] at h
  obtain ⟨token, htransfer, rfl⟩ := h
  have hmoves := moves_transfer (c := c) (laws.ftTransfer htransfer)
  exact hmoves.weaken (le_refl _) (Nat.zero_le _) (le_refl _) (le_refl _)

theorem ftTransferCall_moves {msg : String}
    (h : c.ftTransferCall env receiverId amount msg = some receipt) :
    receipt.answer = .transfer ⟨env.predecessor, receiverId, amount, msg⟩ ∧
      receipt.postActions = none ∧
      c.Moves receipt.contract (if c.bridgeId = env.predecessor then amount else 0)
        (if c.bridgeId = receiverId then amount else 0) 0 0 := by
  simp only [ftTransferCall, Option.bind_eq_bind, Option.bind_eq_some_iff, Option.some.injEq] at h
  obtain ⟨token, htransfer, rfl⟩ := h
  exact ⟨rfl, rfl, moves_transfer (c := c) (laws.ftTransferCall htransfer)⟩

/-- A resolution takes up to what the receiver has not used back, for the sender. -/
theorem ftResolveTransfer_moves {senderId : AccountId} {result : PromiseResult} {used : ℕ}
    (h : c.ftResolveTransfer senderId receiverId amount result = some (c', used)) :
    ∃ returned, used + returned = amount ∧
      c.Moves c' (if c.bridgeId = receiverId then unusedAmount amount result else 0)
        (if c.bridgeId = senderId then returned else 0) 0 0 := by
  simp only [ftResolveTransfer, Option.bind_eq_bind, Option.bind_eq_some_iff, Option.some.injEq,
    Prod.mk.injEq, Prod.exists] at h
  obtain ⟨token, used', burnt, hresolve, rfl, rfl⟩ := h
  obtain ⟨returned, hgiven, hused⟩ := laws.internalFtResolveTransfer hresolve
  obtain ⟨hle, hbalance, hsupply, hkept, _⟩ := Balances.giveBack_spec hgiven
  have hbridge := hbalance c.bridgeId
  refine ⟨returned, hused, rfl, hkept c.bridgeId, ?_, ?_⟩
  · unfold books
    dsimp only
    by_cases hreceiver : c.bridgeId = receiverId
    · rw [if_pos hreceiver] at hbridge ⊢
      omega
    · rw [if_neg hreceiver] at hbridge ⊢
      omega
  · unfold books
    dsimp only
    omega

theorem handlePostAction_moves {senderId : AccountId} {postAction : PostAction} {prepaidGas : ℕ}
    {t : Transfer} (h : c.handlePostAction prepaidGas senderId postAction = some (c', t)) :
    t.receiverId ≠ c.bridgeId ∧
      c.Moves c' (if c.bridgeId = senderId then postAction.amount else 0) 0 0 0 := by
  simp only [handlePostAction, Option.bind_eq_bind, Option.bind_eq_some_iff, require_eq_some,
    exists_const, Option.some.injEq, Prod.mk.injEq] at h
  obtain ⟨_, hne, token, htransfer, rfl, rfl⟩ := h
  have hmoves := moves_transfer (c := c) (laws.internalTransfer htransfer)
  exact ⟨hne, hmoves.weaken (le_refl _) (Nat.zero_le _) (le_refl _) (le_refl _)⟩

/-! ### Methods of the bridge -/

omit laws in
theorem assertBridge_eq_some {u : Unit} :
    c.assertBridge env = some u ↔ env.predecessor = c.bridgeId := by
  rw [assertBridge, require_eq_some, eq_comm]

/-- A safe mint leaves the tokens with the bridge, or passes them on. -/
theorem safeMint_moves {msg : Option String}
    (h : c.safeMint env accountId amount msg = some receipt) :
    env.predecessor = c.bridgeId ∧ accountId ≠ c.bridgeId ∧ receipt.postActions = none ∧
      ((receipt.answer = .value (.u128 0) ∧ c.Moves receipt.contract 0 amount 0 amount) ∨
        ((receipt.answer = .value (.u128 amount) ∨
          ∃ msg, receipt.answer = .transfer ⟨c.bridgeId, accountId, amount, msg⟩) ∧
          c.Moves receipt.contract 0 0 0 amount)) := by
  simp only [safeMint, Option.bind_eq_bind, Option.bind_eq_some_iff, assertBridge_eq_some,
    require_eq_some, exists_and_left, exists_const] at h
  obtain ⟨hbridge, hne, token, hdeposit, h⟩ := h
  have hminted := moves_deposit laws hdeposit
  rw [if_pos rfl] at hminted
  refine ⟨hbridge, hne, ?_⟩
  have hpassed {c' : NbtcContract ft}
      (hmoves : ({ c with token := token } : NbtcContract ft).Moves c' amount 0 0 0) :
      c.Moves c' 0 0 0 amount := by
    have hboth := hminted.trans hmoves
    refine ⟨hboth.bridgeId, hboth.registered, ?_, ?_⟩
    · have hbalance := hboth.balance
      omega
    · have hsupply := hboth.supply
      omega
  split at h
  · cases h
    exact ⟨rfl, Or.inl ⟨rfl, hminted⟩⟩
  · split at h
    · obtain ⟨hanswer, hnone, hmoves⟩ := ftTransferCall_moves laws h
      rw [hbridge, if_pos rfl] at hmoves
      rw [hbridge] at hanswer
      have hreceiver := hmoves.weaken (le_refl _) (Nat.zero_le _) (le_refl _) (le_refl _)
      exact ⟨hnone, Or.inr ⟨Or.inr ⟨_, hanswer⟩, hpassed hreceiver⟩⟩
    · simp only [Option.bind_eq_some_iff, Option.some.injEq] at h
      obtain ⟨c', htransfer, rfl⟩ := h
      have hmoves := ftTransfer_moves laws htransfer
      rw [hbridge, if_pos rfl] at hmoves
      exact ⟨rfl, Or.inr ⟨Or.inl rfl, hpassed hmoves⟩⟩

theorem mint_moves {protocolFee relayerFee : ℕ} {relayerAccountId : AccountId}
    {postActions : Option (List PostAction)}
    (h : c.mint env accountId amount protocolFee relayerAccountId relayerFee postActions =
      some receipt) :
    env.predecessor = c.bridgeId ∧ receipt.answer = .value .unit ∧
      receipt.postActions = postActions.map (fun actions ↦ (accountId, actions)) ∧
      c.Moves receipt.contract 0 ((if c.bridgeId = accountId then amount else 0) + protocolFee) 0
        (amount + protocolFee + relayerFee) := by
  simp only [mint, Option.bind_eq_bind, Option.bind_eq_some_iff, assertBridge_eq_some,
    exists_and_left, exists_const, Option.some.injEq] at h
  obtain ⟨hbridge, token₁, hmint, token₂, hfee, token₃, hrelayer, rfl⟩ := h
  have hfirst := moves_mintInner laws hmint
  have hsecond := moves_mintFee (c := { c with token := token₁ }) laws hfee
  have hthird := moves_mintFee (c := { c with token := token₂ }) laws hrelayer
  rw [if_pos rfl] at hsecond
  refine ⟨hbridge, rfl, rfl, ?_⟩
  have hall := (hfirst.trans hsecond).trans hthird
  exact hall.weaken (le_refl _) (Nat.le_add_right _ _) (le_refl _) (le_refl _)

theorem burn_moves {relayerAccountId : AccountId} {relayerFee : ℕ}
    (h : c.burn env accountId amount relayerAccountId relayerFee = some receipt) :
    env.predecessor = c.bridgeId ∧ receipt.answer = .value .unit ∧ receipt.postActions = none ∧
      c.Moves receipt.contract (amount + relayerFee) 0 amount 0 := by
  simp only [burn, Option.bind_eq_bind, Option.bind_eq_some_iff, assertBridge_eq_some,
    exists_and_left, exists_const, Option.some.injEq] at h
  obtain ⟨hbridge, token₁, hwithdraw, token₂, hrelayer, rfl⟩ := h
  have hfirst := moves_withdraw laws hwithdraw
  have hsecond := moves_payRelayer (c := { c with token := token₁ }) laws hrelayer
  exact ⟨hbridge, rfl, rfl, hfirst.trans hsecond⟩

/-- The bridge can burn what it has, when it pays no relayer. -/
theorem burn_of_le {relayerAccountId : AccountId} (hbridge : env.predecessor = c.bridgeId)
    (hregistered : c.bridgeId ∈ c.books) (hamount : amount ≤ c.books.balance c.bridgeId) :
    ∃ receipt, c.burn env accountId amount relayerAccountId 0 = some receipt := by
  obtain ⟨token, htoken⟩ := laws.internalWithdraw_of_le hregistered hamount
  have hasserted : c.assertBridge env = some () := assertBridge_eq_some.mpr hbridge
  refine ⟨returning { c with token := token } .unit, ?_⟩
  rw [burn, hasserted, htoken]
  rfl

/-! ### Calls of everybody else -/

theorem moves_unregister {force : Option Bool} {token : ft.State}
    (hne : env.predecessor ≠ c.bridgeId)
    (h : ft.internalStorageUnregister env c.token force = some token) :
    c.Moves { c with token := token } 0 0 0 0 := by
  have herase := laws.internalStorageUnregister h
  obtain ⟨hbalance, hsupply, hkept⟩ := Balances.erase_spec (ft.accounts c.token) env.predecessor
  rw [← herase] at hbalance hsupply hkept
  refine ⟨rfl, hkept c.bridgeId (Ne.symm hne), ?_, ?_⟩
  · unfold books
    rw [hbalance c.bridgeId (Ne.symm hne)]
  · unfold books
    dsimp only
    omega

theorem moves_storageDeposit {only : Option Bool} {account : Option AccountId} {token : ft.State}
    (h : ft.storageDeposit env c.token account only = some token) :
    c.Moves { c with token := token } 0 0 0 0 := by
  rcases laws.storageDeposit h with hsame | hregister
  · refine ⟨rfl, ?_, ?_, ?_⟩
    · unfold books
      rw [hsame]
      exact id
    · unfold books
      rw [hsame]
    · unfold books
      rw [hsame]
  · obtain ⟨hbalance, hsupply, hkept⟩ := Balances.register_spec hregister
    refine ⟨rfl, fun hin ↦ hkept c.bridgeId (Or.inr hin), ?_, ?_⟩
    · unfold books
      rw [hbalance]
    · unfold books
      rw [hsupply]

/-- Nobody but the bridge takes tokens from it, mints or burns what others have. -/
theorem call_moves {method : NbtcMethod} (hne : env.predecessor ≠ c.bridgeId)
    (h : c.call env method = some receipt) :
    receipt.postActions = none ∧
      c.Moves receipt.contract 0 (receipt.answer.demand c.bridgeId) 0 0 := by
  have hne' : c.bridgeId ≠ env.predecessor := Ne.symm hne
  cases method with
  | setController | setWithdrawRelayerAddress =>
    simp only [call, setController, setWithdrawRelayerAddress, Option.bind_eq_bind,
      Option.bind_eq_some_iff, Option.some.injEq] at h
    obtain ⟨_, _, _, _, rfl⟩ := h
    exact ⟨rfl, rfl, id, le_refl _, le_refl _⟩
  | safeMint => exact absurd (safeMint_moves laws h).1 hne
  | mint => exact absurd (mint_moves laws h).1 hne
  | burn burnAccountId burnAmount relayerAccountId relayerFee =>
    have hburn : c.burn env burnAccountId burnAmount relayerAccountId relayerFee = some receipt := h
    exact absurd (burn_moves laws hburn).1 hne
  | ftTransfer receiverId amount memo =>
    simp only [call, Option.bind_eq_bind, Option.bind_eq_some_iff, Option.some.injEq] at h
    obtain ⟨c', htransfer, rfl⟩ := h
    have hmoves := ftTransfer_moves laws htransfer
    rw [if_neg hne'] at hmoves
    exact ⟨rfl, hmoves⟩
  | ftTransferCall receiverId amount memo msg =>
    obtain ⟨hanswer, hnone, hmoves⟩ := ftTransferCall_moves laws h
    rw [if_neg hne'] at hmoves
    rw [hanswer]
    exact ⟨hnone, hmoves⟩
  | storageDeposit accountId only =>
    simp only [call, storing, Option.bind_eq_bind, Option.bind_eq_some_iff,
      Option.some.injEq] at h
    obtain ⟨token, hdeposit, rfl⟩ := h
    exact ⟨rfl, moves_storageDeposit laws hdeposit⟩
  | storageWithdraw amount =>
    simp only [call, storing, Option.bind_eq_bind, Option.bind_eq_some_iff,
      Option.some.injEq] at h
    obtain ⟨token, hwithdraw, rfl⟩ := h
    have hsame := laws.storageWithdraw hwithdraw
    refine ⟨rfl, rfl, ?_, ?_, ?_⟩
    · unfold books returning
      rw [hsame]
      exact id
    · unfold books returning
      rw [hsame]
      exact le_refl _
    · unfold books returning
      rw [hsame]
  | storageUnregister force =>
    simp only [call, storing, Option.bind_eq_bind, Option.bind_eq_some_iff,
      Option.some.injEq] at h
    obtain ⟨token, hunregister, rfl⟩ := h
    exact ⟨rfl, moves_unregister laws hne hunregister⟩

end Methods

end NbtcContract

end SatoshiBridge

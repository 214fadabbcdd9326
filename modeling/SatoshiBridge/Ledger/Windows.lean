import SatoshiBridge.Ledger.RefundEffects

/-!
# What decides how deep a deposit has to be

The ring, the tiers and the two deltas, and with them the account of the token. The parts that
methods and callbacks are made of leave them as they are.
-/

set_option autoImplicit false
set_option relaxedAutoImplicit false

namespace SatoshiBridge

/-- The ring and the part of the configuration that says how deep it has to reach, with the account
of the token. -/
structure Window where
  ring : BlockAmountRing
  strategy : FiniteMap String ℕ
  delta : ℕ
  extraMsgDelta : ℕ
  token : AccountId

/-- The window of a contract. -/
def Contract.window (c : Contract) : Window where
  ring := c.blockBridgeAmounts
  strategy := c.config.confirmationsStrategy
  delta := c.config.confirmationsDelta
  extraMsgDelta := c.config.extraMsgConfirmationsDelta
  token := c.config.nbtcAccountId

/-- The capacity the ring of a window should have. -/
def Window.capacityFor (w : Window) : ℕ :=
  (w.strategy.entries.map Sigma.snd).foldr max 0 + w.delta + w.extraMsgDelta
    + blockAmountRingCapacitySlack

variable {host : Host} {env : Env} {c c₁ c₂ c' : Contract}

/-! ### The parts of a method

What a method does one after the other: it writes accounts, stores and removes pending transactions,
and takes coins. -/

theorem window_createAccount (c : Contract) (a : AccountId) :
    (c.internalUnwrapOrCreateAccount a).window = c.window := by
  obtain ⟨_, haccounts, _⟩ := internalUnwrapOrCreateAccount_spec c a
  rw [haccounts]
  rfl

theorem window_mutAccount {a : AccountId} {update : Account → Account}
    (h : c.internalUnwrapMutAccount a update = some c') : c'.window = c.window := by
  obtain ⟨_, _, rfl, _⟩ := internalUnwrapMutAccount_spec h
  rfl

theorem window_insertNewBtcPendingInfo {id : Txid} {info : BTCPendingInfo}
    (h : c.insertNewBtcPendingInfo id info = some c') : c'.window = c.window := by
  obtain ⟨_, rfl⟩ := insertNewBtcPendingInfo_spec h
  rfl

theorem window_removeBtcPendingInfo {id : Txid} {info : BTCPendingInfo}
    (h : c.internalRemoveBtcPendingInfo id = some (c', info)) : c'.window = c.window := by
  obtain ⟨_, rfl⟩ := internalRemoveBtcPendingInfo_spec h
  rfl

theorem window_generateVutxos {psbt psbt' : PsbtWrapper} {vutxos : List UTXO}
    (h : c.generateVutxos host psbt = some (c', psbt', vutxos)) : c'.window = c.window := by
  obtain ⟨_, _, _, rfl, _⟩ := generateVutxos_taken h
  rfl

/-- A new transaction is stored and listed. -/
theorem window_list {a : AccountId} {id : Txid} {info : BTCPendingInfo}
    (h : c.window = c₁.window) (hinsert : c.insertNewBtcPendingInfo id info = some c₂)
    (hsign : c₂.addPendingSignId a id = some c') : c'.window = c₁.window :=
  (window_mutAccount hsign).trans ((window_insertNewBtcPendingInfo hinsert).trans h)

/-- A replacement may reserve protocol fees before it is stored. -/
theorem internalRbf_window {method : RbfMethod} {accountId predecessor : AccountId} {id : Txid}
    {psbt : PsbtWrapper} {info : BTCPendingInfo} {payee : Option String}
    (h : c.internalRbf host env method accountId id psbt predecessor = some (c', info, payee)) :
    c'.window = c.window := by
  obtain ⟨_⟩ := internalRbf_inv h
  rfl

/-! ### Settling and dropping -/

/-- A settled family is gone, its reservation is released. -/
theorem Settles.window {info : BTCPendingInfo} {txId : Txid} {reserved used : OriginalState → ℕ}
    (h : Settles c info txId reserved used c') : c'.window = c.window := by
  obtain ⟨_, _, _, _, _, _, _, _, _, _, _, rfl⟩ := h.settles
  rfl

/-- Dropped transactions are gone, from the lists of their owner too. -/
theorem Discards.window {ids : List Txid} (h : Discards c ids c') : c'.window = c.window := by
  obtain ⟨_, _, _, _, _, _, rfl⟩ := h.takes
  rfl

/-- Registering the change of a transaction leaves the window and what is pending. -/
theorem registerChange_keeps {info : BTCPendingInfo} {txId : Txid}
    {utxos : List (OutPoint × UTXO)} (h : c.registerChange host info txId = some (c', utxos)) :
    c'.window = c.window ∧ c'.btcPendingInfos = c.btcPendingInfos := by
  obtain ⟨_, _, _, _, _, rfl⟩ := registerChange_inv h
  exact ⟨rfl, rfl⟩

end SatoshiBridge

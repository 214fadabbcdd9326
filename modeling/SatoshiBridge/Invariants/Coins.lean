import SatoshiBridge.Invariants.Spending

/-!
# The coins of a pending transaction

Every stored coin is the output its outpoint names, at an address the bridge derives. So is every
coin a pending transaction spends, and its psbt has been given exactly these coins, one for each
input.
-/

set_option autoImplicit false
set_option relaxedAutoImplicit false

namespace SatoshiBridge

variable {host : Host} {Completes : Ledger → OutPoint → Prop} {cause : Cause} {l l' : Ledger}

/-! ### Stored coins -/

/-- Every stored coin is the one its outpoint names. -/
def Ledger.Held (host : Host) (l : Ledger) : Prop :=
  ∀ key utxo, l.utxos.lookup key = some utxo → Holds host l.chain key utxo

theorem Ledger.Held.step (hl : l.Held host) (hgrounded : (cause.before l).Grounded host)
    (hidentified : l.Identified host) (h : Effect host Completes cause l l') : l'.Held host := by
  intro key utxo hutxo
  rw [h.chain]
  cases h.coins with
  | same hutxos =>
    rw [hutxos] at hutxo
    exact hl key utxo hutxo
  | deposited key' utxo' hkey hutxos =>
    rw [hutxos] at hutxo
    by_cases heq : key = key'
    · rw [heq, AList.lookup_insert, Option.some.injEq] at hutxo
      rw [heq, ← hutxo]
      exact (hgrounded.registers hkey).1
    · rw [AList.lookup_insert_ne heq] at hutxo
      exact hl key utxo hutxo
  | taken info payee rest hcreates hutxos =>
    have hrest := (FiniteMap.takeAll_spec hcreates.takes).2.2 key
    rw [hutxos] at hutxo
    rw [hutxo] at hrest
    split at hrest
    · cases hrest
    · exact hl key utxo hrest.symm
  | settled txId info o tx hcommits hutxos =>
    rw [hutxos] at hutxo
    rcases FiniteMap.lookup_insertAll_some hutxo with hchange | ⟨_, hold⟩
    · exact (Ledger.mem_change (hidentified txId info hcommits.pending) hcommits.tx hchange).2.1
    · exact hl key utxo hold

theorem Ledger.Reached.held (hreads : host.ReadsMessages) (h : Ledger.Reached host Completes l) :
    l.Held host := by
  have hinit : ∀ l : Ledger, l.Initial → l.Held host := by
    intro l h₀ key utxo hutxo
    rw [h₀.utxos] at hutxo
    cases hutxo
  refine Ledger.Reached.induct hinit (fun cause l l' hreached hl heffect ↦ ?_) l h
  exact Ledger.Held.step (l := l) hl (hreached.grounded_of hreads) hreached.identified heffect

/-! ### Spent coins -/

/-- A transaction spends distinct coins, those its psbt was given, one for each input and
signature. -/
structure BTCPendingInfo.Funded (host : Host) (chain : Chain) (info : BTCPendingInfo) : Prop where
  nonempty : info.inputs ≠ []
  distinct : info.inputs.Nodup
  spends : List.Forall₂ (Holds host chain) info.inputs info.vutxos
  coins : info.psbt.inputsUtxo = coinsOf host chain info.vutxos
  signatures : info.signatures.length = info.inputs.length

theorem BTCPendingInfo.Funded.carries {chain : Chain} {old info : BTCPendingInfo}
    (h : old.Funded host chain) (hcarries : Carries host old info) : info.Funded host chain where
  nonempty := by
    rw [hcarries.inputs]
    exact h.nonempty
  distinct := by
    rw [hcarries.inputs]
    exact h.distinct
  spends := by
    rw [hcarries.inputs, hcarries.vutxos]
    exact h.spends
  coins := by
    rw [hcarries.coins, hcarries.vutxos]
    exact h.coins
  signatures := by
    rw [hcarries.count, hcarries.inputs]
    exact h.signatures

/-- The coins taken out for an original are those its outpoints name. -/
theorem CreatesOriginal.funded {info : BTCPendingInfo} {payee : Option String}
    {rest : FiniteMap OutPoint UTXO} (h : CreatesOriginal host l info payee rest)
    (hheld : l.Held host) : info.Funded host l.chain where
  nonempty := h.nonempty
  distinct := (FiniteMap.takeAll_spec h.takes).1
  spends := by
    have hlookups := (FiniteMap.takeAll_spec h.takes).2.1
    rw [List.forall₂_iff_get]
    have hlength : info.inputs.length = info.vutxos.length := by
      have hlengths := congrArg List.length hlookups
      rwa [List.length_map, List.length_map] at hlengths
    refine ⟨hlength, fun i hi hi' ↦ ?_⟩
    refine hheld _ _ ?_
    have hat := congrArg (fun xs ↦ xs[i]?) hlookups
    simp only [List.getElem?_map, List.getElem?_eq_getElem hi, List.getElem?_eq_getElem hi',
      Option.map_some, Option.some.injEq] at hat
    exact hat
  coins := h.coins
  signatures := h.signatureCount

theorem Replaces.funded {id : Txid} {o o' info : BTCPendingInfo} {payee : Option String}
    {extra : ℕ} (h : Replaces host l id o o' info payee extra) (ho : o.Funded host l.chain) :
    info.Funded host l.chain where
  nonempty := by
    rw [h.inputs]
    exact ho.nonempty
  distinct := by
    rw [h.inputs]
    exact ho.distinct
  spends := by
    rw [h.inputs, h.vutxos]
    exact ho.spends
  coins := by
    rw [h.coins, h.vutxos]
    exact ho.coins
  signatures := by
    rw [h.signatureCount, h.inputs]
    exact ho.signatures

theorem CreatesRefund.funded {call : ExecuteRefundCall} {request : RefundRequest}
    {info : BTCPendingInfo} {nowSec : ℕ} (h : CreatesRefund host l call request info nowSec)
    (hrequest : RequestFor host l.chain call.utxoStorageKey request) :
    info.Funded host l.chain := by
  have hrefunds := h.refunds hrequest
  obtain ⟨msg, hmsg, hvutxos⟩ := hrefunds.vutxos
  obtain ⟨msg', hmsg', hpays, _⟩ := hrequest.pays
  rw [hmsg, Option.some.injEq] at hmsg'
  subst hmsg'
  refine ⟨?_, ?_, ?_, hrefunds.coins, ?_⟩
  · rw [hrefunds.inputs]
    exact List.cons_ne_nil _ _
  · rw [hrefunds.inputs]
    exact List.nodup_singleton _
  · rw [hrefunds.inputs, hvutxos]
    exact .cons ⟨rfl, rfl, hpays⟩ .nil
  · rw [hrefunds.signatureCount, hrefunds.inputs]
    rfl

/-- Every pending transaction spends the coins its psbt was given. -/
def Ledger.Funded (host : Host) (l : Ledger) : Prop :=
  ∀ id info, l.pendings.lookup id = some info → info.Funded host l.chain

theorem Ledger.Funded.step (hl : l.Funded host) (hheld : l.Held host)
    (hgrounded : (cause.before l).Grounded host) (h : Effect host Completes cause l l') :
    l'.Funded host := by
  intro id info hinfo
  rw [h.chain]
  cases h.enters hinfo with
  | carried old hold hcarries => exact (hl id old hold).carries hcarries
  | created payee rest hid hcreates => exact hcreates.funded hheld
  | replaced root o o' payee extra hid hreplaces =>
    exact hreplaces.funded (hl root o hreplaces.original)
  | refunded call request nowSec hid hcreates =>
    exact hcreates.funded (hgrounded.requests _ _ hcreates.stored)

theorem Ledger.Reached.funded (hreads : host.ReadsMessages)
    (h : Ledger.Reached host Completes l) : l.Funded host := by
  have hinit : ∀ l : Ledger, l.Initial → l.Funded host := by
    intro l h₀ id info hinfo
    rw [h₀.pendings] at hinfo
    cases hinfo
  refine Ledger.Reached.induct hinit (fun cause l l' hreached hl heffect ↦ ?_) l h
  have hheld := hreached.held hreads
  exact Ledger.Funded.step (l := l) hl hheld (hreached.grounded_of hreads) heffect

end SatoshiBridge

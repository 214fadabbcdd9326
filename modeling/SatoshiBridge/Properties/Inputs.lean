import SatoshiBridge.Invariants.Coins
import SatoshiBridge.Model.SampleRun

/-!
# Who spends which coin

A pending transaction spends distinct coins under the paths they are stored with. Two pending
transactions share a coin only within a family, or as candidates for the refund of one deposit, and
a stored coin is spent by none.
-/

set_option autoImplicit false
set_option relaxedAutoImplicit false

namespace SatoshiBridge

variable {host : Host} {Completes : Ledger → OutPoint → Prop} {cause : Cause} {l l' : Ledger}

/-! ### Families spend the coins of their originals -/

/-- An outpoint names one coin. -/
theorem Holds.unique (laws : host.Lawful) {chain : Chain} {key : OutPoint} {utxo utxo' : UTXO}
    (h : Holds host chain key utxo) (h' : Holds host chain key utxo') : utxo = utxo' := by
  have houtput := h.pays.unique laws h'.pays
  have hbalance := congrArg TxOut.value houtput
  have hpath := laws.chainScript_injective chain _ (congrArg TxOut.scriptPubkey houtput)
  obtain ⟨path, txBytes, vout, balance⟩ := utxo
  obtain ⟨path', txBytes', vout', balance'⟩ := utxo'
  rw [UTXO.mk.injEq]
  exact ⟨hpath, h.txBytes.trans h'.txBytes.symm, h.vout.trans h'.vout.symm, hbalance⟩

/-- The inputs of a transaction determine its coins. -/
theorem BTCPendingInfo.Funded.vutxos_eq (laws : host.Lawful) {chain : Chain}
    {info info' : BTCPendingInfo} (h : info.Funded host chain) (h' : info'.Funded host chain)
    (hinputs : info.inputs = info'.inputs) : info.vutxos = info'.vutxos := by
  have hunique : Relator.RightUnique (List.Forall₂ (Holds host chain)) :=
    Relator.RightUnique.forall₂ fun _ _ _ hleft hright ↦ hleft.unique laws hright
  refine hunique h.spends ?_
  rw [hinputs]
  exact h'.spends

/-- The original of a transaction that spends these coins is in the history. -/
def Ledger.Stems (host : Host) (l : Ledger) (root : Txid) (info : BTCPendingInfo) : Prop :=
  ∃ original payee, Mark.created original payee ∈ l.log ∧ original.btcPendingId = root ∧
    host.computeTxid (original.psbt.transaction host) = root ∧
    original.inputs = info.inputs ∧ original.vutxos = info.vutxos

/-- Every pending transaction spends the coins its original was created with. -/
def Ledger.Stemming (host : Host) (l : Ledger) : Prop :=
  ∀ id info, l.pendings.lookup id = some info → l.Stems host (info.root id) info

theorem Effect.stems (h : Effect host Completes cause l l') {root : Txid}
    {old info : BTCPendingInfo}
    (hstems : l.Stems host root old) (hinputs : info.inputs = old.inputs)
    (hvutxos : info.vutxos = old.vutxos) : l'.Stems host root info := by
  obtain ⟨original, payee, hm, hid, htxid, hsame, hcoins⟩ := hstems
  exact ⟨original, payee, h.mem_log hm, hid, htxid, hsame.trans hinputs.symm,
    hcoins.trans hvutxos.symm⟩

/-- A transaction that stands for itself. -/
theorem Unsigned.stems {id : Txid} {info : BTCPendingInfo} {payee : Option String}
    (h : Unsigned host info) (hid : id = info.btcPendingId) (hm : Mark.created info payee ∈ l.log)
    (horiginal : info.state.originalTxId = none) : l.Stems host (info.root id) info := by
  rw [BTCPendingInfo.root_of_original horiginal, hid]
  exact ⟨info, payee, hm, rfl, h.named.symm, rfl, rfl⟩

theorem Ledger.Stemming.step (hl : l.Stemming host) (h : Effect host Completes cause l l') :
    l'.Stemming host := by
  intro id info hinfo
  cases h.enters hinfo with
  | carried old hold hcarries =>
    rw [hcarries.root]
    exact h.stems (hl id old hold) hcarries.inputs hcarries.vutxos
  | created payee rest hid hcreates hlog =>
    have hm : Mark.created info payee ∈ l'.log := by
      rw [hlog]
      simp
    have horiginal : info.state.originalTxId = none := by
      rcases hcreates.kind with hstate | hstate <;> rw [hstate] <;> rfl
    exact hcreates.toUnsigned.stems hid hm horiginal
  | replaced root o o' payee extra hid hreplaces =>
    have hstems := hl root o hreplaces.original
    rw [BTCPendingInfo.root_of_original hreplaces.states.1] at hstems
    rw [BTCPendingInfo.root_of_child hreplaces.states.2.2.1]
    exact h.stems hstems hreplaces.inputs hreplaces.vutxos
  | refunded call request nowSec hid hcreates hlog =>
    have hm : Mark.created info (some request.refundAddress) ∈ l'.log := by
      rw [hlog]
      simp
    have horiginal : info.state.originalTxId = none := by
      rw [hcreates.kind]
      rfl
    exact hcreates.toUnsigned.stems hid hm horiginal

theorem Ledger.Reached.stemming (h : Ledger.Reached host Completes l) : l.Stemming host := by
  have hinit : ∀ l : Ledger, l.Initial → l.Stemming host := by
    intro l h₀ id info hinfo
    rw [h₀.pendings] at hinfo
    cases hinfo
  refine Ledger.Reached.induct hinit (fun cause l l' _ hl heffect ↦ ?_) l h
  exact Ledger.Stemming.step (l := l) hl heffect

/-- A pending transaction with the id of an original has its inputs. -/
theorem Identifies.inputs_of_stems (laws : host.Lawful) {root : Txid} {o info : BTCPendingInfo}
    (h : Identifies host root o) (hstems : l.Stems host root info) : info.inputs = o.inputs := by
  obtain ⟨original, _, _, _, htxid, hsame, _⟩ := hstems
  rw [← hsame, ← h.inputs laws htxid]
  exact (PsbtWrapper.transaction_input_keys host original.psbt).symm

/-! ### Shared coins -/

/-- What the coin of an input says about its transaction. -/
theorem Ledger.Reached.input (laws : host.Lawful)
    (h : Ledger.Reached host Ledger.Unfinished l) {id : Txid} {info : BTCPendingInfo}
    (hinfo : l.pendings.lookup id = some info) {key : OutPoint} (hkey : key ∈ info.inputs) :
    (info.state.isRefund = false ∧ (key, info.root id) ∈ spentBy l.log) ∨
      (info.state.isRefund = true ∧ info.inputs = [key] ∧ l.Refunded key) := by
  cases hrefund : info.state.isRefund with
  | false =>
    obtain ⟨_, htaken, _⟩ := (h.spending laws).pending id info hinfo hrefund
    exact Or.inl ⟨rfl, (h.identified id info hinfo).spent htaken key hkey⟩
  | true =>
    obtain ⟨key', hinputs, hrefunded⟩ := (h.traced laws).pending id info hinfo hrefund
    rw [hinputs, List.mem_singleton] at hkey
    rw [hkey]
    exact Or.inr ⟨rfl, hinputs, hrefunded⟩

/-- No coin is both spent and refunded. -/
theorem Ledger.Reached.not_refunded (laws : host.Lawful)
    (h : Ledger.Reached host Ledger.Unfinished l) {key : OutPoint} {id : Txid}
    (hspent : (key, id) ∈ spentBy l.log) : ¬l.Refunded key := fun hrefunded ↦
  (((h.lives laws).life key).refunded hrefunded).2 ((h.spending laws).spent key id hspent)

namespace Sys

/-- The coins the pending transactions of a state spend. -/
structure InputsInOrder (host : Host) (s : Sys) : Prop where
  funded : ∀ id info, s.contract.btcPendingInfos.lookup id = some info →
    info.Funded host s.contract.config.chain
  family : ∀ id info root, s.contract.btcPendingInfos.lookup id = some info →
    info.getOriginalTxId = some root →
      (∃ original payee, Mark.created original payee ∈ s.log ∧ original.btcPendingId = root ∧
        original.inputs = info.inputs ∧ original.vutxos = info.vutxos) ∧
      ∀ o, s.contract.btcPendingInfos.lookup root = some o →
        info.inputs = o.inputs ∧ info.vutxos = o.vutxos
  shared : ∀ id id' info info' key, s.contract.btcPendingInfos.lookup id = some info →
    s.contract.btcPendingInfos.lookup id' = some info' → key ∈ info.inputs →
      key ∈ info'.inputs →
        (info.state.isRefund = false ∧ info'.state.isRefund = false ∧
          info.root id = info'.root id') ∨
        (info.state.isRefund = true ∧ info'.state.isRefund = true ∧ info.inputs = [key] ∧
          info'.inputs = [key])
  stored : ∀ id info key, s.contract.btcPendingInfos.lookup id = some info →
    key ∈ info.inputs → key ∉ s.contract.utxos

theorem Reachable.inputs_in_order (laws : host.Lawful) {s : Sys} (h : Reachable host never s) :
    s.InputsInOrder host := by
  have hreached := h.ofNever.ofUnfinished laws.toReadsAddresses
  have hspending := hreached.spending laws
  have hfunded := hreached.funded laws.depositMsg_roundTrip
  refine ⟨hfunded, fun id info root hinfo hroot ↦ ?_,
    fun id id' info info' key hinfo hinfo' hkey hkey' ↦ ?_, fun id info key hinfo hkey hstored ↦ ?_⟩
  · have hstems := hreached.stemming id info hinfo
    rw [BTCPendingInfo.root_of_child hroot] at hstems
    refine ⟨?_, fun o ho ↦ ?_⟩
    · obtain ⟨original, payee, hm, hid, _, hinputs, hvutxos⟩ := hstems
      exact ⟨original, payee, hm, hid, hinputs, hvutxos⟩
    · have hinputs := (hreached.identified root o ho).inputs_of_stems laws hstems
      exact ⟨hinputs, (hfunded id info hinfo).vutxos_eq laws (hfunded root o ho) hinputs⟩
  · rcases hreached.input laws hinfo hkey with ⟨hnot, hspent⟩ | ⟨hrefund, hinputs, hrefunded⟩
    · rcases hreached.input laws hinfo' hkey' with ⟨hnot', hspent'⟩ | ⟨_, _, hrefunded'⟩
      · exact Or.inl ⟨hnot, hnot', hspending.once key _ _ hspent hspent'⟩
      · exact absurd hrefunded' (hreached.not_refunded laws hspent)
    · rcases hreached.input laws hinfo' hkey' with ⟨_, hspent'⟩ | ⟨hrefund', hinputs', _⟩
      · exact absurd hrefunded (hreached.not_refunded laws hspent')
      · exact Or.inr ⟨hrefund, hrefund', hinputs, hinputs'⟩
  · rcases hreached.input laws hinfo hkey with ⟨_, hspent⟩ | ⟨_, _, hrefunded⟩
    · exact hspending.unspent key hstored _ hspent
    · exact (((hreached.lives laws).life key).refunded hrefunded).2 (hspending.stored key hstored)

end Sys

/-- The withdrawal of Alice and its cancellation spend the same coin, which is stored no more. -/
theorem inputs_in_order_cancellation :
    ∃ s, Sample.after Sample.cancelledWithdrawal = some s ∧
      (∃ info info', s.contract.btcPendingInfos.lookup 2 = some info ∧
        s.contract.btcPendingInfos.lookup 4 = some info' ∧ info.inputs = [⟨0, 0⟩] ∧
        info'.inputs = info.inputs ∧ info'.vutxos = info.vutxos) ∧
      s.InputsInOrder (Sample.host false) := by
  have hrun : ((Sample.after Sample.cancelledWithdrawal).bind fun s ↦
      (s.contract.btcPendingInfos.lookup 2).bind fun info ↦
        (s.contract.btcPendingInfos.lookup 4).map fun info' ↦
          (info.inputs, info'.getOriginalTxId)) = some ([⟨0, 0⟩], some 2) := by
    decide +kernel
  obtain ⟨s, hs, hsome⟩ := Option.bind_eq_some_iff.mp hrun
  obtain ⟨info, hinfo, hsome⟩ := Option.bind_eq_some_iff.mp hsome
  obtain ⟨info', hinfo', hfacts⟩ := Option.map_eq_some_iff.mp hsome
  rw [Prod.mk.injEq] at hfacts
  have hreach : Sys.Reachable (Sample.host false) Sys.never s := Sample.reaches (by decide) hs
  have horder := hreach.inputs_in_order (Sample.host_lawful false)
  obtain ⟨hinputs, hvutxos⟩ := (horder.family 4 info' 2 hinfo' hfacts.2).2 info hinfo
  exact ⟨s, hs, ⟨info, info', hinfo, hinfo', hfacts.1, hinputs, hvutxos⟩, horder⟩

end SatoshiBridge

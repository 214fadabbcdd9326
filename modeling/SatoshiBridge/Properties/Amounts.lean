import SatoshiBridge.Properties.Recipients

/-!
# The amounts of the pending transactions

The coins of a pending transaction cover its outputs and its gas, and what it burns and pays is what
its kind asks for.
-/

set_option autoImplicit false
set_option relaxedAutoImplicit false

namespace SatoshiBridge

variable {host : Host} {s : Sys}

/-- What a pending transaction of each kind burns and pays; the payee is the address named for its
original, or for itself. -/
def Sys.PaysByKind (host : Host) (s : Sys) (info : BTCPendingInfo) (payee : Option String) : Prop :=
  match info.state with
  | .withdrawOriginal _ | .withdrawUserRbf _ =>
    info.withdrawFee ≤ info.transferAmount ∧
    info.burnAmount = info.transferAmount - info.withdrawFee ∧
    info.burnAmount = info.actualReceivedAmount + info.gasFee ∧
    ∃ target address, payee = some target ∧
      host.parseAddress s.contract.config.chain target = some address ∧
      Pays (IsChangeBeside host s.contract.config.chain address) address
        info.actualReceivedAmount info.psbt
  | .withdrawCancelRbf _ | .activeUtxoManagementOriginal _ | .activeUtxoManagementRbf _
  | .activeUtxoManagementCancelRbf _ =>
    info.burnAmount = info.gasFee ∧ PaysChange host s.contract.config.chain info.psbt
  | .refund _ =>
    info.burnAmount = 0 ∧ info.gasFee ≤ inputAmount info.vutxos ∧
    ∃ target address, payee = some target ∧
      host.parseAddress s.contract.config.chain target = some address ∧
      Pays (fun _ ↦ False) address (inputAmount info.vutxos - info.gasFee) info.psbt

/-- The payments checked at creation, kind by kind. -/
theorem Payment.byKind {info : BTCPendingInfo} {payee : Option String}
    (h : Payment host s.contract.config.chain payee info) : s.PaysByKind host info payee := by
  obtain ⟨_, hkind⟩ := h
  unfold Sys.PaysByKind
  cases hstate : info.state with
  | withdrawOriginal | withdrawUserRbf =>
    rw [hstate] at hkind
    obtain ⟨hfee, hburn, target, htarget, address, haddress, hpays⟩ := hkind
    exact ⟨by omega, by omega, hburn, target, address, htarget, haddress, hpays⟩
  | withdrawCancelRbf | activeUtxoManagementOriginal | activeUtxoManagementRbf
  | activeUtxoManagementCancelRbf =>
    rw [hstate] at hkind
    exact hkind
  | refund =>
    rw [hstate] at hkind
    obtain ⟨hburn, hamount, target, htarget, address, haddress, hpays⟩ := hkind
    have hvalue : inputAmount info.vutxos - info.gasFee = info.actualReceivedAmount := by omega
    rw [← hvalue] at hpays
    exact ⟨hburn, by omega, target, address, htarget, haddress, hpays⟩

/-- The amounts of every pending transaction add up, and it pays what its kind asks for. -/
theorem Sys.Reachable.amounts_add_up {codecs : AddressCodecs} (laws : codecs.Lawful)
    (hnetwork : codecs.Describes host) {guard : Sys.Guard} (h : Sys.Reachable host guard s)
    {id : Txid} {info : BTCPendingInfo}
    (hinfo : s.contract.btcPendingInfos.lookup id = some info) :
    inputAmount info.vutxos
        = outputAmount info.psbt.vout + info.psbt.orchardAmount + info.gasFee ∧
      ∃ payee, (∃ o, Mark.created o payee ∈ s.log ∧ o.btcPendingId = info.root id) ∧
        s.PaysByKind host info payee := by
  have hreads := hnetwork.readsAddresses laws
  obtain ⟨payee, ⟨hnamed, hpayment⟩, _⟩ := (h.anytime hreads).paying hreads id info hinfo
  obtain ⟨o, hcreated, hid, _⟩ := hnamed
  exact ⟨hpayment.1, payee, ⟨o, hcreated, hid⟩, hpayment.byKind⟩

/-- The withdrawal that Alice has replaced. -/
theorem amounts_add_up_alice :
    ∃ s info, Sample.afterIn Sample.networkHost Sample.replacedWithdrawal = some s ∧
      s.contract.btcPendingInfos.lookup 2 = some info ∧
      inputAmount info.vutxos
        = outputAmount info.psbt.vout + info.psbt.orchardAmount + info.gasFee := by
  have hrun : ((Sample.afterIn Sample.networkHost Sample.replacedWithdrawal).bind fun s ↦
      s.contract.btcPendingInfos.lookup 2).isSome := by decide +kernel
  obtain ⟨info, hsome⟩ := Option.isSome_iff_exists.mp hrun
  obtain ⟨s, hs, hinfo⟩ := Option.bind_eq_some_iff.mp hsome
  have hreach : Sys.Reachable Sample.networkHost Sys.always s := Sample.reachesIn (by decide) hs
  exact ⟨s, info, hs, hinfo,
    (hreach.amounts_add_up Sample.codecs_lawful Sample.codecs_describe hinfo).1⟩

end SatoshiBridge

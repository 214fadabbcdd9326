import SatoshiBridge.Properties.Commissions

/-!
# What the bridge has signed

The key of the bridge signs inputs of transactions that the bridge has created, and nothing else:
what a signature is asked for is the sighash of an input of a commissioned transaction, and the key
is derived with the path of the coin this input spends.
-/

set_option autoImplicit false
set_option relaxedAutoImplicit false

namespace SatoshiBridge

/-- The sighashes of a transaction stay as they were when it was created. -/
theorem Carries.getHashToSign {host : Host} {old info : BTCPendingInfo} (h : Carries host old info)
    (signIndex : ℕ) :
    info.psbt.getHashToSign host signIndex = old.psbt.getHashToSign host signIndex := by
  have hvin : info.psbt.vin.length = old.psbt.vin.length := by
    have hinput := congrArg (fun tx ↦ tx.input.length) h.transaction
    simpa [PsbtWrapper.transaction] using hinput
  have hempty : info.psbt.vin ≠ [] ↔ old.psbt.vin ≠ [] := by
    rw [← List.length_pos_iff, ← List.length_pos_iff, hvin]
  unfold PsbtWrapper.getHashToSign PsbtWrapper.coins
  rw [h.transaction, h.coins, h.vout, hvin]
  simp only [hempty]

namespace Sys

open Transition (Once)

variable {host : Host} {guard : Guard} {s : Sys} {steps : Steps}

/-- The transaction whose input is to be signed: what is signed is its sighash, with the key of the
coin it spends. -/
structure SignsInput (host : Host) (accountId : AccountId) (id : Txid) (signIndex : ℕ)
    (payload : List UInt8) (path : Path) (info : BTCPendingInfo) : Prop where
  owner : info.accountId = accountId
  txid : host.computeTxid (info.psbt.transaction host) = id
  sighash : info.psbt.getHashToSign host signIndex = some payload
  coin : ∃ vutxo, info.vutxos[signIndex]? = some vutxo ∧ vutxo.path = path

/-- What is asked to be signed is an input of a transaction that is pending. -/
theorem signsInput_of_asks (laws : host.ReadsAddresses) {accountId : AccountId} {id : Txid}
    {signIndex keyVersion : ℕ} {payload : List UInt8} {path : Path} {c : Contract} {env : Env}
    {method : Method} (hs : Reachable host guard s) (hc : s.contract = c)
    (hrequests : c.Requests host env method
      (.sign accountId id signIndex payload path keyVersion)) :
    ∃ info payee, Mark.created info payee ∈ s.log ∧
      SignsInput host accountId id signIndex payload path info := by
  obtain ⟨info, vutxo, _, hinfo, howner, _, hpayload, hcoin, hpath, _⟩ := hrequests
  rw [← hc] at hinfo
  have hreached := Reachable.anytime laws hs
  obtain ⟨first, payee, hcreated, hcarries⟩ := hreached.descended id info hinfo
  refine ⟨first, payee, hcreated, ?_, ?_, ?_, vutxo, ?_, hpath.symm⟩
  · exact hcarries.accountId.symm.trans howner.symm
  · rw [← hcarries.transaction]
    exact (hreached.identified id info hinfo).txid
  · exact (hcarries.getHashToSign signIndex).symm.trans hpayload
  · rw [← hcarries.vutxos]
    exact hcoin

/-- Every signature the bridge waits for is asked for an input of a transaction it has created for a
call of the account that may ask for it, and a trusted relayer asked for the signature unless the
transaction is a refund. -/
theorem History.signs (laws : host.ReadsAddresses) (h : History host guard steps s)
    {accountId : AccountId} {id : Txid} {signIndex keyVersion : ℕ} {payload : List UInt8}
    {path : Path} (hsign : .sign accountId id signIndex payload path keyVersion ∈ s.inflight) :
    ∃ info payee, Mark.created info payee ∈ s.log ∧
      SignsInput host accountId id signIndex payload path info ∧
      Commissioned host steps info payee ∧
      CallAccepted steps (.signBtcTransaction id signIndex keyVersion) fun c env ↦
        env.trustedRelayer = true ∨
          ∃ o, c.btcPendingInfos.lookup id = some o ∧ o.state.isRefund = true := by
  have hasked := History.asked rfl steps s h hsign
  obtain ⟨⟨before, a, after⟩, hmem, env, method, ha, hrequests⟩ := hasked
  obtain ⟨earlier, hearlier, _⟩ := h.taken hmem
  obtain ⟨info, payee, hcreated, hsigns⟩ :=
    signsInput_of_asks laws hearlier.reachable rfl hrequests
  have hlater : Mark.created info payee ∈ s.log := Runs.mem_log (h.runs hmem) hcreated
  refine ⟨info, payee, hlater, hsigns, h.commissioned hlater, ?_⟩
  obtain ⟨o, _, hmethod, ho, _, _, _, _, _, _, hcaller, hunpaused⟩ := hrequests
  refine ⟨⟨before, a, after⟩, hmem, env, method, ha, hmethod, hunpaused, ?_⟩
  rcases hcaller with hrefund | hrelayer
  · exact Or.inr ⟨o, ho, hrefund⟩
  · exact Or.inl hrelayer

/-- What a promise asks to be signed: the owner, the transaction, the input and the version of the
key. -/
def signRequest : Promise → Option (AccountId × Txid × ℕ × ℕ)
  | .sign accountId id signIndex _ _ keyVersion => some (accountId, id, signIndex, keyVersion)
  | _ => none

/-- The signature of the withdrawal of Alice. -/
theorem signs_withdrawal :
    ∃ s steps payload path, Sample.after Sample.signedWithdrawal.dropLast = some s ∧
      History (Sample.host false) always steps s ∧
      .sign "alice" 2 0 payload path 0 ∈ s.inflight ∧ ∃ info payee,
        Mark.created info payee ∈ s.log ∧
        SignsInput (Sample.host false) "alice" 2 0 payload path info ∧
        Commissioned (Sample.host false) steps info payee ∧
        CallAccepted steps (.signBtcTransaction 2 0 0) fun c env ↦
          env.trustedRelayer = true ∨
            ∃ o, c.btcPendingInfos.lookup 2 = some o ∧ o.state.isRefund = true := by
  have hrun : (Sample.after Sample.signedWithdrawal.dropLast).map (fun s ↦
      s.inflight.map signRequest) = some [some ("alice", 2, 0, 0)] := by decide +kernel
  obtain ⟨s, hs, hfacts⟩ := Option.map_eq_some_iff.mp hrun
  have hmem : some ("alice", 2, 0, 0) ∈ s.inflight.map signRequest := by
    rw [hfacts]
    exact List.mem_singleton_self _
  obtain ⟨p, hp, hrequest⟩ := List.mem_map.mp hmem
  cases p with
  | sign accountId id signIndex payload path keyVersion =>
    cases hrequest
    have hreach : Reachable (Sample.host false) always s := Sample.reaches (by decide) hs
    obtain ⟨steps, hsteps⟩ := Transition.Reachable.history s hreach
    exact ⟨s, steps, payload, path, hs, hsteps, hp,
      History.signs (Sample.host_lawful false).toReadsAddresses hsteps hp⟩
  | _ => cases hrequest

end Sys

end SatoshiBridge

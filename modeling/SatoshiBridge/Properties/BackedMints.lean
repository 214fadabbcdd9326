import SatoshiBridge.Origins.Executions
import SatoshiBridge.Origins.Mints
import SatoshiBridge.Properties.Solvency
import SatoshiBridge.Treasury.Executions

/-!
# What tokens are minted for

The supply of the token rises only when it executes a mint of the bridge, by no more than the value
of the output that the mint pays out, and every such output was confirmed to pay the deposit address
of a message. No call of anybody else mints tokens.
-/

set_option autoImplicit false
set_option relaxedAutoImplicit false

namespace SatoshiBridge.World

variable {σ : Setting} {w w' : World σ} {steps : Steps σ} {guard : Sys.Guard}

/-! ### The supply -/

/-- The token takes a step in which it issues so much at most. -/
def Issues (w w' : World σ) (minted : ℕ) : Prop :=
  ∃ lost gained burnt, w.nbtc.Moves w'.nbtc lost gained burnt minted

theorem Issues.supply (standard : σ.ft.Standard) {minted : ℕ} (h : w.Issues w' minted) :
    w'.totalSupply ≤ w.totalSupply + minted := by
  obtain ⟨_, _, _, hmoves⟩ := h
  have hsupply := hmoves.supply
  rw [totalSupply_eq standard, totalSupply_eq standard]
  omega

theorem Issues.registered {minted : ℕ} (h : w.Issues w' minted)
    (hin : w.nbtc.bridgeId ∈ w.nbtc.books) : w'.nbtc.bridgeId ∈ w'.nbtc.books := by
  obtain ⟨_, _, _, hmoves⟩ := h
  rw [hmoves.bridgeId]
  exact hmoves.registered hin

/-- The execution of a promise mints nothing, or the value that a mint pays out. -/
theorem executes_issues (standard : σ.ft.Standard) {p : Promise} {call : NbtcCall}
    {receipt : NbtcReceipt σ.ft} (hcall : p.nbtcCall = some call)
    (hreceipt : w.nbtc.call (nbtcEnv σ call) call.method = some receipt)
    (hnbtc : w'.nbtc = receipt.contract) :
    ∃ minted, w.Issues w' minted ∧ (minted = 0 ∨ ∃ info, p.mintInfo = some info ∧
      ∀ token msg, p.PaysOut σ.host token msg info → minted = info.utxo.balance) := by
  unfold Issues
  rw [hnbtc]
  cases p with
  | mint token recipientId mintAmount protocolFee relayer relayerFee postActions info height =>
    cases hcall
    obtain ⟨_, _, _, hmoves⟩ := NbtcContract.mint_moves standard hreceipt
    refine ⟨_, ⟨_, _, _, hmoves⟩, Or.inr ⟨info, rfl, fun token msg hpays ↦ ?_⟩⟩
    cases hpays with
    | standard _ _ _ _ _ _ _ hamount => omega
  | safeMint token recipientId mintAmount text info height =>
    cases hcall
    obtain ⟨_, _, _, hmoves⟩ := NbtcContract.safeMint_moves standard hreceipt
    refine ⟨mintAmount, ?_, Or.inr ⟨info, rfl, fun token msg hpays ↦ ?_⟩⟩
    · rcases hmoves with ⟨_, hmoves⟩ | ⟨_, hmoves⟩
      · exact ⟨_, _, _, hmoves⟩
      · exact ⟨_, _, _, hmoves⟩
    · cases hpays with
      | safe => rfl
  | burnDetached _ account amount relayer fee | withdrawBurn _ account amount relayer fee =>
    cases hcall
    have hburn : w.nbtc.burn _ account amount relayer fee = some receipt := hreceipt
    exact ⟨0, ⟨_, _, _, (NbtcContract.burn_moves standard hburn).2.2.2⟩, Or.inl rfl⟩
  | activeUtxoManagementBurn _ account amount relayer =>
    cases hcall
    have hburn : w.nbtc.burn _ account amount relayer 0 = some receipt := hreceipt
    exact ⟨0, ⟨_, _, _, (NbtcContract.burn_moves standard hburn).2.2.2⟩, Or.inl rfl⟩
  | transferNbtc | withdrawProtocolFee =>
    cases hcall
    simp only [NbtcContract.call, Option.bind_eq_bind, Option.bind_eq_some_iff,
      Option.some.injEq] at hreceipt
    obtain ⟨nbtc, htransfer, rfl⟩ := hreceipt
    exact ⟨0, ⟨_, _, _, NbtcContract.ftTransfer_moves standard htransfer⟩, Or.inl rfl⟩
  | _ => cases hcall

/-- Only the execution of a mint mints. -/
theorem exec_issues (standard : σ.ft.Standard)
    (hbridge : w.nbtc.bridgeId = σ.host.currentAccountId) {action : WorldAction}
    (he : w.exec action = some w') :
    ∃ minted, w.Issues w' minted ∧ (minted = 0 ∨ ∃ index p info, action = .execute index ∧
      w.inflight[index]? = some (p, .waiting) ∧ p.mintInfo = some info ∧
      ∀ token msg, p.PaysOut σ.host token msg info → minted = info.utxo.balance) := by
  have hoperates := exec_operates he
  generalize hnbtc : w'.nbtc = nbtc at hoperates
  have hnone {lost gained : ℕ} (hmoves : w.nbtc.Moves nbtc lost gained 0 0) :
      w.Issues w' 0 := by
    unfold Issues
    rw [hnbtc]
    exact ⟨_, _, _, hmoves⟩
  cases hoperates with
  | nothing => exact ⟨0, hnone (.refl w.nbtc), Or.inl rfl⟩
  | executes index p call receipt hp hcall hreceipt =>
    obtain ⟨minted, hissues, hwhy⟩ := executes_issues standard hcall hreceipt hnbtc
    refine ⟨minted, hissues, hwhy.imp_right fun hmint ↦ ?_⟩
    obtain ⟨info, hinfo, hpays⟩ := hmint
    exact ⟨index, p, info, rfl, hp, hinfo, hpays⟩
  | calls env method receipt hother hreceipt =>
    rw [← hbridge] at hother
    have hmoves := (NbtcContract.call_moves standard hother hreceipt).2
    exact ⟨0, hnone hmoves, Or.inl rfl⟩
  | resolves index p t result nbtc used hp hresolve =>
    obtain ⟨_, _, hmoves⟩ := NbtcContract.ftResolveTransfer_moves standard hresolve
    exact ⟨0, hnone hmoves, Or.inl rfl⟩
  | returns index prepaidGas senderId receiverId amount result nbtc used hflow hresolve =>
    obtain ⟨_, _, hmoves⟩ := NbtcContract.ftResolveTransfer_moves standard hresolve
    exact ⟨0, hnone hmoves, Or.inl rfl⟩
  | posts index prepaidGas senderId postAction nbtc t hflow hhandle =>
    have hmoves := (NbtcContract.handlePostAction_moves standard hhandle).2
    exact ⟨0, hnone hmoves, Or.inl rfl⟩

/-! ### Backed mints -/

/-- The supply rises only where the token executes a mint of the bridge. It pays out a deposit that
was asked for and confirmed earlier in the run, and the supply rises by no more than the value of
the deposited output. -/
theorem History.backed (laws : σ.host.ReadsAddresses) (standard : σ.ft.Standard)
    (h : History guard steps w) {action : WorldAction} (he : w.exec action = some w')
    (hrise : w.totalSupply < w'.totalSupply) :
    ∃ index m msg info, action = .execute index ∧ w.inflight[index]? = some (m, .waiting) ∧
      m.PaysOut σ.host σ.nbtcId msg info ∧ Deposited steps msg info ∧
      w'.totalSupply ≤ w.totalSupply + info.utxo.balance := by
  obtain ⟨minted, hissues, hwhy⟩ := exec_issues standard (reachable_bridgeId w h.reachable) he
  have hle := hissues.supply standard
  rcases hwhy with hnone | ⟨index, m, info, haction, hm, hinfo, hamount⟩
  · rw [hnone, add_zero] at hle
    exact absurd hrise (Nat.not_lt.mpr hle)
  · have hmem := List.mem_of_getElem? (sys_getElem? hm)
    obtain ⟨msg, hpays, hdeposited⟩ := History.mints laws h m info hmem hinfo
    rw [hamount _ msg hpays] at hle
    exact ⟨index, m, msg, info, haction, hm, hpays, hdeposited, hle⟩

/-- Alice has deposited, and her mint waits for the token. -/
def awaited : List WorldAction :=
  [.call (Sample.env "dao" 0 1) .syncChainSignaturesRootPublicKey,
    .callback 0 (Sample.env Sample.bridge 0 0) (.value (.publicKey "root")),
    .call (Sample.env "relayer" 1 0) (.verifyDepositV2 Sample.aliceMsg (.full [0]) 0 1),
    .callback 0 (Sample.env Sample.bridge 1 0) Sample.included]

/-- Her deposit backs what is minted next. -/
theorem backed_awaited :
    ∃ w w', Sample.worldAfter awaited = some w ∧ w.exec (.execute 0) = some w' ∧
      w.totalSupply = 0 ∧ w'.totalSupply = 1000 ∧
      ∃ steps m msg info, History Sys.always steps w ∧ w.inflight[0]? = some (m, .waiting) ∧
        m.PaysOut Sample.setting.host Sample.setting.nbtcId msg info ∧ Deposited steps msg info ∧
        w'.totalSupply ≤ w.totalSupply + info.utxo.balance := by
  have hrun : (Sample.worldAfter awaited).bind (fun w ↦ (w.exec (.execute 0)).map fun w' ↦
      (w.totalSupply, w'.totalSupply)) = some (0, 1000) := by decide +kernel
  obtain ⟨w, hw, hsome⟩ := Option.bind_eq_some_iff.mp hrun
  obtain ⟨w', hexec, hfacts⟩ := Option.map_eq_some_iff.mp hsome
  rw [Prod.mk.injEq] at hfacts
  obtain ⟨hbefore, hafter⟩ := hfacts
  have hreach : w.Reachable Sys.always := Sample.reachesWorld (by decide) hw
  obtain ⟨steps, hsteps⟩ := Transition.Reachable.history w hreach
  have hrise : w.totalSupply < w'.totalSupply := by
    rw [hbefore, hafter]
    decide
  obtain ⟨index, m, msg, info, haction, hm, hpays, hdeposited, hle⟩ :=
    History.backed (Sample.host_lawful false).toReadsAddresses Sample.standardToken_standard hsteps
      hexec hrise
  cases haction
  exact ⟨w, w', hw, hexec, hbefore, hafter, steps, m, msg, info, hsteps, hm, hpays, hdeposited,
    hle⟩

end SatoshiBridge.World

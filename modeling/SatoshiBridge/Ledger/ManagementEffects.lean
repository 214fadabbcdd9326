import SatoshiBridge.Ledger.Windows

/-!
# The effects of management

The methods of the DAO write roles, lists and the configuration. On the ledger they are one kind of
step, which changes nothing that coins, pending transactions or fees depend on.
-/

set_option autoImplicit false
set_option relaxedAutoImplicit false

namespace SatoshiBridge

variable {host : Host} {Completes : Ledger → OutPoint → Prop} {env : Env} {c c' : Contract}
  {inflight : Multiset Promise} {log : List Mark} {receipt : Receipt}

/-- `c'` differs from `c` in what the DAO manages only; accounts may have been created. -/
structure Configures (c c' : Contract) : Prop where
  chain : c'.config.chain = c.config.chain
  rootPublicKey : c'.config.chainSignaturesRootPublicKey = c.config.chainSignaturesRootPublicKey
  changeAddress : c'.config.changeAddress = c.config.changeAddress
  utxos : c'.utxos = c.utxos
  utxosInProgress : c'.utxosInProgress = c.utxosInProgress
  verifiedDepositUtxo : c'.verifiedDepositUtxo = c.verifiedDepositUtxo
  btcPendingInfos : c'.btcPendingInfos = c.btcPendingInfos
  refundRequests : c'.refundRequests = c.refundRequests
  lostFound : c'.lostFound = c.lostFound
  fees : c'.fees = c.fees
  accounts : {a | a ∈ c.accounts} ⊆ {a | a ∈ c'.accounts}
  reads : ∀ a, c'.account a = c.account a
  rbfTxs : c'.rbfTxs = c.rbfTxs

/-- Writing an account changes what is read of it only. -/
theorem account_insert (c : Contract) (a b : AccountId) (account : Account) :
    (c.internalSetAccount a account).account b = if b = a then account else c.account b := by
  unfold Contract.account Contract.internalSetAccount
  rw [FiniteMap.lookup_insert_eq]
  split
  · rfl
  · rfl

/-- Creating an empty account leaves every account as it reads. -/
theorem account_internalUnwrapOrCreateAccount (c : Contract) (a b : AccountId) :
    (c.internalUnwrapOrCreateAccount a).account b = c.account b := by
  unfold Contract.internalUnwrapOrCreateAccount Contract.checkAccountExists
  split
  · rfl
  · rename_i hnone
    rw [account_insert]
    split
    · rename_i heq
      rw [heq, Contract.account, Option.not_isSome_iff_eq_none.mp hnone]
      rfl
    · rfl

namespace Configures

theorem refl (c : Contract) : Configures c c :=
  ⟨rfl, rfl, rfl, rfl, rfl, rfl, rfl, rfl, rfl, rfl, subset_refl _, fun _ ↦ rfl, rfl⟩

theorem trans {c c' c'' : Contract} (h : Configures c c') (h' : Configures c' c'') :
    Configures c c'' where
  chain := h'.chain.trans h.chain
  rootPublicKey := h'.rootPublicKey.trans h.rootPublicKey
  changeAddress := h'.changeAddress.trans h.changeAddress
  utxos := h'.utxos.trans h.utxos
  utxosInProgress := h'.utxosInProgress.trans h.utxosInProgress
  verifiedDepositUtxo := h'.verifiedDepositUtxo.trans h.verifiedDepositUtxo
  btcPendingInfos := h'.btcPendingInfos.trans h.btcPendingInfos
  refundRequests := h'.refundRequests.trans h.refundRequests
  lostFound := h'.lostFound.trans h.lostFound
  fees := h'.fees.trans h.fees
  accounts := h.accounts.trans h'.accounts
  reads := fun a ↦ (h'.reads a).trans (h.reads a)
  rbfTxs := h'.rbfTxs.trans h.rbfTxs

theorem resize {config : Config}
    (h : { c with config := config }.resizeBlockAmountRing = some c')
    (hchain : config.chain = c.config.chain)
    (hroot : config.chainSignaturesRootPublicKey = c.config.chainSignaturesRootPublicKey)
    (haddress : config.changeAddress = c.config.changeAddress) : Configures c c' := by
  simp only [Contract.resizeBlockAmountRing, Option.bind_eq_bind, Option.bind_eq_some_iff,
    Option.some.injEq] at h
  obtain ⟨ring, _, rfl⟩ := h
  exact ⟨hchain, hroot, haddress, rfl, rfl, rfl, rfl, rfl, rfl, rfl, subset_refl _,
    fun _ ↦ rfl, rfl⟩

/-- Management is one step of the ledger. -/
theorem simulates {method : Method} (h : Configures c c') (hkeyed : c.Keyed host)
    (hbrings : method.brings = none) :
    Simulates host Completes (.call env method) c inflight log c'.done := by
  have hkeyed' : c'.Keyed host := by
    unfold Contract.Keyed
    rw [h.chain, h.rootPublicKey, h.changeAddress]
    exact hkeyed
  refine .silent ((Effect.configure (l := c.ledger inflight log) env method
    c'.config.nbtcAccountId c'.roles c'.config.refundTimelockSec
    c'.config.unsafeRefundTimelockSec {a | a ∈ c'.accounts} hbrings h.accounts).of_eq ?_) hkeyed'
  simp only [Contract.ledger, h.chain, h.changeAddress, h.utxos, h.utxosInProgress,
    h.verifiedDepositUtxo, h.btcPendingInfos, h.refundRequests, h.lostFound, h.fees]

end Configures

/-- `c'` differs from `c` in the roles, the lists and the limits that the DAO manages; the window is
the same. -/
structure Administers (c c' : Contract) : Prop extends Configures c c' where
  window : c'.window = c.window

namespace Administers

theorem refl (c : Contract) : Administers c c := ⟨.refl c, rfl⟩

theorem trans {c c' c'' : Contract} (h : Administers c c') (h' : Administers c' c'') :
    Administers c c'' :=
  ⟨h.toConfigures.trans h'.toConfigures, h'.window.trans h.window⟩

theorem roles (c : Contract) (roles : Finset (Role × AccountId)) :
    Administers c { c with roles := roles } :=
  ⟨⟨rfl, rfl, rfl, rfl, rfl, rfl, rfl, rfl, rfl, rfl, subset_refl _, fun _ ↦ rfl, rfl⟩, rfl⟩

theorem lists (c : Contract) (relayers extraMsgRelayers receivers : Finset AccountId)
    (templates : FiniteMap AccountId (Finset String)) (limits : FiniteMap AccountId ℕ) :
    Administers c { c with
      relayerWhiteList := relayers
      extraMsgRelayerWhiteList := extraMsgRelayers
      postActionReceiverIdWhiteList := receivers
      postActionMsgTemplates := templates
      pendingTxLimits := limits } :=
  ⟨⟨rfl, rfl, rfl, rfl, rfl, rfl, rfl, rfl, rfl, rfl, subset_refl _, fun _ ↦ rfl, rfl⟩, rfl⟩

theorem account (c : Contract) (accountId : AccountId) :
    Administers c (c.internalUnwrapOrCreateAccount accountId) := by
  have haccount := account_internalUnwrapOrCreateAccount c accountId
  obtain ⟨accounts, haccounts, hsub, _⟩ := internalUnwrapOrCreateAccount_spec c accountId
  rw [haccounts] at haccount ⊢
  exact ⟨⟨rfl, rfl, rfl, rfl, rfl, rfl, rfl, rfl, rfl, rfl, hsub, haccount, rfl⟩, rfl⟩

/-- A loop whose every step administers. -/
theorem foldlM {α : Type} {step : Contract → α → Option Contract}
    (hstep : ∀ c a c', step c a = some c' → Administers c c') :
    ∀ {as : List α} {c c' : Contract}, as.foldlM step c = some c' → Administers c c' := by
  intro as
  induction as with
  | nil =>
    intro c c' h
    rw [List.foldlM_nil, Option.pure_def, Option.some.injEq] at h
    exact h ▸ refl c
  | cons a as ih =>
    intro c c' h
    rw [List.foldlM_cons, Option.bind_eq_bind, Option.bind_eq_some_iff] at h
    obtain ⟨mid, hmid, hrest⟩ := h
    exact (hstep c a mid hmid).trans (ih hrest)

theorem grantRole {role : Role} {accountId : AccountId}
    (h : c.grantRole role accountId = some c') : Administers c c' := by
  simp only [Contract.grantRole, Option.bind_eq_bind, Option.bind_eq_some_iff,
    Option.some.injEq] at h
  obtain ⟨_, _, rfl⟩ := h
  exact roles c _

theorem revokeRole {role : Role} {accountId : AccountId}
    (h : c.revokeRole role accountId = some c') : Administers c c' := by
  simp only [Contract.revokeRole, Option.bind_eq_bind, Option.bind_eq_some_iff,
    Option.some.injEq] at h
  obtain ⟨_, _, rfl⟩ := h
  exact roles c _

end Administers

/-! ### The methods -/

/-- The receipts of management, by what may differ afterwards. -/
def Manages (differs : Contract → Contract → Prop) (c : Contract) (receipt : Receipt) : Prop :=
  ∃ c', receipt = c'.done ∧ differs c c'

theorem addSuperAdmin_manages {accountId : AccountId}
    (h : c.addSuperAdmin env accountId = some receipt) : Manages Administers c receipt := by
  simp only [Contract.addSuperAdmin, Option.bind_eq_bind, Option.bind_eq_some_iff,
    Option.some.injEq] at h
  obtain ⟨_, _, c₁, h₁, c₂, h₂, c₃, h₃, rfl⟩ := h
  exact ⟨_, rfl, (((Administers.grantRole h₁).trans (.grantRole h₂)).trans (.grantRole h₃)).trans
    (.account c₃ accountId)⟩

theorem removeSuperAdmin_manages {accountId : AccountId}
    (h : c.removeSuperAdmin env accountId = some receipt) : Manages Administers c receipt := by
  simp only [Contract.removeSuperAdmin, Option.bind_eq_bind, Option.bind_eq_some_iff,
    Option.some.injEq] at h
  obtain ⟨_, _, _, _, c₁, h₁, c₂, h₂, rfl⟩ := h
  exact ⟨_, rfl, ((Administers.revokeRole h₁).trans (.revokeRole h₂)).trans (.roles c₂ _)⟩

theorem extendOperators_manages {operators : List AccountId}
    (h : c.extendOperators env operators = some receipt) : Manages Administers c receipt := by
  simp only [Contract.extendOperators, Option.bind_eq_bind, Option.bind_eq_some_iff,
    Option.some.injEq] at h
  obtain ⟨_, _, c', hloop, rfl⟩ := h
  refine ⟨_, rfl, Administers.foldlM (fun c operator c' hstep ↦ ?_) hloop⟩
  simp only [Contract.extendOperator, Option.bind_eq_bind, Option.bind_eq_some_iff,
    Option.some.injEq] at hstep
  obtain ⟨mid, hgrant, rfl⟩ := hstep
  exact (Administers.grantRole hgrant).trans (.account mid operator)

theorem removeOperators_manages {operators : List AccountId}
    (h : c.removeOperators env operators = some receipt) : Manages Administers c receipt := by
  simp only [Contract.removeOperators, Option.bind_eq_bind, Option.bind_eq_some_iff,
    Option.some.injEq] at h
  obtain ⟨_, _, c', hloop, rfl⟩ := h
  exact ⟨_, rfl, Administers.foldlM (fun _ _ _ hstep ↦ .revokeRole hstep) hloop⟩

theorem aclSetRole_manages {role : Role} {accountId : AccountId} {granted : Bool}
    (h : c.aclSetRole role accountId granted = some receipt) : Manages Administers c receipt := by
  simp only [Contract.aclSetRole, Option.some.injEq] at h
  subst h
  refine ⟨_, rfl, ?_⟩
  split
  · exact .roles c _
  · exact .roles c _

theorem updateConfig_manages {update : ConfigUpdate}
    (h : c.updateConfig env update = some receipt) : Manages Configures c receipt := by
  simp only [Contract.updateConfig, Option.bind_eq_bind, Option.bind_eq_some_iff,
    Option.some.injEq] at h
  obtain ⟨_, _, config, hconfig, c', hresize, rfl⟩ := h
  obtain ⟨hchain, hroot, haddress, _⟩ := ConfigUpdate.apply_spec hconfig
  exact ⟨_, rfl, .resize hresize hchain hroot haddress⟩

theorem setConfirmationsStrategy_manages {bound confirmations : ℕ}
    (h : c.setConfirmationsStrategy env bound confirmations = some receipt) :
    Manages Configures c receipt := by
  simp only [Contract.setConfirmationsStrategy, Option.bind_eq_bind, Option.bind_eq_some_iff,
    Option.some.injEq] at h
  obtain ⟨_, _, c', hresize, _, _, rfl⟩ := h
  exact ⟨_, rfl, .resize hresize rfl rfl rfl⟩

theorem removeConfirmationsStrategy_manages {bound : ℕ}
    (h : c.removeConfirmationsStrategy env bound = some receipt) :
    Manages Configures c receipt := by
  simp only [Contract.removeConfirmationsStrategy, Option.bind_eq_bind, Option.bind_eq_some_iff,
    Option.some.injEq] at h
  obtain ⟨_, _, _, _, _, _, c', hresize, _, _, rfl⟩ := h
  exact ⟨_, rfl, .resize hresize rfl rfl rfl⟩

theorem setPendingTxLimit_manages {accountId : AccountId} {limit : Option ℕ}
    (h : c.setPendingTxLimit env accountId limit = some receipt) :
    Manages Administers c receipt := by
  cases limit with
  | none =>
    simp only [Contract.setPendingTxLimit, Option.bind_eq_bind, Option.bind_eq_some_iff,
      Option.some.injEq] at h
    obtain ⟨_, _, _, _, rfl⟩ := h
    exact ⟨_, rfl, .lists c _ _ _ _ _⟩
  | some limit =>
    simp only [Contract.setPendingTxLimit, Option.bind_eq_bind, Option.bind_eq_some_iff,
      Option.some.injEq] at h
    obtain ⟨_, _, _, _, rfl⟩ := h
    exact ⟨_, rfl, .lists c _ _ _ _ _⟩

theorem extendPostActionMsgTemplates_manages {contractId : AccountId}
    {templates : Finset String}
    (h : c.extendPostActionMsgTemplates env contractId templates = some receipt) :
    Manages Administers c receipt := by
  simp only [Contract.extendPostActionMsgTemplates, Option.bind_eq_bind,
    Option.bind_eq_some_iff, Option.some.injEq] at h
  obtain ⟨_, _, _, _, _, _, rfl⟩ := h
  exact ⟨_, rfl, .lists c _ _ _ _ _⟩

theorem removePostActionMsgTemplates_manages {contractId : AccountId}
    {templates : Option (Finset String)}
    (h : c.removePostActionMsgTemplates env contractId templates = some receipt) :
    Manages Administers c receipt := by
  cases templates with
  | none =>
    simp only [Contract.removePostActionMsgTemplates, Option.bind_eq_bind,
      Option.bind_eq_some_iff, Option.some.injEq] at h
    obtain ⟨_, _, _, _, rfl⟩ := h
    exact ⟨_, rfl, .lists c _ _ _ _ _⟩
  | some templates =>
    simp only [Contract.removePostActionMsgTemplates, Option.bind_eq_bind,
      Option.bind_eq_some_iff, Option.some.injEq] at h
    obtain ⟨_, _, _, _, _, _, _, _, rfl⟩ := h
    exact ⟨_, rfl, .lists c _ _ _ _ _⟩

/-- The methods of management. -/
def Method.manages : Method → Bool
  | updateConfig .. | setConfirmationsStrategy .. | removeConfirmationsStrategy ..
  | addSuperAdmin .. | removeSuperAdmin .. | extendOperators .. | removeOperators ..
  | aclSetRole .. | setPendingTxLimit .. | extendPostActionMsgTemplates ..
  | removePostActionMsgTemplates .. | extendRelayerWhiteList .. | removeRelayerWhiteList ..
  | extendExtraMsgRelayerWhiteList .. | removeExtraMsgRelayerWhiteList ..
  | extendPostActionReceiverIdWhiteList .. | removePostActionReceiverIdWhiteList .. => true
  | _ => false

/-- The methods that write the configuration. -/
def Method.configures : Method → Bool
  | updateConfig .. | setConfirmationsStrategy .. | removeConfirmationsStrategy .. => true
  | _ => false

/-- A method of management that does not write the configuration leaves the window. -/
theorem call_administers {method : Method} (hmanages : method.manages = true)
    (hconfigures : method.configures = false) (h : c.call host env method = some receipt) :
    Manages Administers c receipt := by
  cases method with
  | addSuperAdmin => exact addSuperAdmin_manages h
  | removeSuperAdmin => exact removeSuperAdmin_manages h
  | extendOperators => exact extendOperators_manages h
  | removeOperators => exact removeOperators_manages h
  | aclSetRole => exact aclSetRole_manages h
  | setPendingTxLimit => exact setPendingTxLimit_manages h
  | extendPostActionMsgTemplates => exact extendPostActionMsgTemplates_manages h
  | removePostActionMsgTemplates => exact removePostActionMsgTemplates_manages h
  | extendRelayerWhiteList | removeRelayerWhiteList | extendExtraMsgRelayerWhiteList
  | removeExtraMsgRelayerWhiteList | extendPostActionReceiverIdWhiteList
  | removePostActionReceiverIdWhiteList =>
    simp only [Contract.call, Contract.extendRelayerWhiteList, Contract.removeRelayerWhiteList,
      Contract.extendExtraMsgRelayerWhiteList, Contract.removeExtraMsgRelayerWhiteList,
      Contract.extendPostActionReceiverIdWhiteList, Contract.removePostActionReceiverIdWhiteList,
      Option.bind_eq_bind, Option.bind_eq_some_iff, Option.some.injEq] at h
    obtain ⟨_, _, _, _, rfl⟩ := h
    exact ⟨_, rfl, .lists c _ _ _ _ _⟩
  | updateConfig | setConfirmationsStrategy | removeConfirmationsStrategy => cases hconfigures
  | _ => cases hmanages

theorem call_manages {method : Method} (hmanages : method.manages = true)
    (h : c.call host env method = some receipt) : Manages Configures c receipt := by
  cases hconfigures : method.configures with
  | false =>
    obtain ⟨c', hdone, hadministers⟩ := call_administers hmanages hconfigures h
    exact ⟨c', hdone, hadministers.toConfigures⟩
  | true =>
    cases method with
    | updateConfig => exact updateConfig_manages h
    | setConfirmationsStrategy => exact setConfirmationsStrategy_manages h
    | removeConfirmationsStrategy => exact removeConfirmationsStrategy_manages h
    | _ => cases hconfigures

end SatoshiBridge

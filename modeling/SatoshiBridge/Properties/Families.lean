import SatoshiBridge.Properties.AccountLists

/-!
# Families of replacements

The families on record are those of the pending originals. A replacement of a pending original is
never cleared, and a replacement whose original is gone can be cleared until it is attested.
-/

set_option autoImplicit false
set_option relaxedAutoImplicit false

namespace SatoshiBridge

variable {host : Host} {s : Sys} {c : Contract}

namespace Sys

/-- A pending original of a withdrawal or of active management. -/
def PendingOriginal (s : Sys) (root : Txid) : Prop :=
  ∃ o state, s.contract.btcPendingInfos.lookup root = some o ∧
    (o.state = .withdrawOriginal state ∨ o.state = .activeUtxoManagementOriginal state)

/-- A pending replacement of `root`. -/
def PendingChild (s : Sys) (root id : Txid) : Prop :=
  ∃ info, s.contract.btcPendingInfos.lookup id = some info ∧ info.getOriginalTxId = some root

/-- The families on record, and what clearing does to the replacements. -/
structure FamiliesInOrder (s : Sys) : Prop where
  family : ∀ root members, s.contract.rbfTxs.lookup root = some members →
    s.PendingOriginal root ∧ ∀ id, id ∈ members ↔ s.PendingChild root id
  orphan : ∀ root id, s.PendingChild root id → s.contract.btcPendingInfos.lookup root = none →
    s.contract.rbfTxs.lookup root = none
  kept : ∀ root id, s.PendingChild root id →
    (∃ o, s.contract.btcPendingInfos.lookup root = some o) →
      s.contract.internalClearInvalidPendingVerifyRbf id = none
  cleared : ∀ root id info, s.contract.btcPendingInfos.lookup id = some info →
    info.getOriginalTxId = some root → s.contract.btcPendingInfos.lookup root = none →
      info.state.stage = .pendingSign ∨ info.state.stage = .pendingVerify →
        ∃ c', s.contract.internalClearInvalidPendingVerifyRbf id = some c' ∧
          c'.btcPendingInfos.lookup id = none ∧
          ∀ a, id ∉ (c'.account a).btcPendingSignIds ∧ id ∉ (c'.account a).btcPendingVerifyList

/-- Clearing needs the family to be gone. -/
theorem clear_of_family {root id : Txid} {info : BTCPendingInfo} {members : Finset Txid}
    (hinfo : c.btcPendingInfos.lookup id = some info) (hroot : info.getOriginalTxId = some root)
    (hfamily : c.rbfTxs.lookup root = some members) :
    c.internalClearInvalidPendingVerifyRbf id = none := by
  simp only [Contract.internalClearInvalidPendingVerifyRbf,
    Contract.internalRemoveBtcPendingInfo, hinfo, hroot, hfamily, Option.bind_eq_bind,
    Option.bind_some, Option.isNone_some, require, Bool.false_eq_true, if_false, Option.bind_none]

/-- Clearing succeeds without a family, when the list of the owner agrees with the stage. -/
theorem clear_of_orphan {root id : Txid} {info : BTCPendingInfo} {account : Account}
    (hinfo : c.btcPendingInfos.lookup id = some info) (hroot : info.getOriginalTxId = some root)
    (hgone : c.rbfTxs.lookup root = none)
    (haccount : c.accounts.lookup info.accountId = some account)
    (hlisted : info.state.stage = .pendingSign ↔ id ∈ account.btcPendingSignIds)
    (hstage : info.state.stage = .pendingSign ∨ info.state.stage = .pendingVerify) :
    ∃ c', c.internalClearInvalidPendingVerifyRbf id = some c' ∧
      c'.btcPendingInfos.lookup id = none := by
  refine ⟨({ c with btcPendingInfos := c.btcPendingInfos.erase id } : Contract).internalSetAccount
    info.accountId { account with btcPendingSignIds := account.btcPendingSignIds.erase id }, ?_,
    AList.lookup_erase _ _⟩
  simp only [Contract.internalClearInvalidPendingVerifyRbf, Contract.internalRemoveBtcPendingInfo,
    Contract.internalUnwrapMutAccount, hinfo, hroot, hgone, haccount, Option.bind_eq_bind,
    Option.bind_some, Option.isNone_none, require, if_true]
  by_cases hmem : id ∈ account.btcPendingSignIds
  · have hassert : info.assertPendingSign = some () := require_eq_some.mpr (hlisted.mpr hmem)
    rw [if_pos hmem, hassert, Option.bind_some]
  · have hverify : info.state.stage = .pendingVerify :=
      hstage.resolve_left fun hsign ↦ hmem (hlisted.mp hsign)
    have hassert : info.assertPendingVerify = some () := require_eq_some.mpr hverify
    rw [if_neg hmem, hassert, Option.bind_some]

/-- What is not pending is on no list. -/
theorem unlisted {id : Txid} (hsound : c.desk.Sound) (hgone : c.btcPendingInfos.lookup id = none)
    (a : AccountId) :
    id ∉ (c.account a).btcPendingSignIds ∧ id ∉ (c.account a).btcPendingVerifyList :=
  ⟨hsound.signs.notMem (.of_fresh hgone) a, hsound.verifies.notMem (.of_fresh hgone) a⟩

/-- Without completions by hand the families are in order in every reachable state. -/
theorem Reachable.families_in_order (laws : host.Lawful) (h : Reachable host never s) :
    s.FamiliesInOrder := by
  have hsound := h.ofNever.sound laws
  have hstaged := (h.ofNever.ofUnfinished laws.toReadsAddresses).staged laws
  have hlists := listsInOrder_of hsound hstaged
  have horphan (root id : Txid) (hchild : s.PendingChild root id)
      (hgone : s.contract.btcPendingInfos.lookup root = none) :
      s.contract.rbfTxs.lookup root = none := by
    by_contra hfamily
    obtain ⟨members, hmembers⟩ := Option.ne_none_iff_exists'.mp hfamily
    obtain ⟨⟨o, ho, _⟩, _⟩ := hsound.families.family root members hmembers
    have hlookup : s.contract.btcPendingInfos.lookup root = some o := ho
    rw [hgone] at hlookup
    cases hlookup
  refine ⟨?_, horphan, ?_, ?_⟩
  · intro root members hmembers
    obtain ⟨⟨o, ho, horiginal, hrefund⟩, hmem⟩ := hsound.families.family root members hmembers
    refine ⟨?_, hmem⟩
    cases hstate : o.state with
    | withdrawOriginal state => exact ⟨o, state, ho, Or.inl hstate⟩
    | activeUtxoManagementOriginal state => exact ⟨o, state, ho, Or.inr hstate⟩
    | withdrawUserRbf | withdrawCancelRbf | activeUtxoManagementRbf
    | activeUtxoManagementCancelRbf =>
      rw [hstate] at horiginal
      cases horiginal
    | refund =>
      rw [hstate] at hrefund
      cases hrefund
  · rintro root id ⟨info, hinfo, hroot⟩ ⟨o, ho⟩
    have hof := hstaged.family id info root o hinfo hroot ho
    have hlive := hsound.families.live root id ⟨info, hinfo, hroot⟩
      ⟨o, ho, hof.original, hof.notRefund⟩
    obtain ⟨members, hmembers⟩ := FiniteMap.mem_iff_lookup.mp hlive
    exact clear_of_family hinfo hroot hmembers
  · intro root id info hinfo hroot hgone hstage
    have howner : info.accountId ∈ s.contract.accounts :=
      (h.anytime laws.toReadsAddresses).owners id info hinfo
    obtain ⟨account, haccount⟩ := FiniteMap.mem_iff_lookup.mp howner
    have hlisted := (hlists.filed id info hinfo).toSign
    rw [Contract.account, haccount, Option.getD_some] at hlisted
    obtain ⟨c', hclear, hcleared⟩ :=
      clear_of_orphan hinfo hroot (horphan root id ⟨info, hinfo, hroot⟩ hgone) haccount hlisted
        hstage
    have hsound' : c'.desk.Sound :=
      hsound.drop (internalClearInvalidPendingVerifyRbf_desk hclear)
    exact ⟨c', hclear, hcleared, unlisted hsound' hcleared⟩

end Sys

namespace Sample

/-- The withdrawal of Alice is confirmed and its cancellation stays behind. -/
def orphaned : List Action := cancelledWithdrawal ++ settle 2

end Sample

/-- The cancellation that stays behind can be cleared. -/
theorem families_in_order_orphan :
    ∃ s info, Sample.after Sample.orphaned = some s ∧
      s.contract.btcPendingInfos.lookup 4 = some info ∧ info.getOriginalTxId = some 2 ∧
      s.contract.btcPendingInfos.lookup 2 = none ∧
      ∃ c', s.contract.internalClearInvalidPendingVerifyRbf 4 = some c' := by
  have hrun : ((Sample.after Sample.orphaned).bind fun s ↦
      (s.contract.btcPendingInfos.lookup 4).map fun info ↦
        (info.getOriginalTxId, info.state.stage, s.contract.btcPendingInfos.lookup 2))
      = some (some 2, .pendingVerify, none) := by
    decide +kernel
  obtain ⟨s, hs, hsome⟩ := Option.bind_eq_some_iff.mp hrun
  obtain ⟨info, hinfo, heq⟩ := Option.map_eq_some_iff.mp hsome
  rw [Prod.mk.injEq, Prod.mk.injEq] at heq
  obtain ⟨hroot, hstage, hgone⟩ := heq
  have hreach : Sys.Reachable (Sample.host false) Sys.never s := Sample.reaches (by decide) hs
  have horder := hreach.families_in_order (Sample.host_lawful false)
  obtain ⟨c', hclear, _⟩ := horder.cleared 2 4 info hinfo hroot hgone (Or.inr hstage)
  exact ⟨s, info, hs, hinfo, hroot, hgone, c', hclear⟩

end SatoshiBridge

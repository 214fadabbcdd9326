import SatoshiBridge.Desk.Basic

/-!
# The lists stay right

Every step of the desk keeps the lists of the accounts and the families in order, and a list of
transactions to sign grows only below its limit.
-/

set_option autoImplicit false
set_option relaxedAutoImplicit false

namespace SatoshiBridge.Desk

open FiniteMap (Indexes Unowned)

variable {Burns : Txid → Prop} {d d' : Desk} {P : BTCPendingInfo → Prop} {id k : Txid}
  {info old : BTCPendingInfo}

/-! ### Pending transactions of a kind -/

theorem has_put (d : Desk) (P : BTCPendingInfo → Prop) (id k : Txid) (info : BTCPendingInfo) :
    (d.put id info).Has P k ↔ if k = id then P info else d.Has P k := by
  unfold Has put
  dsimp only
  rw [FiniteMap.lookup_insert_eq]
  by_cases heq : k = id
  · rw [if_pos heq, if_pos heq]
    constructor
    · rintro ⟨info', hinfo', hP⟩
      rw [Option.some.injEq] at hinfo'
      rw [hinfo']
      exact hP
    · exact fun hP ↦ ⟨info, rfl, hP⟩
  · rw [if_neg heq, if_neg heq]

theorem has_take (d : Desk) (P : BTCPendingInfo → Prop) (id k : Txid) :
    (d.take id).Has P k ↔ k ≠ id ∧ d.Has P k := by
  unfold Has take
  dsimp only
  rw [FiniteMap.lookup_erase_eq]
  by_cases heq : k = id
  · rw [if_pos heq]
    constructor
    · rintro ⟨info', hinfo', _⟩
      cases hinfo'
    · exact fun hne ↦ absurd heq hne.1
  · rw [if_neg heq]
    exact ⟨fun h ↦ ⟨heq, h⟩, fun h ↦ h.2⟩

theorem has_iff (hinfo : d.pendings.lookup id = some info) : d.Has P id ↔ P info := by
  unfold Has
  rw [hinfo]
  constructor
  · rintro ⟨info', hinfo', hP⟩
    rw [Option.some.injEq] at hinfo'
    rw [hinfo']
    exact hP
  · exact fun hP ↦ ⟨info, rfl, hP⟩

theorem not_has (hfresh : d.pendings.lookup id = none) : ¬d.Has P id := by
  rintro ⟨info', hinfo', _⟩
  rw [hfresh] at hinfo'
  cases hinfo'

theorem isChild_put (d : Desk) (root id k : Txid) (info : BTCPendingInfo) :
    (d.put id info).IsChild root k ↔
      if k = id then info.state.originalTxId = some root else d.IsChild root k :=
  has_put d _ id k info

theorem isOriginal_put (d : Desk) (id k : Txid) (info : BTCPendingInfo) :
    (d.put id info).IsOriginal k ↔
      if k = id then info.state.originalTxId = none ∧ info.state.isRefund = false
      else d.IsOriginal k :=
  has_put d _ id k info

theorem isChild_take (d : Desk) (root id k : Txid) :
    (d.take id).IsChild root k ↔ k ≠ id ∧ d.IsChild root k := has_take d _ id k

theorem isOriginal_take (d : Desk) (id k : Txid) :
    (d.take id).IsOriginal k ↔ k ≠ id ∧ d.IsOriginal k := has_take d _ id k

theorem isChild_iff {root : Txid} (hinfo : d.pendings.lookup id = some info) :
    d.IsChild root id ↔ info.state.originalTxId = some root := has_iff hinfo

theorem isOriginal_iff (hinfo : d.pendings.lookup id = some info) :
    d.IsOriginal id ↔ info.state.originalTxId = none ∧ info.state.isRefund = false :=
  has_iff hinfo

theorem not_isChild {root : Txid} (hfresh : d.pendings.lookup id = none) : ¬d.IsChild root id :=
  not_has hfresh

theorem not_isOriginal (hfresh : d.pendings.lookup id = none) : ¬d.IsOriginal id :=
  not_has hfresh

/-- A refund replaces nothing. -/
theorem originalTxId_of_refund (h : info.state.isRefund = true) :
    info.state.originalTxId = none := by
  cases hstate : info.state <;> rw [hstate] at h <;> first | rfl | cases h

/-! ### Families -/

/-- Families that stay the same stay right when the members of each stay the same. -/
theorem Families.of_same (h : d.Families) (hfamilies : d'.families = d.families)
    (hchild : ∀ root ∈ d.families, ∀ id, d'.IsChild root id ↔ d.IsChild root id)
    (horiginal : ∀ root ∈ d.families, d.IsOriginal root → d'.IsOriginal root)
    (hlive : ∀ root id, d'.IsChild root id → d'.IsOriginal root →
      d.IsChild root id ∧ d.IsOriginal root) : d'.Families where
  family := by
    intro root members hmembers
    rw [hfamilies] at hmembers
    have hroot : root ∈ d.families := FiniteMap.mem_iff_lookup.mpr ⟨members, hmembers⟩
    obtain ⟨ho, hmem⟩ := h.family root members hmembers
    exact ⟨horiginal root hroot ho, fun id ↦ (hmem id).trans (hchild root hroot id).symm⟩
  live := by
    intro root id hid hroot
    obtain ⟨hid', hroot'⟩ := hlive root id hid hroot
    rw [hfamilies]
    exact h.live root id hid' hroot'

/-- A transaction in another stage. -/
theorem Families.restage (h : d.Families) (hold : d.pendings.lookup id = some old)
    (hkeeps : Keeps old info) : (d.put id info).Families := by
  have hchild (root k : Txid) : (d.put id info).IsChild root k ↔ d.IsChild root k := by
    rw [isChild_put]
    split
    · rename_i heq
      rw [heq, isChild_iff hold, hkeeps.originalTxId]
    · rfl
  have horiginal (root : Txid) : (d.put id info).IsOriginal root ↔ d.IsOriginal root := by
    rw [isOriginal_put]
    split
    · rename_i heq
      rw [heq, isOriginal_iff hold, hkeeps.originalTxId, hkeeps.isRefund]
    · rfl
  exact h.of_same rfl (fun root _ k ↦ hchild root k) (fun root _ ↦ (horiginal root).mpr)
    fun root k hk hroot ↦ ⟨(hchild root k).mp hk, (horiginal root).mp hroot⟩

/-- A new original. -/
theorem Families.create (h : d.Families) (hfresh : d.pendings.lookup id = none)
    (horiginal : info.state.originalTxId = none)
    (horphans : ∀ k, ¬d.IsChild id k) : (d.put id info).Families := by
  have hchild (root k : Txid) : (d.put id info).IsChild root k ↔ d.IsChild root k := by
    rw [isChild_put]
    split
    · rename_i heq
      rw [heq, horiginal]
      exact ⟨nofun, fun hk ↦ absurd hk (not_isChild hfresh)⟩
    · rfl
  refine h.of_same rfl (fun root _ k ↦ hchild root k) (fun root _ hroot ↦ ?_)
    fun root k hk hroot ↦ ?_
  · rw [isOriginal_put, if_neg]
    · exact hroot
    · intro heq
      rw [heq] at hroot
      exact not_isOriginal hfresh hroot
  · rw [hchild] at hk
    refine ⟨hk, ?_⟩
    rw [isOriginal_put, if_neg] at hroot
    · exact hroot
    · intro heq
      rw [heq] at hk
      exact horphans k hk

/-- A refund goes. -/
theorem Families.dropRefund (h : d.Families) (hinfo : d.pendings.lookup id = some info)
    (hrefund : info.state.isRefund = true) : (d.take id).Families := by
  have hchild (root k : Txid) : (d.take id).IsChild root k ↔ d.IsChild root k := by
    rw [isChild_take]
    refine ⟨fun hk ↦ hk.2, fun hk ↦ ⟨fun heq ↦ ?_, hk⟩⟩
    rw [heq, isChild_iff hinfo, originalTxId_of_refund hrefund] at hk
    cases hk
  have horiginal (root : Txid) : (d.take id).IsOriginal root ↔ d.IsOriginal root := by
    rw [isOriginal_take]
    refine ⟨fun hroot ↦ hroot.2, fun hroot ↦ ⟨fun heq ↦ ?_, hroot⟩⟩
    rw [heq, isOriginal_iff hinfo, hrefund] at hroot
    cases hroot.2
  exact h.of_same rfl (fun root _ k ↦ hchild root k) (fun root _ ↦ (horiginal root).mpr)
    fun root k hk hroot ↦ ⟨(hchild root k).mp hk, (horiginal root).mp hroot⟩

/-- A replacement without a family goes. -/
theorem Families.drop {root : Txid} (h : d.Families) (hinfo : d.pendings.lookup id = some info)
    (hchild : info.state.originalTxId = some root) (hnone : root ∉ d.families) :
    (d.take id).Families := by
  have horiginal (root' : Txid) : (d.take id).IsOriginal root' ↔ d.IsOriginal root' := by
    rw [isOriginal_take]
    refine ⟨fun hroot ↦ hroot.2, fun hroot ↦ ⟨fun heq ↦ ?_, hroot⟩⟩
    rw [heq, isOriginal_iff hinfo, hchild] at hroot
    cases hroot.1
  refine h.of_same rfl (fun root' hroot' k ↦ ?_) (fun root' _ ↦ (horiginal root').mpr)
    fun root' k hk hroot' ↦ ⟨?_, (horiginal root').mp hroot'⟩
  · rw [isChild_take]
    refine ⟨fun hk ↦ hk.2, fun hk ↦ ⟨fun heq ↦ ?_, hk⟩⟩
    rw [heq, isChild_iff hinfo, hchild, Option.some.injEq] at hk
    rw [← hk] at hroot'
    exact hnone hroot'
  · rw [isChild_take] at hk
    exact hk.2

/-- A replacement joins the family of its original. -/
theorem Families.join {root : Txid} (h : d.Families) (hroot : d.IsOriginal root)
    (hfresh : d.pendings.lookup id = none) (hchild : info.state.originalTxId = some root)
    (horphans : ∀ k, ¬d.IsChild id k) : ((d.put id info).join id root).Families where
  family := by
    intro root' members hmembers
    have hkept (hroot' : d.IsOriginal root') : (d.put id info).IsOriginal root' := by
      rw [isOriginal_put, if_neg]
      · exact hroot'
      · intro heq
        rw [heq] at hroot'
        exact not_isOriginal hfresh hroot'
    have hids (k : Txid) : (d.put id info).IsChild root' k ↔
        (k = id ∧ root' = root) ∨ d.IsChild root' k := by
      rw [isChild_put]
      split
      · rename_i heq
        rw [heq, hchild, Option.some.injEq]
        constructor
        · exact fun hsame ↦ Or.inl ⟨rfl, hsame.symm⟩
        · rintro (hsame | hk)
          · exact hsame.2.symm
          · exact absurd hk (not_isChild hfresh)
      · rename_i hne
        exact ⟨Or.inr, fun hk ↦ hk.resolve_left fun hboth ↦ hne hboth.1⟩
    change (d.families.insert root _).lookup root' = some members at hmembers
    rw [FiniteMap.lookup_insert_eq] at hmembers
    change (d.put id info).IsOriginal root' ∧ ∀ k, k ∈ members ↔ (d.put id info).IsChild root' k
    split at hmembers
    · rename_i heq
      subst heq
      rw [Option.some.injEq] at hmembers
      refine ⟨hkept hroot, fun k ↦ ?_⟩
      rw [hids k, ← hmembers, Finset.mem_insert]
      -- Without a family so far the original has no replacement yet.
      have hold : k ∈ (d.families.lookup root').getD ∅ ↔ d.IsChild root' k := by
        cases hfamily : d.families.lookup root' with
        | some members' => exact (h.family root' members' hfamily).2 k
        | none =>
          constructor
          · exact fun hk ↦ absurd hk (Finset.notMem_empty k)
          · intro hk
            obtain ⟨_, hlookup⟩ := FiniteMap.mem_iff_lookup.mp (h.live root' k hk hroot)
            rw [hfamily] at hlookup
            cases hlookup
      change k = id ∨ k ∈ (d.families.lookup root').getD ∅ ↔ _
      rw [hold]
      exact or_congr_left ⟨fun heq ↦ ⟨heq, rfl⟩, fun hboth ↦ hboth.1⟩
    · rename_i hne
      obtain ⟨ho, hmem⟩ := h.family root' members hmembers
      refine ⟨hkept ho, fun k ↦ ?_⟩
      rw [hids k, hmem k]
      exact ⟨Or.inr, fun hk ↦ hk.resolve_left fun hboth ↦ hne hboth.2⟩
  live := by
    intro root' k hk hroot'
    change root' ∈ d.families.insert root _
    rw [AList.mem_insert]
    by_cases heq : root' = root
    · exact Or.inl heq
    · right
      change (d.put id info).IsChild root' k at hk
      change (d.put id info).IsOriginal root' at hroot'
      have hk' : d.IsChild root' k := by
        rw [isChild_put] at hk
        split at hk
        · rw [hchild, Option.some.injEq] at hk
          exact absurd hk.symm heq
        · exact hk
      refine h.live root' k hk' ?_
      rw [isOriginal_put] at hroot'
      split at hroot'
      · rename_i hnew
        rw [hnew] at hk'
        exact absurd hk' (horphans k)
      · exact hroot'

/-- A family is dissolved with its original and one of its members. -/
theorem Families.settle {txId root : Txid} {o : BTCPendingInfo} (h : d.Families)
    (hinfo : d.pendings.lookup txId = some info) (hroot : root = info.root txId)
    (ho : d.pendings.lookup root = some o) (horiginal : o.state.originalTxId = none) :
    (((d.take root).take txId).disband root).Families where
  family := by
    intro root' members hmembers
    obtain ⟨hmembers, hne⟩ := FiniteMap.lookup_of_erase hmembers
    change ((d.take root).take txId).IsOriginal root' ∧
      ∀ k, k ∈ members ↔ ((d.take root).take txId).IsChild root' k
    obtain ⟨ho', hmem⟩ := h.family root' members hmembers
    constructor
    · rw [isOriginal_take, isOriginal_take]
      refine ⟨fun heq ↦ ?_, hne, ho'⟩
      -- The member is the original itself, or no original.
      rw [heq, isOriginal_iff hinfo] at ho'
      rw [BTCPendingInfo.root_of_original ho'.1] at hroot
      exact hne (heq.trans hroot.symm)
    · intro k
      rw [isChild_take, isChild_take, hmem k]
      refine ⟨fun hk ↦ ⟨fun heq ↦ ?_, fun heq ↦ ?_, hk⟩, fun hk ↦ hk.2.2⟩
      · rw [heq, isChild_iff hinfo] at hk
        rw [BTCPendingInfo.root_of_child hk] at hroot
        exact hne hroot.symm
      · rw [heq, isChild_iff ho, horiginal] at hk
        cases hk
  live := by
    intro root' k hk hroot'
    change ((d.take root).take txId).IsChild root' k at hk
    change ((d.take root).take txId).IsOriginal root' at hroot'
    rw [isChild_take, isChild_take] at hk
    rw [isOriginal_take, isOriginal_take] at hroot'
    change root' ∈ d.families.erase root
    rw [AList.mem_erase]
    exact ⟨hroot'.2.1, h.live root' k hk.2.2 hroot'.2.2⟩

/-! ### Lists -/

theorem signOwner_eq_none (h : info.state.stage ≠ .pendingSign) : signOwner info = none :=
  if_neg h

theorem signOwner_eq_some (h : info.state.stage = .pendingSign) :
    signOwner info = some info.accountId := if_pos h

theorem verifyOwner_eq_none (h : info.state.originalTxId = none → info.state.stage = .pendingSign) :
    verifyOwner info = none := if_neg fun hboth ↦ hboth.2 (h hboth.1)

theorem verifyOwner_eq_some (horiginal : info.state.originalTxId = none)
    (h : info.state.stage ≠ .pendingSign) : verifyOwner info = some info.accountId :=
  if_pos ⟨horiginal, h⟩

theorem eq_of_signOwner {b : AccountId} (h : signOwner info = some b) :
    info.state.stage = .pendingSign ∧ info.accountId = b := by
  unfold signOwner at h
  split at h
  · rename_i hstage
    exact ⟨hstage, Option.some.inj h⟩
  · cases h

theorem eq_of_verifyOwner {b : AccountId} (h : verifyOwner info = some b) :
    info.accountId = b := by
  unfold verifyOwner at h
  split at h
  · exact Option.some.inj h
  · cases h

/-- The owners of a transaction whose stage does not enter or leave the sign stage. -/
theorem Keeps.owners (h : Keeps old info)
    (hstage : info.state.stage = .pendingSign ↔ old.state.stage = .pendingSign) :
    signOwner info = signOwner old ∧ verifyOwner info = verifyOwner old := by
  unfold signOwner verifyOwner
  constructor
  · by_cases hold : old.state.stage = .pendingSign
    · rw [if_pos hold, if_pos (hstage.mpr hold), h.accountId]
    · rw [if_neg hold, if_neg fun hnew ↦ hold (hstage.mp hnew)]
  · rw [h.originalTxId, h.accountId]
    by_cases hold : old.state.originalTxId = none ∧ old.state.stage ≠ .pendingSign
    · rw [if_pos hold, if_pos ⟨hold.1, fun hnew ↦ hold.2 (hstage.mp hnew)⟩]
    · rw [if_neg hold, if_neg fun hboth ↦ hold ⟨hboth.1, fun hsign ↦ hboth.2 (hstage.mpr hsign)⟩]

/-! ### Steps -/

theorem Sound.restage (h : d.Sound) (hold : d.pendings.lookup id = some old)
    (hkeeps : Keeps old info)
    (hstage : info.state.stage = .pendingSign ↔ old.state.stage = .pendingSign) :
    (d.put id info).Sound := by
  obtain ⟨hsign, hverify⟩ := hkeeps.owners hstage
  exact ⟨h.signs.replace hold hsign, h.verifies.replace hold hverify,
    h.families.restage hold hkeeps⟩

theorem Sound.create (h : d.Sound) (hfresh : d.pendings.lookup id = none)
    (horiginal : info.state.originalTxId = none) (hstage : info.state.stage = .pendingSign)
    (horphans : ∀ k, ¬d.IsChild id k) : ((d.put id info).addSign info.accountId id).Sound := by
  have hfamilies := h.families.create hfresh horiginal horphans
  exact ⟨h.signs.list (.of_fresh hfresh) (signOwner_eq_some hstage),
    h.verifies.store (.of_fresh hfresh) (verifyOwner_eq_none fun _ ↦ hstage),
    ⟨hfamilies.family, hfamilies.live⟩⟩

theorem Sound.join {root : Txid} (h : d.Sound) (hroot : d.IsOriginal root)
    (hfresh : d.pendings.lookup id = none) (hchild : info.state.originalTxId = some root)
    (hstage : info.state.stage = .pendingSign) (horphans : ∀ k, ¬d.IsChild id k) :
    (((d.put id info).addSign info.accountId id).join id root).Sound := by
  have hfamilies := h.families.join hroot hfresh hchild horphans
  exact ⟨h.signs.list (.of_fresh hfresh) (signOwner_eq_some hstage),
    h.verifies.store (.of_fresh hfresh) (verifyOwner_eq_none fun _ ↦ hstage),
    ⟨hfamilies.family, hfamilies.live⟩⟩

theorem Sound.complete {a : AccountId} (h : d.Sound) (hold : d.pendings.lookup id = some old)
    (hkeeps : Keeps old info) (hlisted : id ∈ d.signs a)
    (hstage : info.state.stage ≠ .pendingSign) :
    (if info.state.originalTxId = none then ((d.put id info).dropSign a id).addVerify a id
      else (d.put id info).dropSign a id).Sound := by
  have howner := (h.signs.mem_iff hold a).mp hlisted
  obtain ⟨holdStage, haccount⟩ := eq_of_signOwner howner
  have hunverified : Unowned verifyOwner d.pendings id :=
    .of_lookup hold (verifyOwner_eq_none fun _ ↦ holdStage)
  have hsigns := h.signs.unlist (a := a) hold
    (fun b hb ↦ (eq_of_signOwner hb).2.symm.trans haccount) (signOwner_eq_none hstage)
  have hfamilies := h.families.restage hold hkeeps
  split
  · rename_i horiginal
    refine ⟨hsigns, h.verifies.list hunverified ?_, ⟨hfamilies.family, hfamilies.live⟩⟩
    rw [verifyOwner_eq_some horiginal hstage, hkeeps.accountId, haccount]
  · rename_i hchild
    exact ⟨hsigns, h.verifies.store hunverified
      (verifyOwner_eq_none fun hnone ↦ absurd hnone hchild), ⟨hfamilies.family, hfamilies.live⟩⟩

theorem Sound.settle {txId root : Txid} {o : BTCPendingInfo} (h : d.Sound) (horderly : d.Orderly)
    (hinfo : d.pendings.lookup txId = some info) (hstage : info.state.stage = .pendingBurn)
    (hroot : root = info.root txId)
    (ho : d.pendings.lookup root = some o) :
    ((((d.take root).take txId).dropVerify info.accountId root).disband root).Sound := by
  have hnotSign : info.state.stage ≠ .pendingSign := by
    rw [hstage]
    exact nofun
  have hof : o.state.originalTxId = none ∧ o.state.stage ≠ .pendingSign ∧
      o.accountId = info.accountId := by
    cases hchild : info.state.originalTxId with
    | none =>
      rw [BTCPendingInfo.root_of_original hchild] at hroot
      rw [hroot, hinfo, Option.some.injEq] at ho
      rw [← ho]
      exact ⟨hchild, hnotSign, rfl⟩
    | some root' =>
      rw [BTCPendingInfo.root_of_child hchild] at hroot
      have horiginal := horderly txId info root o hinfo (hroot ▸ hchild) ho
      exact ⟨horiginal.original, horiginal.signed, horiginal.account.symm⟩
  obtain ⟨horiginal, hsigned, haccount⟩ := hof
  have hafter {owner : BTCPendingInfo → Option AccountId} (hnone : owner info = none) :
      Unowned owner (d.pendings.erase root) txId := by
    intro v hv
    rw [(FiniteMap.lookup_of_erase hv).1, Option.some.injEq] at hinfo
    rw [hinfo]
    exact hnone
  have hverifies := h.verifies.remove (k := root) (a := info.accountId) fun old hold b hb ↦ by
    rw [ho, Option.some.injEq] at hold
    rw [← haccount, hold]
    exact (eq_of_verifyOwner hb).symm
  have hfamilies := h.families.settle hinfo hroot ho horiginal
  refine ⟨?_, ?_, ⟨hfamilies.family, hfamilies.live⟩⟩
  · exact (h.signs.discard (.of_lookup ho (signOwner_eq_none hsigned))).discard
      (hafter (signOwner_eq_none hnotSign))
  · refine hverifies.discard fun v hv ↦ ?_
    obtain ⟨hv, hne⟩ := FiniteMap.lookup_of_erase hv
    rw [hinfo, Option.some.injEq] at hv
    rw [← hv]
    refine verifyOwner_eq_none fun hnone ↦ ?_
    rw [BTCPendingInfo.root_of_original hnone] at hroot
    exact absurd hroot.symm hne

theorem Sound.drop (h : d.Sound) (hdrop : Drop d d') : d'.Sound := by
  cases hdrop with
  | mk id root info hinfo hchild hgone =>
    have hnone : root ∉ d.families := by
      rcases hgone with hnone | hdead
      · exact AList.lookup_eq_none.mp hnone
      · intro hmem
        obtain ⟨members, hmembers⟩ := FiniteMap.mem_iff_lookup.mp hmem
        exact not_isOriginal hdead (h.families.family root members hmembers).1
    have hfamilies := h.families.drop hinfo hchild hnone
    refine ⟨h.signs.remove fun old hold b hb ↦ ?_, h.verifies.discard (.of_lookup hinfo ?_),
      ⟨hfamilies.family, hfamilies.live⟩⟩
    · rw [hinfo, Option.some.injEq] at hold
      rw [hold]
      exact (eq_of_signOwner hb).2.symm
    · refine verifyOwner_eq_none fun horiginal ↦ ?_
      rw [hchild] at horiginal
      cases horiginal

theorem Sound.dropRefund (h : d.Sound) (hinfo : d.pendings.lookup id = some info)
    (hrefund : info.state.isRefund = true) :
    (((d.take id).dropSign info.accountId id).dropVerify info.accountId id).Sound := by
  have hfamilies := h.families.dropRefund hinfo hrefund
  refine ⟨h.signs.remove fun old hold b hb ↦ ?_, h.verifies.remove fun old hold b hb ↦ ?_,
    ⟨hfamilies.family, hfamilies.live⟩⟩
  · rw [hinfo, Option.some.injEq] at hold
    rw [hold]
    exact (eq_of_signOwner hb).2.symm
  · rw [hinfo, Option.some.injEq] at hold
    rw [hold]
    exact (eq_of_verifyOwner hb).symm

theorem Sound.finalise (h : d.Sound) (hinfo : d.pendings.lookup id = some info)
    (hrefund : info.state.isRefund = true) (hstage : info.state.stage ≠ .pendingSign) :
    ((d.take id).dropVerify info.accountId id).Sound := by
  have hfamilies := h.families.dropRefund hinfo hrefund
  refine ⟨h.signs.discard (.of_lookup hinfo (signOwner_eq_none hstage)),
    h.verifies.remove fun old hold b hb ↦ ?_, ⟨hfamilies.family, hfamilies.live⟩⟩
  rw [hinfo, Option.some.injEq] at hold
  rw [hold]
  exact (eq_of_verifyOwner hb).symm

/-- A step keeps the desk sound, when the transactions whose burns are answered are in the burn
stage and the replacements are in order before and after. -/
theorem Sound.step (h : d.Sound) (horderly : d.Orderly) (horderly' : d'.Orderly)
    (hburning : ∀ id info, Burns id → d.pendings.lookup id = some info →
      info.state.stage = .pendingBurn)
    (heffect : Effect Burns d d') : d'.Sound := by
  -- A transaction that has just been created is the original of no replacement.
  have horphans {id : Txid} {info : BTCPendingInfo} (hinfo : d'.pendings.lookup id = some info)
      (hstage : info.state.stage = .pendingSign) (root : Txid) (hchild : d'.IsChild id root) :
      False := by
    obtain ⟨child, hlookup, horiginal⟩ := hchild
    exact (horderly' root child id info hlookup horiginal hinfo).signed hstage
  cases heffect with
  | quiet limit => exact ⟨h.signs, h.verifies, ⟨h.families.family, h.families.live⟩⟩
  | create info hfresh horiginal hstage hcapacity =>
    refine h.create hfresh horiginal hstage fun k hk ↦ ?_
    refine horphans (AList.lookup_insert _) hstage k ?_
    refine (isChild_put d _ _ k info).mpr ?_
    rw [if_neg fun heq : k = info.btcPendingId ↦ not_isChild hfresh (heq ▸ hk)]
    exact hk
  | replace root o o' info ho hkeeps hstage' horiginal hrefund hfresh hchild hstage hcapacity =>
    have hrestaged : (d.put root o').Sound := h.restage ho hkeeps (by rw [hstage'])
    have hne : info.btcPendingId ≠ root := by
      intro heq
      rw [heq, ho] at hfresh
      cases hfresh
    have hfresh' : (d.put root o').pendings.lookup info.btcPendingId = none :=
      (AList.lookup_insert_ne hne).trans hfresh
    refine hrestaged.join ?_ hfresh' hchild hstage fun k hk ↦ ?_
    · rw [isOriginal_put, if_pos rfl, hkeeps.originalTxId, hkeeps.isRefund]
      exact ⟨horiginal, hrefund⟩
    · refine horphans (AList.lookup_insert _) hstage k ?_
      refine (isChild_put (d.put root o') _ _ k info).mpr ?_
      rw [if_neg fun heq : k = info.btcPendingId ↦ not_isChild hfresh' (heq ▸ hk)]
      exact hk
  | restage id old info hold hkeeps hstage =>
    refine h.restage hold hkeeps ?_
    rcases hstage with hsame | ⟨hburns, hnew⟩
    · exact hsame
    · rw [hburning id old hburns hold]
      exact ⟨fun hsign ↦ absurd hsign hnew, nofun⟩
  | complete a id old info hold hkeeps hlisted hstage =>
    exact h.complete hold hkeeps hlisted hstage
  | settle txId root info o hburns hinfo hroot ho =>
    exact h.settle horderly hinfo (hburning txId info hburns hinfo) hroot ho
  | clear hclear =>
    clear horphans horderly horderly' hburning
    induction hclear with
    | refl => exact h
    | tail _ hlast ih => exact ih.drop hlast
  | dropRefund id info hinfo hrefund => exact h.dropRefund hinfo hrefund
  | finalise id info hinfo hrefund hstage =>
    refine h.finalise hinfo hrefund ?_
    rw [hstage]
    exact nofun

/-! ### Capacity -/

theorem dropSign_subset (d : Desk) (a : AccountId) (id : Txid) (b : AccountId) :
    (d.dropSign a id).signs b ⊆ d.signs b := by
  intro k hk
  change k ∈ Function.update d.signs a ((d.signs a).erase id) b at hk
  rw [FiniteMap.Indexes.mem_update] at hk
  split at hk
  · rename_i heq
    rw [heq]
    exact Finset.mem_of_mem_erase hk
  · exact hk

theorem addSign_grows {a b : AccountId}
    (hgrows : (d.signs b).card < ((d.addSign a id).signs b).card) : b = a := by
  by_contra hne
  change (d.signs b).card < (Function.update d.signs a _ b).card at hgrows
  rw [Function.update_of_ne hne] at hgrows
  exact absurd hgrows (lt_irrefl _)

/-- A list of transactions to sign grows only below the limit of its account. -/
theorem Effect.capacity (h : Effect Burns d d') (a : AccountId)
    (hgrows : (d.signs a).card < (d'.signs a).card) : (d.signs a).card < d.limit a := by
  have hsubset (hsub : d'.signs a ⊆ d.signs a) : (d.signs a).card < d.limit a :=
    absurd hgrows (not_lt.mpr (Finset.card_le_card hsub))
  cases h with
  | quiet | restage | settle | finalise => exact absurd hgrows (lt_irrefl _)
  | create info hfresh horiginal hstage hcapacity =>
    have heq : a = info.accountId := addSign_grows (d := d.put info.btcPendingId info) hgrows
    rw [heq]
    exact hcapacity
  | replace root o o' info ho hkeeps hstage' horiginal hrefund hfresh hchild hstage hcapacity =>
    have heq : a = info.accountId :=
      addSign_grows (d := (d.put root o').put info.btcPendingId info) hgrows
    rw [heq]
    exact hcapacity
  | complete b id old info =>
    refine hsubset ?_
    split
    · exact dropSign_subset (d.put id info) b id a
    · exact dropSign_subset (d.put id info) b id a
  | clear hclear =>
    refine hsubset ?_
    clear hsubset hgrows
    induction hclear with
    | refl => exact Finset.Subset.refl _
    | tail _ hlast ih =>
      refine Finset.Subset.trans ?_ ih
      cases hlast with
      | mk id root info => exact dropSign_subset _ info.accountId id a
  | dropRefund id info => exact hsubset (dropSign_subset (d.take id) info.accountId id a)

end SatoshiBridge.Desk

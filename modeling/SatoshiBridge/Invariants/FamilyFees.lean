import Mathlib.Order.Bounds.Basic
import SatoshiBridge.Invariants.Stages

/-!
# The gas of a family

On Bitcoin every replacement pays more gas than the maximum its original has on record, and becomes
the maximum itself. So the gas of the transactions created for a family rises, and the record holds
the last of it, as long as the family was not there before its original was created.
-/

set_option autoImplicit false
set_option relaxedAutoImplicit false

namespace SatoshiBridge

/-! ### Rising lists -/

section Rising

variable {α : Type*} [LinearOrder α]

/-- A list that rises and whose greatest element is `m`. -/
structure RisesTo (xs : List α) (m : α) : Prop where
  rising : xs.Pairwise (· < ·)
  greatest : IsGreatest {x | x ∈ xs} m

theorem RisesTo.singleton (x : α) : RisesTo [x] x where
  rising := List.pairwise_singleton _ x
  greatest := ⟨List.mem_singleton_self x, fun _ hy ↦ le_of_eq (List.mem_singleton.mp hy)⟩

/-- A greater element at the end is the greatest. -/
theorem RisesTo.append {xs : List α} {m x : α} (h : RisesTo xs m) (hx : m < x) :
    RisesTo (xs ++ [x]) x where
  rising := by
    rw [List.pairwise_append]
    refine ⟨h.rising, List.pairwise_singleton _ x, fun y hy z hz ↦ ?_⟩
    rw [List.mem_singleton.mp hz]
    exact lt_of_le_of_lt (h.greatest.2 hy) hx
  greatest := by
    constructor
    · exact List.mem_append_right xs (List.mem_singleton_self x)
    · intro y hy
      rcases List.mem_append.mp hy with hold | hnew
      · exact (lt_of_le_of_lt (h.greatest.2 hold) hx).le
      · exact le_of_eq (List.mem_singleton.mp hnew)

end Rising

variable {host : Host} {Completes : Ledger → OutPoint → Prop} {cause : Cause} {l l' : Ledger}
  {root : Txid}

/-! ### The members of a family -/

/-- The transaction a mark creates for the family of `root`. -/
def Mark.member (root : Txid) : Mark → Option BTCPendingInfo
  | created info _ =>
    if info.state.isRefund = false ∧ info.root info.btcPendingId = root then some info else none
  | _ => none

/-- The original with the id `root` and its replacements, in the order of their creation. -/
def members (root : Txid) (log : List Mark) : List BTCPendingInfo :=
  log.filterMap (Mark.member root)

/-- The gas of the members of a family, in the order of their creation. -/
def gasFees (root : Txid) (log : List Mark) : List ℕ :=
  (members root log).map BTCPendingInfo.gasFee

theorem gasFees_append (log marks : List Mark) :
    gasFees root (log ++ marks) = gasFees root log ++ gasFees root marks := by
  unfold gasFees members
  rw [List.filterMap_append, List.map_append]

/-- Marks that create nothing for the family add nothing to its gas. -/
theorem gasFees_append_of_forall {log marks : List Mark}
    (h : ∀ m ∈ marks, m.member root = none) : gasFees root (log ++ marks) = gasFees root log := by
  have hmarks : members root marks = [] := List.filterMap_eq_nil_iff.mpr h
  rw [gasFees_append, gasFees, gasFees, hmarks, List.map_nil, List.append_nil]

/-- A mark that creates a member adds its gas. -/
theorem gasFees_append_of_member {log marks : List Mark} {info : BTCPendingInfo}
    (h : members root marks = [info]) :
    gasFees root (log ++ marks) = gasFees root log ++ [info.gasFee] := by
  rw [gasFees_append, gasFees, gasFees, h, List.map_singleton]

theorem Mark.member_created (root : Txid) {info : BTCPendingInfo} (payee : Option String)
    (hrefund : info.state.isRefund = false) : (Mark.created info payee).member root =
      if info.root info.btcPendingId = root then some info else none := by
  simp only [Mark.member, hrefund, true_and]

/-- The maximum on record for a pending original. -/
def Ledger.maxGasFee (l : Ledger) (root : Txid) : Option ℕ :=
  (l.pendings.lookup root).bind BTCPendingInfo.getMaxGasFee

/-- The gas of every family rises, to the maximum on record when its original is pending. -/
structure Ledger.FeesRise (l : Ledger) : Prop where
  rising : ∀ root, (gasFees root l.log).Pairwise (· < ·)
  greatest : ∀ root m, l.maxGasFee root = some m → IsGreatest {gas | gas ∈ gasFees root l.log} m

/-! ### One step -/

/-- How the gas of a family and the maximum on record change in a step. -/
inductive GasStep (host : Host) (root : Txid) (l l' : Ledger) : Prop
  | same (hgas : gasFees root l'.log = gasFees root l.log)
      (hmax : ∀ m, l'.maxGasFee root = some m → l.maxGasFee root = some m)
  | created (info : BTCPendingInfo) (payee : Option String) (rest : FiniteMap OutPoint UTXO)
      (hcreates : CreatesOriginal host l info payee rest) (hroot : info.btcPendingId = root)
      (hpending : l'.pendings.lookup root = some info)
      (hgas : gasFees root l'.log = gasFees root l.log ++ [info.gasFee])
  | replaced (o o' info : BTCPendingInfo) (payee : Option String) (extra : ℕ)
      (hreplaces : Replaces host l root o o' info payee extra)
      (hpending : l'.pendings.lookup root = some o')
      (hgas : gasFees root l'.log = gasFees root l.log ++ [info.gasFee])

/-- The maximum on record survives what does not touch it. -/
theorem maxGasFee_insert {pendings : FiniteMap Txid BTCPendingInfo} {id : Txid}
    {info : BTCPendingInfo} {m : ℕ} (hsame : ∀ m, info.getMaxGasFee = some m →
      (pendings.lookup id).bind BTCPendingInfo.getMaxGasFee = some m)
    (h : ((pendings.insert id info).lookup root).bind BTCPendingInfo.getMaxGasFee = some m) :
    (pendings.lookup root).bind BTCPendingInfo.getMaxGasFee = some m := by
  by_cases hid : root = id
  · subst hid
    rw [AList.lookup_insert, Option.bind_some] at h
    exact hsame m h
  · rwa [AList.lookup_insert_ne hid] at h

/-- What stays pending keeps its maximum on record. -/
theorem maxGasFee_of_kept {pendings rest : FiniteMap Txid BTCPendingInfo} {m : ℕ}
    (hkept : ∀ info, rest.lookup root = some info → pendings.lookup root = some info)
    (h : (rest.lookup root).bind BTCPendingInfo.getMaxGasFee = some m) :
    (pendings.lookup root).bind BTCPendingInfo.getMaxGasFee = some m := by
  obtain ⟨info, hinfo, hmax⟩ := Option.bind_eq_some_iff.mp h
  rw [hkept info hinfo, Option.bind_some]
  exact hmax

theorem BTCPendingInfo.getMaxGasFee_setStage (info : BTCPendingInfo) (stage : PendingInfoStage) :
    ({ info with state := info.state.setStage stage } : BTCPendingInfo).getMaxGasFee =
      info.getMaxGasFee := by
  unfold BTCPendingInfo.getMaxGasFee
  rw [PendingInfoState.originalState_setStage]
  cases info.state.originalState <;> rfl

theorem Signs.getMaxGasFee {old info : BTCPendingInfo} (h : Signs host old info) :
    info.getMaxGasFee = old.getMaxGasFee := by
  obtain ⟨psbt, signatures, nowSec, ⟨_, rfl⟩ | ⟨_, signed, _, rfl⟩⟩ := h.same
  · rfl
  · exact BTCPendingInfo.getMaxGasFee_setStage old .pendingVerify

/-- Only an original has a maximum on record. -/
theorem BTCPendingInfo.getMaxGasFee_eq_none {info : BTCPendingInfo}
    (h : info.state.originalTxId ≠ none ∨ info.state.isRefund = true) :
    info.getMaxGasFee = none := by
  unfold BTCPendingInfo.getMaxGasFee
  cases hstate : info.state with
  | withdrawOriginal s | activeUtxoManagementOriginal s =>
    rw [hstate] at h
    rcases h with hchild | hrefund
    · exact absurd rfl hchild
    · cases hrefund
  | withdrawUserRbf | withdrawCancelRbf | activeUtxoManagementRbf
  | activeUtxoManagementCancelRbf | refund => rfl

/-- The maximum on record for a new original is its own gas. -/
theorem CreatesOriginal.getMaxGasFee {info : BTCPendingInfo} {payee : Option String}
    {rest : FiniteMap OutPoint UTXO} (h : CreatesOriginal host l info payee rest) :
    info.getMaxGasFee = some info.gasFee := by
  unfold BTCPendingInfo.getMaxGasFee
  rcases h.kind with hstate | hstate
  · rw [hstate]
    rfl
  · rw [hstate]
    rfl

theorem Effect.gas_create {info : BTCPendingInfo} {payee : Option String}
    {rest : FiniteMap OutPoint UTXO} (hcreates : CreatesOriginal host l info payee rest)
    (hpendings : l'.pendings = l.pendings.insert info.btcPendingId info)
    (hlog : l'.log = l.log ++ [.utxoRemoved info.inputs info.btcPendingId, .created info payee]) :
    GasStep host root l l' := by
  have hmember := Mark.member_created root payee hcreates.isRefund
  rw [BTCPendingInfo.root_of_original hcreates.originalTxId] at hmember
  by_cases hroot : info.btcPendingId = root
  · rw [if_pos hroot] at hmember
    refine .created info payee rest hcreates hroot ?_ ?_
    · rw [hpendings, ← hroot]
      exact AList.lookup_insert _
    · rw [hlog]
      refine gasFees_append_of_member ?_
      rw [members, List.filterMap_cons_none rfl, List.filterMap_cons_some hmember,
        List.filterMap_nil]
  · rw [if_neg hroot] at hmember
    refine .same ?_ fun m hm ↦ ?_
    · rw [hlog]
      refine gasFees_append_of_forall fun m hm ↦ ?_
      rcases List.mem_cons.mp hm with rfl | hm
      · rfl
      · rw [List.mem_singleton.mp hm]
        exact hmember
    · unfold Ledger.maxGasFee at hm ⊢
      rwa [hpendings, AList.lookup_insert_ne (Ne.symm hroot)] at hm

theorem Effect.gas_replace {id : Txid} {o o' info : BTCPendingInfo} {payee : Option String}
    {extra : ℕ} (hreplaces : Replaces host l id o o' info payee extra)
    (hpendings : l'.pendings = (l.pendings.insert id o').insert info.btcPendingId info)
    (hlog : l'.log = l.log ++ [.created info payee]) : GasStep host root l l' := by
  obtain ⟨_, _, hchild, hrefund, _⟩ := hreplaces.states
  have hmember := Mark.member_created root payee hrefund
  rw [BTCPendingInfo.root_of_child hchild] at hmember
  by_cases hroot : id = root
  · subst hroot
    rw [if_pos rfl] at hmember
    refine .replaced o o' info payee extra hreplaces ?_ ?_
    · rw [hpendings, AList.lookup_insert_ne hreplaces.id_ne]
      exact AList.lookup_insert _
    · rw [hlog]
      refine gasFees_append_of_member ?_
      rw [members, List.filterMap_cons_some hmember, List.filterMap_nil]
  · rw [if_neg hroot] at hmember
    refine .same ?_ fun m hm ↦ ?_
    · rw [hlog]
      refine gasFees_append_of_forall fun m hm ↦ ?_
      rw [List.mem_singleton.mp hm]
      exact hmember
    · unfold Ledger.maxGasFee at hm ⊢
      rw [hpendings] at hm
      have hnone : info.getMaxGasFee = none :=
        BTCPendingInfo.getMaxGasFee_eq_none (Or.inl (by rw [hchild]; exact Option.some_ne_none id))
      have hm' := maxGasFee_insert (fun m hmax ↦ by rw [hnone] at hmax; cases hmax) hm
      rwa [AList.lookup_insert_ne (Ne.symm hroot)] at hm'

/-- The gas of a family changes when its original or a replacement is created, and only then. -/
theorem Effect.gas (h : Effect host Completes cause l l') (root : Txid) :
    GasStep host root l l' := by
  cases h with
  | create cause info payee rest fees accounts hcreates => exact gas_create hcreates rfl rfl
  | replace cause id o o' info payee extra fees hreplaces => exact gas_replace hreplaces rfl rfl
  | refund cause call request info nowSec accounts hcall hcreates =>
    have hrefund : info.state.isRefund = true := by
      rw [hcreates.kind]
      rfl
    have hnone : info.getMaxGasFee = none := BTCPendingInfo.getMaxGasFee_eq_none (Or.inr hrefund)
    refine .same (gasFees_append_of_forall fun m hm ↦ ?_) fun m hm ↦ ?_
    · rcases List.mem_cons.mp hm with rfl | hm
      · simp only [Mark.member, hrefund, Bool.true_eq_false, false_and, if_false]
      · rw [List.mem_singleton.mp hm]
        rfl
    · exact maxGasFee_insert (fun m hmax ↦ by rw [hnone] at hmax; cases hmax) hm
  | sign env accountId id signIndex payload path keyVersion result info info' hpending hsigns =>
    refine .same rfl fun m hm ↦ maxGasFee_insert (fun m hmax ↦ ?_) hm
    rw [hpending, Option.bind_some, ← hsigns.getMaxGasFee]
    exact hmax
  | attest env p burn result txId withdraw info hverifies hpending =>
    refine .same (gasFees_append_of_forall fun m hm ↦ ?_) fun m hm ↦
      maxGasFee_insert (fun m hmax ↦ ?_) hm
    · rw [List.mem_singleton.mp hm]
      rfl
    · rw [hpending, Option.bind_some, ← BTCPendingInfo.getMaxGasFee_setStage info .pendingBurn]
      exact hmax
  | burnFailed env p result txId info hburns hfailed hpending =>
    refine .same rfl fun m hm ↦ maxGasFee_insert (fun m hmax ↦ ?_) hm
    rw [hpending, Option.bind_some, ← BTCPendingInfo.getMaxGasFee_setStage info .pendingVerify]
    exact hmax
  | commitWithdraw | commitActive =>
    refine .same (gasFees_append_of_forall ?_) fun m hm ↦ maxGasFee_of_kept (fun info hinfo ↦ ?_) hm
    · simp [Mark.member]
    · exact (FiniteMap.lookup_of_erase (FiniteMap.lookup_of_erase hinfo).1).1
  | discard env method ids rest infos hbrings htakes =>
    refine .same rfl fun m hm ↦ maxGasFee_of_kept (fun info hinfo ↦ ?_) hm
    have hlookup := (FiniteMap.takeAll_spec htakes).2.2 root
    rw [hinfo] at hlookup
    split at hlookup
    · cases hlookup
    · exact hlookup.symm
  | finalizeRefund =>
    refine .same (gasFees_append_of_forall ?_) fun m hm ↦
      maxGasFee_of_kept (fun info hinfo ↦ (FiniteMap.lookup_of_erase hinfo).1) hm
    simp [Mark.member]
  | lose p result =>
    refine .same (gasFees_append_of_forall fun m hm ↦ ?_) fun m hm ↦ hm
    obtain ⟨_, _, heq⟩ := Promise.mem_lostMarks.mp hm
    rw [heq]
    rfl
  | configure | ignore | setKey | issue | collectFee | claim | transferFailed | withdrawFee
  | feeFailed | reject => exact .same rfl fun m hm ↦ hm
  | begin | finish | revert | complete | request =>
    refine .same (gasFees_append_of_forall ?_) fun m hm ↦ hm
    simp [Mark.member]

/-! ### Every run -/

theorem Ledger.FeesRise.initial (h : l.Initial) : l.FeesRise where
  rising := by
    intro root
    rw [h.log]
    exact List.Pairwise.nil
  greatest := by
    intro root m hm
    rw [Ledger.maxGasFee, h.pendings] at hm
    cases hm

/-- A step keeps the gas rising when an original is created only for a new family. -/
theorem Ledger.FeesRise.step (hchain : host.zcash = false)
    (hnew : ∀ info payee rest, CreatesOriginal host l info payee rest →
      gasFees info.btcPendingId l.log = [])
    (hl : l.FeesRise) (h : Effect host Completes cause l l') : l'.FeesRise := by
  have hrises (root : Txid) (hstep : GasStep host root l l') :
      (gasFees root l'.log).Pairwise (· < ·) ∧
        ∀ m, l'.maxGasFee root = some m → IsGreatest {gas | gas ∈ gasFees root l'.log} m := by
    cases hstep with
    | same hgas hmax =>
      rw [hgas]
      exact ⟨hl.rising root, fun m hm ↦ hl.greatest root m (hmax m hm)⟩
    | created info payee rest hcreates hroot hpending hgas =>
      rw [← hroot, hnew info payee rest hcreates, List.nil_append, hroot] at hgas
      have hrisen := RisesTo.singleton info.gasFee
      rw [← hgas] at hrisen
      refine ⟨hrisen.rising, fun m hm ↦ ?_⟩
      rw [Ledger.maxGasFee, hpending, Option.bind_some, hcreates.getMaxGasFee,
        Option.some.injEq] at hm
      rw [← hm]
      exact hrisen.greatest
    | replaced o o' info payee extra hreplaces hpending hgas =>
      obtain ⟨maxGasFee, hmax, hmore, hnext⟩ := hreplaces.gas hchain
      have hbefore : l.maxGasFee root = some maxGasFee := by
        rw [Ledger.maxGasFee, hreplaces.original, Option.bind_some, hmax]
      have hrisen : RisesTo (gasFees root l'.log) info.gasFee := by
        rw [hgas]
        exact RisesTo.append ⟨hl.rising root, hl.greatest root maxGasFee hbefore⟩ hmore
      refine ⟨hrisen.rising, fun m hm ↦ ?_⟩
      rw [Ledger.maxGasFee, hpending, Option.bind_some, hnext, Option.some.injEq] at hm
      rw [← hm]
      exact hrisen.greatest
  exact ⟨fun root ↦ (hrises root (h.gas root)).1, fun root ↦ (hrises root (h.gas root)).2⟩

/-- The coins of a family that has members are spent. -/
theorem Ledger.Reached.family_claimed (laws : host.Lawful)
    (h : Ledger.Reached host Ledger.Unfinished l) :
    ∀ root, gasFees root l.log ≠ [] → l.Claimed host root := by
  have hinit : ∀ l : Ledger, l.Initial →
      ∀ root, gasFees root l.log ≠ [] → l.Claimed host root := by
    intro l h₀ root hmembers
    rw [h₀.log] at hmembers
    exact absurd rfl hmembers
  refine Ledger.Reached.induct hinit (fun cause l l' hreached hl heffect ↦ ?_) l h
  intro root hmembers
  cases heffect.gas root with
  | same hgas =>
    rw [hgas] at hmembers
    exact heffect.claimed (hl root hmembers)
  | created _ _ _ _ _ hpending | replaced _ _ _ _ _ _ hpending =>
    exact (hreached.step heffect).claimed laws hpending

/-- While only unfinished deposits are completed by hand, the gas of every family rises. -/
theorem Ledger.Reached.feesRise (laws : host.Lawful) (hchain : host.zcash = false)
    (h : Ledger.Reached host Ledger.Unfinished l) : l.FeesRise := by
  refine Ledger.Reached.induct (fun l h₀ ↦ .initial h₀)
    (fun cause l l' hreached hl heffect ↦ ?_) l h
  have hrises : l.FeesRise := ⟨hl.rising, hl.greatest⟩
  refine hrises.step hchain (fun info payee rest hcreates ↦ ?_) heffect
  by_contra hmembers
  -- The coins of the family would be spent and stored at once.
  have hlives := hreached.lives laws
  exact hcreates.not_claimed (hreached.spending laws).of_before
    (fun key hkey ↦ ((hlives.life key).refunded hkey).2) (hreached.family_claimed laws _ hmembers)

end SatoshiBridge

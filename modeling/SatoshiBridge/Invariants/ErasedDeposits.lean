import SatoshiBridge.Invariants.DepositRuns

/-!
# Runs with a deposit erased

Two runs take the same steps, except that one of them has accepted a deposit more, the lead. As long
as its mint is in flight the books of the two differ by the outpoint of the lead and the rings by
its amount. When the mint fails the lead is gone: the books are equal again, and the rings read the
same at every block that is not too deep to be rejected.
-/

set_option autoImplicit false
set_option relaxedAutoImplicit false

namespace SatoshiBridge

variable {host : Host}

/-! ### Taking a deposit out of the books -/

namespace DepositBooks

variable {books : DepositBooks} {info other : PendingUTXOInfo}

/-- A failed mint undoes what its verification wrote. -/
theorem revert_begin (hverified : info.utxoStorageKey ∉ books.verified)
    (hprogress : info.utxoStorageKey ∉ books.inProgress) :
    (books.begin info).revert info = books := by
  have hlookup := AList.lookup_eq_none.mpr hprogress
  unfold revert begin
  dsimp only
  rw [FiniteMap.erase_insert_self, FiniteMap.erase_of_lookup_none hlookup,
    Finset.erase_insert hverified]

theorem begin_revert_comm (h : info.utxoStorageKey ≠ other.utxoStorageKey) :
    (books.begin other).revert info = (books.revert info).begin other := by
  unfold revert begin
  dsimp only
  rw [FiniteMap.erase_insert_ne _ _ h, Finset.erase_insert_of_ne h.symm]

theorem finish_revert_comm (fee : ℕ) :
    (books.finish other fee).revert info = (books.revert info).finish other fee := by
  unfold revert finish
  dsimp only
  rw [AList.erase_erase]

theorem revert_revert_comm :
    (books.revert other).revert info = (books.revert info).revert other := by
  unfold revert
  dsimp only
  rw [AList.erase_erase, Finset.erase_right_comm]

end DepositBooks

/-! ### Steps beside the deposits -/

/-- What an operation elsewhere in the contract does to the books: it edits the UTXO set and the
fees, and an executed refund claims outpoints. -/
structure BooksEdit where
  utxos : FiniteMap OutPoint UTXO → FiniteMap OutPoint UTXO
  fees : Fees → Fees
  claimed : Finset OutPoint

def Contract.edit (c : Contract) (e : BooksEdit) : Contract :=
  { c with
    utxos := e.utxos c.utxos
    verifiedDepositUtxo := c.verifiedDepositUtxo ∪ e.claimed
    accCollectedProtocolFee := (e.fees c.fees).collected
    curAvailableProtocolFee := (e.fees c.fees).available
    accClaimedProtocolFee := (e.fees c.fees).claimed
    curReservedProtocolFee := (e.fees c.fees).reserved
    accProtocolFeeForGas := (e.fees c.fees).forGas }

/-- The books are edited accordingly. -/
theorem Contract.books_edit (c : Contract) (e : BooksEdit) :
    (c.edit e).books = ⟨c.books.verified ∪ e.claimed, e.utxos c.books.utxos, c.books.inProgress,
      e.fees c.books.fees⟩ := rfl

theorem Contract.edit_beside (c : Contract) (e : BooksEdit) : c.Beside (c.edit e) :=
  ⟨rfl, rfl, rfl, rfl, Finset.subset_union_left, fun _ hkey ↦ hkey⟩

/-- A step of a run: a deposit callback or an operation elsewhere. -/
inductive RunStep
  | deposit (a : DepositAction)
  | elsewhere (e : BooksEdit)

/-- The step is the outcome of that mint. -/
def RunStep.Settles (mint : Promise) : RunStep → Prop
  | .deposit (.settle _ p _) => p = mint
  | _ => False

/-- `get_confirmations` answers for every amount, or for none. -/
def Config.AnswersAlike (config : Config) : Prop :=
  ∀ a b, (config.getConfirmations a).isSome = (config.getConfirmations b).isSome

namespace DepositRun

variable (host : Host) (r : DepositRun)

def after : RunStep → DepositRun
  | .deposit a => r.next host a
  | .elsewhere e => { r with contract := r.contract.edit e }

/-- Whether a step is accepted. -/
def decision : RunStep → Bool
  | .deposit a => (r.exec host a).isSome
  | .elsewhere _ => true

/-- Tips never go back, blocks are not above the tip, and the delta is one the configuration
gives. -/
def Timely : DepositAction → Prop
  | .verify _ p inclusion => r.tip ≤ inclusion.mainchainTipHeight ∧
    inclusion.txBlockHeight ≤ inclusion.mainchainTipHeight ∧
    ∀ info delta, p.checks = some (info, delta) →
      delta ≤ max r.contract.config.confirmationsDelta r.contract.config.extraMsgConfirmationsDelta
  | .settle .. => True

/-- The steps a run may take next. -/
def Allowed : RunStep → Prop
  | .deposit a => r.Fits a ∧ r.Timely a
  | .elsewhere e => ∀ key ∈ e.claimed, key ∉ r.contract.verifiedDepositUtxo

def run : DepositRun → List RunStep → DepositRun
  | r, [] => r
  | r, s :: rest => run (r.after host s) rest

def decisions : DepositRun → List RunStep → List Bool
  | _, [] => []
  | r, s :: rest => r.decision host s :: decisions (r.after host s) rest

/-- Every step of the list is one the run may take. -/
def Admits : DepositRun → List RunStep → Prop
  | _, [] => True
  | r, s :: rest => r.Allowed s ∧ Admits (r.after host s) rest

end DepositRun

/-- A deposit one run is ahead by, whose mint is in flight. -/
structure Lead where
  mint : Promise
  info : PendingUTXOInfo
  deposit : BlockDeposit
  mintInfo : mint.mintInfo = some info
  counted : mint.counted = some deposit

/-- The amounts a run is ahead by. -/
def Lead.extra (lead : Option Lead) (blockHeight : ℕ) : ℕ :=
  lead.elim 0 fun l ↦ l.deposit.share blockHeight

/-- The books without the deposit that is ahead. -/
def Lead.without (lead : Option Lead) (books : DepositBooks) : DepositBooks :=
  lead.elim books fun l ↦ books.revert l.info

/-- The first run is ahead of the second by the lead, and by nothing else that a deposit reads. -/
structure Lead.Leads (lead : Option Lead) (x y : DepositRun) : Prop where
  config : x.contract.config = y.contract.config
  books : y.contract.books = without lead x.contract.books
  claimed : ∀ l ∈ lead, l.info.utxoStorageKey ∈ x.contract.verifiedDepositUtxo
  mints : x.mints.Perm (lead.toList.map Lead.mint ++ y.mints)
  kept : ∀ blockHeight, blockSum x.kept blockHeight = extra lead blockHeight +
    blockSum y.kept blockHeight
  tip : y.tip ≤ x.tip
  below : ∀ l ∈ lead, l.deposit.blockHeight ≤ x.tip
  ring : BlockAmountRing.Offset (extra lead) x.tip x.ring y.ring

namespace Lead

open DepositRun

variable {lead : Option Lead} {x y x' y' : DepositRun}

theorem le_of_extra_ne_zero (h : Leads lead x y) {blockHeight : ℕ}
    (hne : extra lead blockHeight ≠ 0) : blockHeight ≤ x.tip := by
  cases hlead : lead with
  | none =>
    rw [hlead] at hne
    exact absurd rfl hne
  | some l =>
    rw [hlead] at hne
    have hbelow := h.below l hlead
    have hsame : l.deposit.blockHeight = blockHeight := by
      by_contra hother
      exact hne (if_neg hother)
    rw [← hsame]
    exact hbelow

/-- A verification that both runs accept. -/
theorem Leads.verify (h : Leads lead x y) (hx : x.Sound) (hy : y.Sound) {env : Env} {p : Promise}
    {inclusion : TxInclusionInfo} {info : PendingUTXOInfo} {delta required required' : ℕ}
    (htip : x.tip ≤ inclusion.mainchainTipHeight)
    (hsum : blockSum x.kept inclusion.txBlockHeight + info.utxo.balance ≤ u128Max)
    (hxstep : VerifyStep host env x x' p inclusion info delta required)
    (hystep : VerifyStep host env y y' p inclusion info delta required') : Leads lead x' y' := by
  have hfresh := hxstep.accepts.fresh
  have hne : ∀ l ∈ lead, l.info.utxoStorageKey ≠ info.utxoStorageKey := by
    intro l hl heq
    rw [← heq] at hfresh
    exact hfresh (h.claimed l hl)
  have hverified : x'.contract.verifiedDepositUtxo =
      insert info.utxoStorageKey x.contract.verifiedDepositUtxo :=
    congrArg DepositBooks.verified hxstep.books
  have hkept := h.kept inclusion.txBlockHeight
  refine ⟨?_, ?_, ?_, ?_, ?_, ?_, ?_, ?_⟩
  · rw [hxstep.config, hystep.config]
    exact h.config
  · rw [hxstep.books, hystep.books, h.books]
    cases lead with
    | none => rfl
    | some l => exact (DepositBooks.begin_revert_comm (hne l rfl)).symm
  · intro l hl
    rw [hverified]
    exact Finset.mem_insert_of_mem (h.claimed l hl)
  · rw [hxstep.mints, hystep.mints, h.config]
    exact (h.mints.cons _).trans List.perm_middle.symm
  · intro blockHeight
    rw [hxstep.kept, hystep.kept, blockSum_cons, blockSum_cons, h.kept]
    omega
  · rw [hxstep.tip, hystep.tip]
  · intro l hl
    rw [hxstep.tip]
    exact le_trans (h.below l hl) htip
  · rw [hxstep.ring, hystep.ring, hxstep.tip]
    refine (h.ring.mono htip).bump hy.capacity_pos ?_ ?_ ?_
    · intro blockHeight hextra
      exact le_trans (le_of_extra_ne_zero h hextra) htip
    · intro total htotal
      rw [hx.standing _ _ htotal]
      exact hsum
    · intro total htotal
      rw [hy.standing _ _ htotal]
      omega

/-- A verification that both runs reject. -/
theorem Leads.skip (h : Leads lead x y) {env : Env} {p : Promise} {inclusion : TxInclusionInfo}
    (htip : x.tip ≤ inclusion.mainchainTipHeight) :
    Leads lead (x.skip (.verify env p inclusion)) (y.skip (.verify env p inclusion)) :=
  ⟨h.config, h.books, h.claimed, h.mints, h.kept, le_refl _,
    fun l hl ↦ le_trans (h.below l hl) htip, h.ring.mono htip⟩

/-- Another mint is answered in both runs. -/
theorem Leads.mints_erase (h : Leads lead x y) {p : Promise} (hother : ∀ l ∈ lead, l.mint ≠ p) :
    (x.mints.erase p).Perm (lead.toList.map Lead.mint ++ y.mints.erase p) := by
  have hnot : p ∉ lead.toList.map Lead.mint := by
    intro hmem
    obtain ⟨l, hl, heq⟩ := List.mem_map.mp hmem
    exact hother l (Option.mem_toList.mp hl) heq
  have herase := h.mints.erase p
  rw [List.erase_append_right _ hnot] at herase
  exact herase

/-- An outcome of another mint. -/
theorem Leads.settle (h : Leads lead x y) (hx : x.Sound) (hy : y.Sound) {p : Promise}
    {minted : Bool} {info : PendingUTXOInfo} {d : BlockDeposit} (hp : p ∈ y.mints)
    (hother : ∀ l ∈ lead, l.mint ≠ p) (hinfo : p.mintInfo = some info)
    (hd : p.counted = some d) (hxstep : SettleStep x x' p minted info d)
    (hystep : SettleStep y y' p minted info d) : Leads lead x' y' := by
  have hpx : p ∈ x.mints := h.mints.mem_iff.mpr (List.mem_append_right _ hp)
  have hne : ∀ l ∈ lead, l.info.utxoStorageKey ≠ info.utxoStorageKey := by
    intro l hl heq
    have hmem : l.mint ∈ x.mints := by
      refine h.mints.mem_iff.mpr (List.mem_append_left _ ?_)
      exact List.mem_map_of_mem (Option.mem_toList.mpr hl)
    refine hx.mintKey_ne hpx ((List.mem_erase_of_ne (hother l hl)).mpr hmem) ?_
    rw [Promise.mintKey, Promise.mintKey, l.mintInfo, hinfo, Option.map_some, Option.map_some,
      heq]
  have hmints : x'.mints.Perm (lead.toList.map Lead.mint ++ y'.mints) := by
    rw [hxstep.mints, hystep.mints]
    exact h.mints_erase hother
  have htip : y'.tip ≤ x'.tip := by
    rw [hxstep.tip, hystep.tip]
    exact h.tip
  have hbelow : ∀ l ∈ lead, l.deposit.blockHeight ≤ x'.tip := by
    rw [hxstep.tip]
    exact h.below
  have hconfig : x'.contract.config = y'.contract.config := by
    rw [hxstep.config, hystep.config]
    exact h.config
  cases minted with
  | true =>
    have hxbooks : x'.contract.books = x.contract.books.finish info p.mintFee := hxstep.books
    have hybooks : y'.contract.books = y.contract.books.finish info p.mintFee := hystep.books
    have hverified : x'.contract.verifiedDepositUtxo = x.contract.verifiedDepositUtxo :=
      congrArg DepositBooks.verified hxbooks
    have hxring : x'.ring = x.ring := hxstep.ring
    have hyring : y'.ring = y.ring := hystep.ring
    have hxkept : x'.kept = x.kept := hxstep.kept
    have hykept : y'.kept = y.kept := hystep.kept
    refine ⟨hconfig, ?_, ?_, hmints, ?_, htip, hbelow, ?_⟩
    · rw [hxbooks, hybooks, h.books]
      cases lead with
      | none => rfl
      | some l => exact (DepositBooks.finish_revert_comm _).symm
    · rw [hverified]
      exact h.claimed
    · rw [hxkept, hykept]
      exact h.kept
    · rw [hxring, hyring, hxstep.tip]
      exact h.ring
  | false =>
    have hxbooks : x'.contract.books = x.contract.books.revert info := hxstep.books
    have hybooks : y'.contract.books = y.contract.books.revert info := hystep.books
    have hverified : x'.contract.verifiedDepositUtxo =
        x.contract.verifiedDepositUtxo.erase info.utxoStorageKey :=
      congrArg DepositBooks.verified hxbooks
    have hxring : x'.ring = x.ring.unbump d.blockHeight d.amount := hxstep.ring
    have hyring : y'.ring = y.ring.unbump d.blockHeight d.amount := hystep.ring
    have hxkept : x'.kept = x.kept.erase d := hxstep.kept
    have hykept : y'.kept = y.kept.erase d := hystep.kept
    have hymem := hy.mem_kept hp hd
    refine ⟨hconfig, ?_, ?_, hmints, ?_, htip, hbelow, ?_⟩
    · rw [hxbooks, hybooks, h.books]
      cases lead with
      | none => rfl
      | some l => exact DepositBooks.revert_revert_comm.symm
    · intro l hl
      rw [hverified]
      exact Finset.mem_erase.mpr ⟨hne l hl, h.claimed l hl⟩
    · intro blockHeight
      rw [hxkept, hykept]
      have hxsplit := blockSum_erase (hx.mem_kept hpx hd) blockHeight
      have hysplit := blockSum_erase hymem blockHeight
      have hsum := h.kept blockHeight
      omega
    · rw [hxring, hyring, hxstep.tip]
      refine h.ring.unbump hy.capacity_pos fun total htotal ↦ ?_
      have hysplit := blockSum_erase hymem d.blockHeight
      rw [BlockDeposit.share, if_pos rfl] at hysplit
      rw [hy.standing _ _ htotal]
      omega

/-- An outcome of another mint that neither run has room for. -/
theorem Leads.skip_settle (h : Leads lead x y) (env : Env) {p : Promise} (result : PromiseResult)
    (hother : ∀ l ∈ lead, l.mint ≠ p) :
    Leads lead (x.skip (.settle env p result)) (y.skip (.settle env p result)) :=
  ⟨h.config, h.books, h.claimed, h.mints_erase hother, h.kept, h.tip, h.below, h.ring⟩

/-- Both runs have room for the same fees. -/
theorem Leads.roomFor_iff (h : Leads lead x y) (p : Promise) (result : PromiseResult) :
    x.contract.RoomFor p result ↔ y.contract.RoomFor p result := by
  have hfees : y.contract.fees = x.contract.fees := by
    refine (congrArg DepositBooks.fees h.books).trans ?_
    cases lead with
    | none => rfl
    | some l => rfl
  unfold Contract.RoomFor
  rw [hfees]

/-- The mint of the lead fails. -/
theorem Leads.take_back {l : Lead} (h : Leads (some l) x y) (hx : x.Sound) (hy : y.Sound)
    (hstep : SettleStep x x' l.mint false l.info l.deposit) : Leads none x' y := by
  have hbooks : x'.contract.books = x.contract.books.revert l.info := hstep.books
  have hring : x'.ring = x.ring.unbump l.deposit.blockHeight l.deposit.amount := hstep.ring
  have hkept : x'.kept = x.kept.erase l.deposit := hstep.kept
  have hmem : l.mint ∈ x.mints := h.mints.mem_iff.mpr List.mem_cons_self
  refine ⟨?_, ?_, ?_, ?_, ?_, ?_, ?_, ?_⟩
  · rw [hstep.config]
    exact h.config
  · rw [hbooks]
    exact h.books
  · exact fun l' hl' ↦ absurd hl' (Option.not_mem_none l')
  · rw [hstep.mints]
    have herase := h.mints.erase l.mint
    change List.Perm _ ((l.mint :: y.mints).erase l.mint) at herase
    rw [List.erase_cons_head] at herase
    exact herase
  · intro blockHeight
    rw [hkept]
    have hsplit := blockSum_erase (hx.mem_kept hmem l.counted) blockHeight
    have hsum : blockSum x.kept blockHeight = l.deposit.share blockHeight +
      blockSum y.kept blockHeight := h.kept blockHeight
    change blockSum (x.kept.erase l.deposit) blockHeight = 0 + blockSum y.kept blockHeight
    omega
  · rw [hstep.tip]
    exact h.tip
  · exact fun l' hl' ↦ absurd hl' (Option.not_mem_none l')
  · rw [hring, hstep.tip]
    exact BlockAmountRing.Offset.take_back h.ring hy.capacity_pos

/-- An operation elsewhere. -/
theorem Leads.edit (h : Leads lead x y) {e : BooksEdit}
    (hfresh : ∀ key ∈ e.claimed, key ∉ x.contract.verifiedDepositUtxo) :
    Leads lead { x with contract := x.contract.edit e }
      { y with contract := y.contract.edit e } := by
  refine ⟨h.config, ?_, ?_, h.mints, h.kept, h.tip, h.below, h.ring⟩
  · rw [Contract.books_edit, Contract.books_edit, h.books]
    cases hlead : lead with
    | none => rfl
    | some l =>
      have hkey : l.info.utxoStorageKey ∉ e.claimed := fun hmem ↦
        hfresh _ hmem (h.claimed l hlead)
      unfold without DepositBooks.revert
      dsimp only [Option.elim_some]
      rw [Finset.erase_union_distrib, Finset.erase_eq_of_notMem hkey]
  · intro l hl
    exact Finset.mem_union_left _ (h.claimed l hl)

/-- What an accepted verification puts ahead. -/
theorem leads_of_verify (hy : y.Sound) {env : Env} {p : Promise} {inclusion : TxInclusionInfo}
    {info : PendingUTXOInfo} {delta required : ℕ} (htip : y.tip ≤ inclusion.mainchainTipHeight)
    (hblock : inclusion.txBlockHeight ≤ inclusion.mainchainTipHeight)
    (hsum : blockSum y.kept inclusion.txBlockHeight + info.utxo.balance ≤ u128Max)
    (hstep : VerifyStep host env y x p inclusion info delta required) :
    ∃ l : Lead, l.mint = p.mintOf host y.contract.config.nbtcAccountId env.signer
      inclusion.txBlockHeight ∧ Leads (some l) x y := by
  obtain ⟨hmintInfo, hcounted⟩ := Promise.mintOf_spec hstep.checks host
    y.contract.config.nbtcAccountId env.signer inclusion.txBlockHeight
  refine ⟨⟨_, info, ⟨inclusion.txBlockHeight, info.utxo.balance⟩, hmintInfo, hcounted⟩, rfl, ?_⟩
  have hfresh := hstep.accepts.fresh
  have hverified : x.contract.verifiedDepositUtxo =
      insert info.utxoStorageKey y.contract.verifiedDepositUtxo :=
    congrArg DepositBooks.verified hstep.books
  refine ⟨hstep.config, ?_, ?_, ?_, ?_, ?_, ?_, ?_⟩
  · rw [hstep.books]
    exact (DepositBooks.revert_begin hfresh fun hmem ↦ hfresh (hy.inProgress _ hmem)).symm
  · intro l hl
    rw [Option.mem_some_iff] at hl
    rw [← hl, hverified]
    exact Finset.mem_insert_self _ _
  · rw [hstep.mints]
    exact List.Perm.refl _
  · intro blockHeight
    rw [hstep.kept, blockSum_cons]
    rfl
  · rw [hstep.tip]
    exact htip
  · intro l hl
    rw [Option.mem_some_iff] at hl
    rw [← hl, hstep.tip]
    exact hblock
  · rw [hstep.ring, hstep.tip]
    refine BlockAmountRing.Offset.of_bump hy.capacity_pos hblock fun total htotal ↦ ?_
    rw [hy.standing _ _ htotal]
    exact hsum

/-! ### Decisions -/

/-- A block that is a capacity below the tip is deep enough for every tier. -/
theorem accepts_of_deep {r : DepositRun} (h : r.Sound) {info : PendingUTXOInfo} {delta : ℕ}
    {inclusion : TxInclusionInfo}
    (hdelta : delta ≤ max r.contract.config.confirmationsDelta
      r.contract.config.extraMsgConfirmationsDelta)
    (hdeep : inclusion.txBlockHeight + r.ring.capacity ≤ inclusion.mainchainTipHeight) :
    (∃ required, r.contract.Accepts info delta inclusion required) ↔
      info.utxoStorageKey ∉ r.contract.verifiedDepositUtxo ∧
        (r.contract.config.getConfirmations ((r.ring.bump inclusion.txBlockHeight
          info.utxo.balance).2.getD u128Max)).isSome := by
  constructor
  · rintro ⟨required, haccepts⟩
    exact ⟨haccepts.fresh, Option.isSome_of_eq_some haccepts.tier⟩
  · rintro ⟨hfresh, hanswers⟩
    obtain ⟨required, htier⟩ := Option.isSome_iff_exists.mp hanswers
    refine ⟨required, hfresh, htier, ?_⟩
    have hle := Config.getConfirmations_le_maxTier htier
    rw [h.capacity, BlockAmountRing.capacityFor] at hdeep
    omega

/-- When nothing is ahead any more, both runs accept the same deposits. -/
theorem Leads.accepts_iff (h : Leads none x y) (hx : x.Sound) (hy : y.Sound)
    (halike : x.contract.config.AnswersAlike) {info : PendingUTXOInfo} {delta : ℕ}
    {inclusion : TxInclusionInfo} (htip : x.tip ≤ inclusion.mainchainTipHeight)
    (hdelta : delta ≤ max x.contract.config.confirmationsDelta
      x.contract.config.extraMsgConfirmationsDelta)
    (hsum : blockSum x.kept inclusion.txBlockHeight + info.utxo.balance ≤ u128Max) :
    (∃ required, x.contract.Accepts info delta inclusion required) ↔
      ∃ required, y.contract.Accepts info delta inclusion required := by
  have hverified : y.contract.verifiedDepositUtxo = x.contract.verifiedDepositUtxo :=
    congrArg DepositBooks.verified h.books
  by_cases hrecent : inclusion.mainchainTipHeight < inclusion.txBlockHeight + y.ring.capacity
  · -- The block reads the same in both rings, so the same tier is asked for.
    have hstanding := (h.ring.mono htip).recent _ hrecent
    have hzero : extra none inclusion.txBlockHeight = 0 := rfl
    simp only [hzero, Nat.add_zero, Option.map_id'] at hstanding
    have hbump : (x.ring.bump inclusion.txBlockHeight info.utxo.balance).2 =
        (y.ring.bump inclusion.txBlockHeight info.utxo.balance).2 := by
      have hxsum : ∀ total, x.ring.standing inclusion.txBlockHeight = some total →
          total + info.utxo.balance ≤ u128Max := by
        intro total htotal
        rw [hx.standing _ _ htotal]
        exact hsum
      rw [BlockAmountRing.bump_reads hxsum, BlockAmountRing.bump_reads, hstanding]
      rw [← hstanding]
      exact hxsum
    have hiff (required : ℕ) : x.contract.Accepts info delta inclusion required ↔
        y.contract.Accepts info delta inclusion required := by
      constructor
      · intro haccepts
        refine ⟨?_, ?_, haccepts.deep⟩
        · rw [hverified]
          exact haccepts.fresh
        · rw [← h.config, ← haccepts.tier]
          exact congrArg (fun read : Option ℕ ↦
            x.contract.config.getConfirmations (read.getD u128Max)) hbump.symm
      · intro haccepts
        refine ⟨?_, ?_, haccepts.deep⟩
        · rw [← hverified]
          exact haccepts.fresh
        · rw [h.config, ← haccepts.tier]
          exact congrArg (fun read : Option ℕ ↦
            y.contract.config.getConfirmations (read.getD u128Max)) hbump
    exact exists_congr hiff
  · have hdeep := not_lt.mp hrecent
    rw [accepts_of_deep hx hdelta (by rw [h.ring.capacity]; exact hdeep),
      accepts_of_deep hy (by rw [← h.config]; exact hdelta) hdeep, hverified, h.config]
    rw [h.config] at halike
    rw [halike]

/-- When nothing is ahead any more, both runs decide alike. -/
theorem Leads.decision (h : Leads none x y) (hx : x.Sound) (hy : y.Sound)
    (halike : x.contract.config.AnswersAlike) {s : RunStep} (hallowed : x.Allowed s) :
    x.decision host s = y.decision host s := by
  cases s with
  | elsewhere e => rfl
  | deposit a =>
    cases a with
    | verify env p inclusion =>
      obtain ⟨⟨info, delta, hchecks, hsum⟩, htip, _, hdelta⟩ := hallowed
      unfold DepositRun.decision
      dsimp only
      rw [Bool.eq_iff_iff, exec_verify_isSome hchecks, exec_verify_isSome hchecks]
      exact h.accepts_iff hx hy halike htip (hdelta info delta hchecks) hsum
    | settle env p result =>
      obtain ⟨info, d, hinfo, hd, _⟩ := hx.mints p hallowed.1
      unfold DepositRun.decision
      dsimp only
      rw [Bool.eq_iff_iff, exec_settle_isSome hinfo hd, exec_settle_isSome hinfo hd]
      exact h.roomFor_iff p result

/-! ### Runs -/

/-- What the first run may do the second may do as well. -/
theorem Leads.allowed (h : Leads lead x y) {s : RunStep} (hallowed : x.Allowed s)
    (hother : ∀ l ∈ lead, ¬s.Settles l.mint) : y.Allowed s := by
  cases s with
  | elsewhere e =>
    intro key hkey hmem
    refine hallowed key hkey ?_
    have hverified := congrArg DepositBooks.verified h.books
    change y.contract.verifiedDepositUtxo = _ at hverified
    rw [hverified] at hmem
    cases lead with
    | none => exact hmem
    | some l => exact Finset.mem_of_mem_erase hmem
  | deposit a =>
    cases a with
    | verify env p inclusion =>
      obtain ⟨⟨info, delta, hchecks, hsum⟩, htip, hblock, hdelta⟩ := hallowed
      have hkept := h.kept inclusion.txBlockHeight
      refine ⟨⟨info, delta, hchecks, by omega⟩, le_trans h.tip htip, hblock, ?_⟩
      rw [← h.config]
      exact hdelta
    | settle env p result =>
      refine ⟨?_, trivial⟩
      rcases List.mem_append.mp (h.mints.mem_iff.mp hallowed.1) with hlead | hmem
      · obtain ⟨l, hl, heq⟩ := List.mem_map.mp hlead
        exact absurd heq.symm (hother l (Option.mem_toList.mp hl))
      · exact hmem

theorem sound_after {r : DepositRun} (h : r.Sound) {s : RunStep} (hallowed : r.Allowed s) :
    (r.after host s).Sound := by
  cases s with
  | deposit a => exact h.next hallowed.1
  | elsewhere e => exact h.elsewhere (Contract.edit_beside _ _)

/-- A step both runs decide alike. -/
theorem Leads.step (h : Leads lead x y) (hx : x.Sound) (hy : y.Sound) {s : RunStep}
    (hallowed : x.Allowed s) (hother : ∀ l ∈ lead, ¬s.Settles l.mint)
    (hsame : x.decision host s = y.decision host s) :
    Leads lead (x.after host s) (y.after host s) := by
  have hyallowed := h.allowed hallowed hother
  cases s with
  | elsewhere e => exact h.edit hallowed
  | deposit a =>
    unfold DepositRun.after DepositRun.next
    unfold DepositRun.decision at hsame
    dsimp only at hsame ⊢
    cases a with
    | verify env p inclusion =>
      obtain ⟨⟨info, delta, hchecks, hsum⟩, htip, _, _⟩ := hallowed
      cases hxexec : x.exec host (.verify env p inclusion) with
      | none =>
        rw [hxexec] at hsame
        have hnone : y.exec host (.verify env p inclusion) = none :=
          Option.isNone_iff_eq_none.mp (Option.isSome_eq_false_iff.mp hsame.symm)
        rw [hnone]
        exact @Leads.skip lead x y h env p inclusion htip
      | some x' =>
        rw [hxexec] at hsame
        obtain ⟨y', hyexec⟩ := Option.isSome_iff_exists.mp hsame.symm
        rw [hyexec]
        obtain ⟨info₁, delta₁, required, hxstep⟩ := exec_verify hxexec
        obtain ⟨info₂, delta₂, required', hystep⟩ := exec_verify hyexec
        have hxchecks := hchecks.symm.trans hxstep.checks
        have hychecks := hchecks.symm.trans hystep.checks
        cases hxchecks
        cases hychecks
        exact h.verify hx hy htip hsum hxstep hystep
    | settle env p result =>
      obtain ⟨info, d, hinfo, hd, _⟩ := hx.mints p hallowed.1
      have hne : ∀ l ∈ lead, l.mint ≠ p := fun l hl heq ↦ hother l hl heq.symm
      cases hxexec : x.exec host (.settle env p result) with
      | none =>
        rw [hxexec] at hsame
        have hnone : y.exec host (.settle env p result) = none :=
          Option.isNone_iff_eq_none.mp (Option.isSome_eq_false_iff.mp hsame.symm)
        rw [hnone]
        exact h.skip_settle env result hne
      | some x' =>
        rw [hxexec] at hsame
        obtain ⟨y', hyexec⟩ := Option.isSome_iff_exists.mp hsame.symm
        rw [hyexec]
        exact h.settle hx hy hyallowed.1 hne hinfo hd (exec_settle hinfo hd hxexec)
          (exec_settle hinfo hd hyexec)

/-- Steps both runs decide alike. -/
theorem Leads.run {steps : List RunStep} : ∀ {x y : DepositRun}, Leads lead x y → x.Sound →
    y.Sound → x.Admits host steps → (∀ l ∈ lead, ∀ s ∈ steps, ¬s.Settles l.mint) →
    x.decisions host steps = y.decisions host steps →
      Leads lead (x.run host steps) (y.run host steps) ∧ (x.run host steps).Sound ∧
        (y.run host steps).Sound := by
  induction steps with
  | nil => exact fun h hx hy _ _ _ ↦ ⟨h, hx, hy⟩
  | cons s rest ih =>
    intro x y h hx hy hadmits hother hsame
    rw [DepositRun.decisions, DepositRun.decisions, List.cons.injEq] at hsame
    have hother' : ∀ l ∈ lead, ¬s.Settles l.mint := fun l hl ↦ hother l hl s List.mem_cons_self
    exact ih (h.step hx hy hadmits.1 hother' hsame.1) (sound_after hx hadmits.1)
      (sound_after hy (h.allowed hadmits.1 hother')) hadmits.2
      (fun l hl t ht ↦ hother l hl t (List.mem_cons_of_mem s ht)) hsame.2

theorem config_after {r : DepositRun} (h : r.Sound) {s : RunStep} (hallowed : r.Allowed s) :
    (r.after host s).contract.config = r.contract.config := by
  cases s with
  | elsewhere e => rfl
  | deposit a =>
    unfold DepositRun.after DepositRun.next
    dsimp only
    cases a with
    | verify env p inclusion =>
      cases hexec : r.exec host (.verify env p inclusion) with
      | none => rfl
      | some r' =>
        obtain ⟨_, _, _, hstep⟩ := exec_verify hexec
        exact hstep.config
    | settle env p result =>
      obtain ⟨info, d, hinfo, hd, _⟩ := h.mints p hallowed.1
      cases hexec : r.exec host (.settle env p result) with
      | none => rfl
      | some r' => exact (exec_settle hinfo hd hexec).config

theorem config_run {steps : List RunStep} : ∀ {r : DepositRun}, r.Sound → r.Admits host steps →
    (r.run host steps).contract.config = r.contract.config := by
  induction steps with
  | nil => exact fun _ _ ↦ rfl
  | cons s rest ih =>
    intro r h hadmits
    rw [DepositRun.run, ih (sound_after h hadmits.1) hadmits.2, config_after h hadmits.1]

/-- From where nothing is ahead on, the two runs decide alike. -/
theorem Leads.decisions {steps : List RunStep} : ∀ {x y : DepositRun}, Leads none x y → x.Sound →
    y.Sound → x.contract.config.AnswersAlike → x.Admits host steps →
      x.decisions host steps = y.decisions host steps := by
  induction steps with
  | nil => exact fun _ _ _ _ _ ↦ rfl
  | cons s rest ih =>
    intro x y h hx hy halike hadmits
    have hother : ∀ l ∈ (none : Option Lead), ¬s.Settles l.mint :=
      fun l hl ↦ absurd hl (Option.not_mem_none l)
    have hsame : x.decision host s = y.decision host s := h.decision hx hy halike hadmits.1
    have hnext := ih (h.step hx hy hadmits.1 hother hsame) (sound_after hx hadmits.1)
      (sound_after hy (h.allowed hadmits.1 hother))
      (by rw [config_after hx hadmits.1]; exact halike) hadmits.2
    rw [DepositRun.decisions, DepositRun.decisions, hsame, hnext]

end Lead

end SatoshiBridge

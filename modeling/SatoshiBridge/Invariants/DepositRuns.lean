import SatoshiBridge.Invariants.BlockAmounts
import SatoshiBridge.Invariants.Tiers
import SatoshiBridge.Ledger.DepositEffects

/-!
# Runs of deposit callbacks

The deposit callbacks and the mint outcomes in any order, at a configuration whose tiers stay as
they are. A run remembers, beside the contract and the mints in flight, the deposits it has accepted
and not taken back, each under its block. What stands in the ring for a block is the sum of these.
-/

set_option autoImplicit false
set_option relaxedAutoImplicit false

namespace SatoshiBridge

variable {host : Host}

/-! ### Deposits of a block -/

/-- A deposit as the ring counts it. -/
structure BlockDeposit where
  blockHeight : ℕ
  amount : ℕ
deriving DecidableEq

/-- What a deposit adds to the amounts of a block. -/
def BlockDeposit.share (d : BlockDeposit) (blockHeight : ℕ) : ℕ :=
  if d.blockHeight = blockHeight then d.amount else 0

/-- The amounts of one block. -/
def blockSum (kept : List BlockDeposit) (blockHeight : ℕ) : ℕ :=
  (kept.map fun d ↦ d.share blockHeight).sum

@[simp] theorem blockSum_nil (blockHeight : ℕ) : blockSum [] blockHeight = 0 := rfl

@[simp] theorem blockSum_cons (d : BlockDeposit) (kept : List BlockDeposit) (blockHeight : ℕ) :
    blockSum (d :: kept) blockHeight = d.share blockHeight + blockSum kept blockHeight := by
  unfold blockSum
  rw [List.map_cons, List.sum_cons]

theorem blockSum_erase {kept : List BlockDeposit} {d : BlockDeposit} (h : d ∈ kept)
    (blockHeight : ℕ) :
    d.share blockHeight + blockSum (kept.erase d) blockHeight = blockSum kept blockHeight := by
  unfold blockSum
  exact List.sum_map_erase (fun d : BlockDeposit ↦ d.share blockHeight) h

/-! ### The callbacks -/

namespace Promise

/-- The deposit a verification is for and the delta its callback adds. -/
def checks : Promise → Option (PendingUTXOInfo × ℕ)
  | verifyDeposit _ _ _ _ info _ delta | verifySafeDeposit _ _ _ info delta => some (info, delta)
  | _ => none

/-- The block and the amount the deposit of a mint was counted with. -/
def counted : Promise → Option BlockDeposit
  | mint _ _ _ _ _ _ _ info height | safeMint _ _ _ _ info height =>
    height.map fun h ↦ ⟨h, info.utxo.balance⟩
  | _ => none

/-- The mint an accepted verification sends. -/
def mintOf (host : Host) (token signer : AccountId) (height : ℕ) : Promise → Promise
  | verifyDeposit recipient amount protocolFee relayerFee info postActions _ =>
    mint token recipient amount protocolFee signer relayerFee postActions info (some height)
  | verifySafeDeposit recipient amount msg info _ =>
    safeMint token recipient amount
      (if msg = "" then none else some (injectUtxoIdInMsg host msg info.utxoStorageKey)) info
      (some height)
  | p => p

theorem mintOf_spec {p : Promise} {info : PendingUTXOInfo} {delta : ℕ}
    (hp : p.checks = some (info, delta)) (host : Host) (token signer : AccountId) (height : ℕ) :
    (p.mintOf host token signer height).mintInfo = some info ∧
      (p.mintOf host token signer height).counted = some ⟨height, info.utxo.balance⟩ := by
  cases p with
  | verifyDeposit | verifySafeDeposit =>
    cases hp
    exact ⟨rfl, rfl⟩
  | _ => cases hp

end Promise

/-- What deposits read and write beside the ring. -/
structure DepositBooks where
  verified : Finset OutPoint
  utxos : FiniteMap OutPoint UTXO
  inProgress : FiniteMap OutPoint UTXO
  fees : Fees

namespace DepositBooks

/-- A deposit is accepted. -/
def begin (books : DepositBooks) (info : PendingUTXOInfo) : DepositBooks :=
  { books with
    verified := insert info.utxoStorageKey books.verified
    inProgress := books.inProgress.insert info.utxoStorageKey info.utxo }

/-- Its mint succeeds. -/
def finish (books : DepositBooks) (info : PendingUTXOInfo) (fee : ℕ) : DepositBooks :=
  { books with
    inProgress := books.inProgress.erase info.utxoStorageKey
    utxos := books.utxos.insert info.utxoStorageKey info.utxo
    fees := books.fees.collect fee }

/-- Its mint fails. -/
def revert (books : DepositBooks) (info : PendingUTXOInfo) : DepositBooks :=
  { books with
    inProgress := books.inProgress.erase info.utxoStorageKey
    verified := books.verified.erase info.utxoStorageKey }

end DepositBooks

namespace Contract

/-- The books of a contract. -/
def books (c : Contract) : DepositBooks where
  verified := c.verifiedDepositUtxo
  utxos := c.utxos
  inProgress := c.utxosInProgress
  fees := c.fees

variable {c : Contract}

theorem config_new {env : Env} {config : Config} {c : Contract}
    (h : Contract.new env config = some c) : c.config = config := by
  simp only [Contract.new, Option.bind_eq_bind, Option.bind_eq_some_iff, Option.some.injEq] at h
  obtain ⟨_, _, _, _, _, _, _, _, _, _, rfl⟩ := h
  rfl

/-- Whether a deposit at a depth is accepted: it is new and deep enough for its tier. -/
structure Accepts (c : Contract) (info : PendingUTXOInfo) (delta : ℕ)
    (inclusion : TxInclusionInfo) (required : ℕ) : Prop where
  fresh : info.utxoStorageKey ∉ c.verifiedDepositUtxo
  tier : c.config.getConfirmations ((c.blockBridgeAmounts.bump inclusion.txBlockHeight
    info.utxo.balance).2.getD u128Max) = some required
  deep : required + delta ≤ inclusion.mainchainTipHeight - inclusion.txBlockHeight + 1

/-- An accepted deposit: its effect and the mint that is sent. -/
structure Accepted (host : Host) (env : Env) (c : Contract) (p : Promise)
    (info : PendingUTXOInfo) (inclusion : TxInclusionInfo) (receipt : Receipt) : Prop where
  config : receipt.contract.config = c.config
  ring : receipt.contract.blockBridgeAmounts =
    (c.blockBridgeAmounts.bump inclusion.txBlockHeight info.utxo.balance).1
  books : receipt.contract.books = c.books.begin info
  mint : receipt.promises =
    [p.mintOf host c.config.nbtcAccountId env.signer inclusion.txBlockHeight]

theorem processInclusionAndCheck_eq_some {info : PendingUTXOInfo} {inclusion : TxInclusionInfo}
    {delta height : ℕ} {c' : Contract} :
    c.processInclusionAndCheck (.value (.inclusion (some inclusion))) info delta
        = some (c', height) ↔
      (∃ required, c.config.getConfirmations ((c.blockBridgeAmounts.bump inclusion.txBlockHeight
          info.utxo.balance).2.getD u128Max) = some required ∧
        required + delta ≤ inclusion.mainchainTipHeight - inclusion.txBlockHeight + 1) ∧
      c' = { c with blockBridgeAmounts :=
        (c.blockBridgeAmounts.bump inclusion.txBlockHeight info.utxo.balance).1 } ∧
      height = inclusion.txBlockHeight := by
  simp only [processInclusionAndCheck, PromiseResult.expectInclusion, bumpAndCheckConfirmations,
    Option.bind_eq_bind, Option.bind_some, Option.bind_eq_some_iff, require_eq_some,
    Option.some.injEq, exists_and_left, exists_const, Prod.mk.injEq]
  constructor
  · rintro ⟨_, ⟨required, htier, hdeep, rfl⟩, rfl, rfl⟩
    exact ⟨⟨required, htier, hdeep⟩, rfl, rfl⟩
  · rintro ⟨⟨required, htier, hdeep⟩, rfl, rfl⟩
    exact ⟨_, ⟨required, htier, hdeep, rfl⟩, rfl, rfl⟩

/-- The contract an accepted deposit leaves. -/
def begun (c : Contract) (info : PendingUTXOInfo) (inclusion : TxInclusionInfo) : Contract :=
  { c with
    blockBridgeAmounts := (c.blockBridgeAmounts.bump inclusion.txBlockHeight info.utxo.balance).1
    verifiedDepositUtxo := insert info.utxoStorageKey c.verifiedDepositUtxo
    utxosInProgress := c.utxosInProgress.insert info.utxoStorageKey info.utxo }

/-- The common start of the two callbacks. -/
theorem check_and_claim {info : PendingUTXOInfo} {inclusion : TxInclusionInfo}
    {delta height : ℕ} {c' : Contract} :
    (∃ c₁, c.processInclusionAndCheck (.value (.inclusion (some inclusion))) info delta
        = some (c₁, height) ∧ c₁.claimDepositUtxo info = some c') ↔
      (∃ required, c.Accepts info delta inclusion required) ∧ c' = c.begun info inclusion ∧
        height = inclusion.txBlockHeight := by
  simp only [processInclusionAndCheck_eq_some]
  constructor
  · rintro ⟨_, ⟨⟨required, htier, hdeep⟩, rfl, rfl⟩, hclaim⟩
    obtain ⟨hfresh, rfl⟩ := claimDepositUtxo_spec hclaim
    exact ⟨⟨required, hfresh, htier, hdeep⟩, rfl, rfl⟩
  · rintro ⟨⟨required, hfresh, htier, hdeep⟩, rfl, rfl⟩
    refine ⟨_, ⟨⟨required, htier, hdeep⟩, rfl, rfl⟩, ?_⟩
    rw [claimDepositUtxo, require_of hfresh]
    rfl

/-- A callback that starts a deposit and sends its mint. -/
theorem accepted_of_begins {env : Env} {p : Promise} {info : PendingUTXOInfo}
    {inclusion : TxInclusionInfo} {delta : ℕ} {outcome : Option Receipt}
    (houtcome : ∀ receipt, outcome = some receipt ↔ ∃ c' height,
      (∃ c₁, c.processInclusionAndCheck (.value (.inclusion (some inclusion))) info delta
        = some (c₁, height) ∧ c₁.claimDepositUtxo info = some c') ∧
      receipt = ⟨c', [p.mintOf host c'.config.nbtcAccountId env.signer height],
        [.depositStarted info.utxoStorageKey], none⟩) :
    (outcome.isSome ↔ ∃ required, c.Accepts info delta inclusion required) ∧
    ∀ receipt, outcome = some receipt → c.Accepted host env p info inclusion receipt := by
  constructor
  · rw [Option.isSome_iff_exists]
    constructor
    · rintro ⟨receipt, hreceipt⟩
      obtain ⟨_, _, hbegins, _⟩ := (houtcome receipt).mp hreceipt
      exact (check_and_claim.mp hbegins).1
    · intro haccepts
      exact ⟨_, (houtcome _).mpr ⟨_, _, check_and_claim.mpr ⟨haccepts, rfl, rfl⟩, rfl⟩⟩
  · intro receipt hreceipt
    obtain ⟨_, _, hbegins, rfl⟩ := (houtcome receipt).mp hreceipt
    obtain ⟨_, rfl, rfl⟩ := check_and_claim.mp hbegins
    exact ⟨rfl, rfl, rfl, rfl⟩

/-- Both deposit callbacks accept under the same conditions and have the same effect. -/
theorem callback_checks {env : Env} {p : Promise} {info : PendingUTXOInfo} {delta : ℕ}
    (hp : p.checks = some (info, delta)) (inclusion : TxInclusionInfo) :
    ((c.callback host env (.value (.inclusion (some inclusion))) p).isSome ↔
      ∃ required, c.Accepts info delta inclusion required) ∧
    ∀ receipt, c.callback host env (.value (.inclusion (some inclusion))) p = some receipt →
      c.Accepted host env p info inclusion receipt := by
  cases p with
  | verifyDeposit recipient amount protocolFee relayerFee info' postActions delta' =>
    cases hp
    refine accepted_of_begins fun receipt ↦ ?_
    simp only [callback, verifyDepositCallback, Option.bind_eq_bind, Option.bind_eq_some_iff,
      Option.some.injEq, Prod.exists]
    constructor
    · rintro ⟨c₁, height, hcheck, c₂, hclaim, rfl⟩
      exact ⟨c₂, height, ⟨c₁, hcheck, hclaim⟩, rfl⟩
    · rintro ⟨c₂, height, ⟨c₁, hcheck, hclaim⟩, rfl⟩
      exact ⟨c₁, height, hcheck, c₂, hclaim, rfl⟩
  | verifySafeDeposit recipient amount msg info' delta' =>
    cases hp
    refine accepted_of_begins fun receipt ↦ ?_
    simp only [callback, verifySafeDepositCallback, Option.bind_eq_bind, Option.bind_eq_some_iff,
      Option.some.injEq, Prod.exists]
    constructor
    · rintro ⟨c₁, height, hcheck, c₂, hclaim, rfl⟩
      exact ⟨c₂, height, ⟨c₁, hcheck, hclaim⟩, rfl⟩
    · rintro ⟨c₂, height, ⟨c₁, hcheck, hclaim⟩, rfl⟩
      exact ⟨c₁, height, hcheck, c₂, hclaim, rfl⟩
  | _ => cases hp

/-- The effect of a mint outcome. -/
structure Settled (c : Contract) (p : Promise) (info : PendingUTXOInfo) (minted : Bool)
    (receipt : Receipt) : Prop where
  config : receipt.contract.config = c.config
  ring : receipt.contract.blockBridgeAmounts = if minted then c.blockBridgeAmounts else
    match p.counted with
    | some d => c.blockBridgeAmounts.unbump d.blockHeight d.amount
    | none => c.blockBridgeAmounts
  books : receipt.contract.books =
    if minted then c.books.finish info p.mintFee else c.books.revert info

/-- The books have room for the fee of a mint, if its outcome brings one. -/
def RoomFor (c : Contract) (p : Promise) (result : PromiseResult) : Prop :=
  p.minted result = true → 0 < p.mintFee → c.fees.HasRoom p.mintFee

/-- The mint callbacks fail only for a fee the books have no room for. -/
theorem callback_settles_isSome {env : Env} {p : Promise} {info : PendingUTXOInfo}
    (hp : p.mintInfo = some info) (result : PromiseResult) :
    (c.callback host env result p).isSome ↔ c.RoomFor p result := by
  cases p with
  | mint token recipient amount protocolFee relayer relayerFee postActions info' height =>
    simp only [callback, mintCallback]
    by_cases hminted : result.isSuccess = true
    · obtain ⟨accounts, haccounts, _⟩ := internalUnwrapOrCreateAccount_spec
        (c.internalRemoveUtxoInProgress info'.utxoStorageKey) recipient
      rw [if_pos hminted, haccounts, Option.isSome_iff_exists]
      simp only [Option.bind_eq_bind, Option.bind_eq_some_iff, collectIfPositive_eq_some,
        Option.some.injEq]
      constructor
      · rintro ⟨_, _, ⟨hroom, _⟩, _⟩
        exact fun _ ↦ hroom
      · exact fun hroom ↦ ⟨_, _, ⟨hroom hminted, rfl⟩, rfl⟩
    · rw [if_neg hminted]
      exact iff_of_true rfl fun h ↦ absurd h hminted
  | safeMint token recipient amount msg info' height =>
    have hroom : c.RoomFor (.safeMint token recipient amount msg info' height) result :=
      fun _ hpos ↦ absurd hpos (lt_irrefl 0)
    simp only [callback, safeMintCallback]
    split
    · exact iff_of_true rfl hroom
    · exact iff_of_true rfl hroom
  | _ => cases hp

/-- Both mint callbacks have the same effect. -/
theorem callback_settles {env : Env} {p : Promise} {info : PendingUTXOInfo}
    (hp : p.mintInfo = some info) {result : PromiseResult} {receipt : Receipt}
    (h : c.callback host env result p = some receipt) :
    c.Settled p info (p.minted result) receipt := by
  cases p with
  | mint token recipient amount protocolFee relayer relayerFee postActions info' height =>
    cases hp
    simp only [callback, mintCallback] at h
    by_cases hminted : result.isSuccess = true
    · obtain ⟨accounts, haccounts, _⟩ := internalUnwrapOrCreateAccount_spec
        (c.internalRemoveUtxoInProgress info.utxoStorageKey) recipient
      rw [if_pos hminted, haccounts, Option.bind_eq_bind, Option.bind_eq_some_iff] at h
      obtain ⟨c', hcollected, h⟩ := h
      obtain ⟨_, rfl⟩ := collectIfPositive_eq_some.mp hcollected
      rw [← Option.some.inj h]
      refine ⟨rfl, ?_, ?_⟩
      · exact (if_pos hminted).symm
      · exact (if_pos hminted).symm
    · rw [if_neg hminted] at h
      rw [← Option.some.inj h]
      refine ⟨?_, ?_, ?_⟩
      · cases height <;> rfl
      · refine Eq.trans ?_ (if_neg hminted).symm
        cases height <;> rfl
      · refine Eq.trans ?_ (if_neg hminted).symm
        cases height <;> rfl
  | safeMint token recipient amount msg info' height =>
    cases hp
    simp only [callback, safeMintCallback] at h
    by_cases hminted : (!result.isRefundRequired) = true
    · rw [if_pos hminted] at h
      rw [← Option.some.inj h]
      refine ⟨rfl, ?_, ?_⟩
      · exact (if_pos hminted).symm
      · exact (if_pos hminted).symm
    · rw [if_neg hminted] at h
      rw [← Option.some.inj h]
      refine ⟨?_, ?_, ?_⟩
      · cases height <;> rfl
      · refine Eq.trans ?_ (if_neg hminted).symm
        cases height <;> rfl
      · refine Eq.trans ?_ (if_neg hminted).symm
        cases height <;> rfl
  | _ => cases hp

end Contract

/-! ### Runs -/

/-- A contract between deposit callbacks: the mints in flight, the deposits accepted and not taken
back, and the last tip seen. -/
structure DepositRun where
  contract : Contract
  mints : List Promise
  kept : List BlockDeposit
  tip : ℕ

/-- A result arrives: the inclusion of a funding transaction or the outcome of a mint. -/
inductive DepositAction
  | verify (env : Env) (p : Promise) (inclusion : TxInclusionInfo)
  | settle (env : Env) (p : Promise) (result : PromiseResult)

namespace DepositRun

variable (host : Host) (r : DepositRun)

/-- The ring of a run. -/
abbrev ring : BlockAmountRing := r.contract.blockBridgeAmounts

/-- One callback; `none` when it panics. -/
def exec : DepositAction → Option DepositRun
  | .verify env p inclusion => do
    let (info, _) ← p.checks
    let receipt ← r.contract.callback host env (.value (.inclusion (some inclusion))) p
    some {
      contract := receipt.contract
      mints := receipt.promises ++ r.mints
      kept := ⟨inclusion.txBlockHeight, info.utxo.balance⟩ :: r.kept
      tip := inclusion.mainchainTipHeight }
  | .settle env p result => do
    let deposit ← p.counted
    let receipt ← r.contract.callback host env result p
    some {
      contract := receipt.contract
      mints := r.mints.erase p
      kept := if p.minted result then r.kept else r.kept.erase deposit
      tip := r.tip }

/-- The run after a callback that panicked: a mint is answered once only. -/
def skip : DepositAction → DepositRun
  | .verify _ _ inclusion => { r with tip := inclusion.mainchainTipHeight }
  | .settle _ p _ => { r with mints := r.mints.erase p }

/-- The run after an action, accepted or not. -/
def next (a : DepositAction) : DepositRun := (r.exec host a).getD (r.skip a)

/-- The outcomes are those of mints in flight, and the deposits of a block stay within a `u128`, as
the outputs of any block of the chain do. -/
def Fits : DepositAction → Prop
  | .verify _ p inclusion => ∃ info delta, p.checks = some (info, delta) ∧
    blockSum r.kept inclusion.txBlockHeight + info.utxo.balance ≤ u128Max
  | .settle _ p _ => p ∈ r.mints

end DepositRun

/-- What the rest of the contract leaves to the deposits: the tiers, the deltas and the ring are as
they were, outpoints stay verified, none comes into progress. -/
structure Contract.Beside (c c' : Contract) : Prop where
  strategy : c'.config.confirmationsStrategy = c.config.confirmationsStrategy
  delta : c'.config.confirmationsDelta = c.config.confirmationsDelta
  extraMsgDelta : c'.config.extraMsgConfirmationsDelta = c.config.extraMsgConfirmationsDelta
  ring : c'.blockBridgeAmounts = c.blockBridgeAmounts
  verified : c.verifiedDepositUtxo ⊆ c'.verifiedDepositUtxo
  inProgress : ∀ key ∈ c'.utxosInProgress, key ∈ c.utxosInProgress

/-- The runs from a new contract: deposit callbacks and mint outcomes in any order, and anything in
between that the rest of the contract may do at a fixed configuration. -/
inductive DepositRun.Reached (host : Host) : DepositRun → Prop
  | start {env : Env} {config : Config} {c : Contract} (h : Contract.new env config = some c) :
    Reached host ⟨c, [], [], 0⟩
  | deposit {r : DepositRun} (a : DepositAction) (h : Reached host r) (hfits : r.Fits a) :
    Reached host (r.next host a)
  | elsewhere {r : DepositRun} (c : Contract) (h : Reached host r)
      (hbeside : r.contract.Beside c) : Reached host { r with contract := c }

/-! ### What holds along a run -/

/-- The outpoint a mint is for. -/
def Promise.mintKey (p : Promise) : Option OutPoint :=
  p.mintInfo.map PendingUTXOInfo.utxoStorageKey

/-- What stands in the ring for a block is the sum of its deposits, every mint in flight was
counted, and the mints in flight are for different verified outpoints. -/
structure DepositRun.Sound (r : DepositRun) : Prop where
  graded : r.contract.config.Graded
  capacity : r.ring.capacity = BlockAmountRing.capacityFor r.contract.config
  standing : ∀ blockHeight total, r.ring.standing blockHeight = some total →
    total = blockSum r.kept blockHeight
  mints : ∀ p ∈ r.mints, ∃ info d, p.mintInfo = some info ∧ p.counted = some d ∧
    info.utxoStorageKey ∈ r.contract.verifiedDepositUtxo
  counted : ∀ d, r.mints.countP (fun p ↦ p.counted = some d) ≤ r.kept.count d
  distinct : (r.mints.map Promise.mintKey).Nodup
  inProgress : ∀ key ∈ r.contract.utxosInProgress, key ∈ r.contract.verifiedDepositUtxo

namespace DepositRun

variable {host : Host} {r : DepositRun}

theorem Sound.capacity_pos (h : r.Sound) : 0 < r.ring.capacity := by
  rw [h.capacity]
  exact Nat.succ_pos _

/-- The deposit of a mint in flight is among the kept ones. -/
theorem Sound.mem_kept (h : r.Sound) {p : Promise} (hp : p ∈ r.mints) {d : BlockDeposit}
    (hd : p.counted = some d) : d ∈ r.kept := by
  have hpos : 0 < r.mints.countP (fun p ↦ p.counted = some d) :=
    List.countP_pos_iff.mpr ⟨p, hp, decide_eq_true hd⟩
  exact List.count_pos_iff.mp (lt_of_lt_of_le hpos (h.counted d))

/-- What a block reads after its next deposit. -/
theorem Sound.bump (h : r.Sound) {blockHeight amount : ℕ}
    (hsum : blockSum r.kept blockHeight + amount ≤ u128Max) :
    (r.ring.standing blockHeight = none ∧
      r.ring.bump blockHeight amount = (r.ring, none)) ∨
    (r.ring.standing blockHeight = some (blockSum r.kept blockHeight) ∧
      r.ring.bump blockHeight amount =
        (r.ring.setCell blockHeight (blockSum r.kept blockHeight + amount),
          some (blockSum r.kept blockHeight + amount))) := by
  cases hstanding : r.ring.standing blockHeight with
  | none => exact Or.inl ⟨rfl, BlockAmountRing.bump_passed hstanding⟩
  | some total =>
    have htotal := h.standing blockHeight total hstanding
    rw [htotal] at hstanding
    exact Or.inr ⟨by rw [htotal], BlockAmountRing.bump_standing hstanding hsum⟩

/-! ### Single steps -/

/-- An accepted verification. -/
structure VerifyStep (host : Host) (env : Env) (r r' : DepositRun) (p : Promise)
    (inclusion : TxInclusionInfo) (info : PendingUTXOInfo) (delta required : ℕ) : Prop where
  checks : p.checks = some (info, delta)
  accepts : r.contract.Accepts info delta inclusion required
  config : r'.contract.config = r.contract.config
  ring : r'.ring = (r.ring.bump inclusion.txBlockHeight info.utxo.balance).1
  books : r'.contract.books = r.contract.books.begin info
  mints : r'.mints = p.mintOf host r.contract.config.nbtcAccountId env.signer
    inclusion.txBlockHeight :: r.mints
  kept : r'.kept = ⟨inclusion.txBlockHeight, info.utxo.balance⟩ :: r.kept
  tip : r'.tip = inclusion.mainchainTipHeight

/-- A mint outcome. -/
structure SettleStep (r r' : DepositRun) (p : Promise) (minted : Bool) (info : PendingUTXOInfo)
    (d : BlockDeposit) : Prop where
  config : r'.contract.config = r.contract.config
  ring : r'.ring = if minted then r.ring else r.ring.unbump d.blockHeight d.amount
  books : r'.contract.books =
    if minted then r.contract.books.finish info p.mintFee else r.contract.books.revert info
  mints : r'.mints = r.mints.erase p
  kept : r'.kept = if minted then r.kept else r.kept.erase d
  tip : r'.tip = r.tip

theorem exec_verify {env : Env} {p : Promise} {inclusion : TxInclusionInfo} {r' : DepositRun}
    (h : r.exec host (.verify env p inclusion) = some r') :
    ∃ info delta required, VerifyStep host env r r' p inclusion info delta required := by
  simp only [exec, Option.bind_eq_bind, Option.bind_eq_some_iff, Option.some.injEq,
    Prod.exists] at h
  obtain ⟨info, delta, hchecks, receipt, hreceipt, rfl⟩ := h
  obtain ⟨hiff, hspec⟩ := @Contract.callback_checks host r.contract env _ _ _ hchecks inclusion
  obtain ⟨required, haccepts⟩ := hiff.mp (Option.isSome_of_eq_some hreceipt)
  have haccepted := hspec receipt hreceipt
  refine ⟨info, delta, required, hchecks, haccepts, haccepted.config, haccepted.ring,
    haccepted.books, ?_, rfl, rfl⟩
  rw [haccepted.mint]
  rfl

/-- A verification is accepted exactly when its deposit is. -/
theorem exec_verify_isSome {env : Env} {p : Promise} {inclusion : TxInclusionInfo}
    {info : PendingUTXOInfo} {delta : ℕ} (hp : p.checks = some (info, delta)) :
    (r.exec host (.verify env p inclusion)).isSome ↔
      ∃ required, r.contract.Accepts info delta inclusion required := by
  rw [← (@Contract.callback_checks host r.contract env _ _ _ hp inclusion).1]
  simp only [exec, hp, Option.bind_eq_bind, Option.bind_some, Option.isSome_bind,
    Option.isSome_some]
  cases r.contract.callback host env (.value (.inclusion (some inclusion))) p <;> rfl

/-- A mint outcome is booked unless the books have no room for its fee. -/
theorem exec_settle_isSome {env : Env} {p : Promise} {info : PendingUTXOInfo} {d : BlockDeposit}
    (hinfo : p.mintInfo = some info) (hd : p.counted = some d) (result : PromiseResult) :
    (r.exec host (.settle env p result)).isSome ↔ r.contract.RoomFor p result := by
  rw [← @Contract.callback_settles_isSome host r.contract env _ _ hinfo result]
  simp only [exec, hd, Option.bind_eq_bind, Option.bind_some, Option.isSome_bind,
    Option.isSome_some]
  cases r.contract.callback host env result p <;> rfl

theorem exec_settle {env : Env} {p : Promise} {info : PendingUTXOInfo} {d : BlockDeposit}
    (hinfo : p.mintInfo = some info) (hd : p.counted = some d) {result : PromiseResult}
    {r' : DepositRun} (h : r.exec host (.settle env p result) = some r') :
    SettleStep r r' p (p.minted result) info d := by
  simp only [exec, hd, Option.bind_eq_bind, Option.bind_some, Option.bind_eq_some_iff,
    Option.some.injEq] at h
  obtain ⟨receipt, hreceipt, rfl⟩ := h
  have hsettled := Contract.callback_settles hinfo hreceipt
  have hring := hsettled.ring
  rw [hd] at hring
  exact ⟨hsettled.config, hring, hsettled.books, rfl, rfl, rfl⟩

/-! ### Preservation -/

theorem sound_start {env : Env} {config : Config} {c : Contract}
    (h : Contract.new env config = some c) : Sound ⟨c, [], [], 0⟩ := by
  simp only [Contract.new, Option.bind_eq_bind, Option.bind_eq_some_iff, require_eq_some,
    exists_and_left, exists_const, Option.some.injEq] at h
  obtain ⟨_, hvalid, _, _, ring, hring, rfl⟩ := h
  refine ⟨Config.assertValid_graded hvalid, (BlockAmountRing.capacity_new hring).1, ?_, ?_, ?_, ?_,
    ?_⟩
  · intro blockHeight total htotal
    rw [show ring.standing blockHeight = some 0 from
      BlockAmountRing.standing_new hring blockHeight, Option.some.injEq] at htotal
    exact htotal.symm
  · exact fun p hp ↦ absurd hp List.not_mem_nil
  · exact fun d ↦ Nat.zero_le _
  · exact List.nodup_nil
  · exact fun key hkey ↦ absurd hkey (AList.notMem_empty key)

/-- The ring after an accepted verification stands for the deposits with the new one. -/
theorem Sound.standing_verify (h : r.Sound) {blockHeight amount : ℕ}
    (hsum : blockSum r.kept blockHeight + amount ≤ u128Max) {other total : ℕ}
    (htotal : (r.ring.bump blockHeight amount).1.standing other = some total) :
    total = blockSum (⟨blockHeight, amount⟩ :: r.kept) other := by
  rw [blockSum_cons]
  rcases h.bump hsum with ⟨hnone, hbump⟩ | ⟨hstanding, hbump⟩
  · rw [hbump] at htotal
    have hne : blockHeight ≠ other := by
      intro heq
      rw [heq, htotal] at hnone
      cases hnone
    rw [BlockDeposit.share, if_neg hne, zero_add]
    exact h.standing other total htotal
  · rw [hbump, BlockAmountRing.standing_setCell h.capacity_pos] at htotal
    by_cases hslot : r.ring.slot other = r.ring.slot blockHeight
    · rw [if_pos hslot] at htotal
      by_cases heq : other = blockHeight
      · rw [if_pos heq, Option.some.injEq] at htotal
        rw [BlockDeposit.share, if_pos heq.symm, ← htotal, heq, Nat.add_comm]
      · rw [if_neg heq] at htotal
        by_cases hlt : other < blockHeight
        · rw [if_pos hlt] at htotal
          cases htotal
        · rw [if_neg hlt, Option.some.injEq] at htotal
          have hzero := h.standing other 0
            (BlockAmountRing.standing_newer hstanding (by omega) hslot)
          rw [BlockDeposit.share, if_neg (Ne.symm heq), ← hzero, ← htotal]
    · rw [if_neg hslot] at htotal
      have hne : blockHeight ≠ other := fun heq ↦ hslot (by rw [heq])
      rw [BlockDeposit.share, if_neg hne, zero_add]
      exact h.standing other total htotal

theorem Sound.verify (h : r.Sound) {env : Env} {r' : DepositRun} {p : Promise}
    {inclusion : TxInclusionInfo} {info : PendingUTXOInfo} {delta required : ℕ}
    (hstep : VerifyStep host env r r' p inclusion info delta required)
    (hsum : blockSum r.kept inclusion.txBlockHeight + info.utxo.balance ≤ u128Max) : r'.Sound := by
  obtain ⟨hmintInfo, hcounted⟩ := Promise.mintOf_spec hstep.checks host
    r.contract.config.nbtcAccountId env.signer inclusion.txBlockHeight
  have hverified : r'.contract.verifiedDepositUtxo =
      insert info.utxoStorageKey r.contract.verifiedDepositUtxo :=
    congrArg DepositBooks.verified hstep.books
  have hinProgress : r'.contract.utxosInProgress =
      r.contract.utxosInProgress.insert info.utxoStorageKey info.utxo :=
    congrArg DepositBooks.inProgress hstep.books
  refine ⟨?_, ?_, ?_, ?_, ?_, ?_, ?_⟩
  · rw [hstep.config]
    exact h.graded
  · rw [hstep.ring, hstep.config, BlockAmountRing.capacity_bump]
    exact h.capacity
  · intro other total htotal
    rw [hstep.ring] at htotal
    rw [hstep.kept]
    exact h.standing_verify hsum htotal
  · intro q hq
    rw [hstep.mints] at hq
    rw [hverified]
    rcases List.mem_cons.mp hq with rfl | hold
    · exact ⟨info, _, hmintInfo, hcounted, Finset.mem_insert_self _ _⟩
    · obtain ⟨info', d, hinfo', hd, hmem⟩ := h.mints q hold
      exact ⟨info', d, hinfo', hd, Finset.mem_insert_of_mem hmem⟩
  · intro d
    rw [hstep.mints, hstep.kept, List.countP_cons, List.count_cons, hcounted]
    have hle := h.counted d
    by_cases heq : (⟨inclusion.txBlockHeight, info.utxo.balance⟩ : BlockDeposit) = d
    · subst heq
      simpa using hle
    · simpa [heq] using hle
  · rw [hstep.mints, List.map_cons, List.nodup_cons]
    refine ⟨fun hmem ↦ ?_, h.distinct⟩
    obtain ⟨q, hq, hkey⟩ := List.mem_map.mp hmem
    obtain ⟨info', _, hinfo', _, hmem'⟩ := h.mints q hq
    rw [Promise.mintKey, Promise.mintKey, hinfo', hmintInfo, Option.map_some,
      Option.map_some, Option.some.injEq] at hkey
    rw [hkey] at hmem'
    exact hstep.accepts.fresh hmem'
  · intro key hkey
    rw [hinProgress] at hkey
    rw [hverified]
    rcases (AList.mem_insert _).mp hkey with rfl | hold
    · exact Finset.mem_insert_self _ _
    · exact Finset.mem_insert_of_mem (h.inProgress key hold)

/-- No other mint in flight is for the same outpoint. -/
theorem Sound.mintKey_ne (h : r.Sound) {p q : Promise} (hp : p ∈ r.mints)
    (hq : q ∈ r.mints.erase p) : q.mintKey ≠ p.mintKey := by
  have hperm := (List.perm_cons_erase hp).map Promise.mintKey
  have hnodup := hperm.nodup_iff.mp h.distinct
  rw [List.map_cons, List.nodup_cons] at hnodup
  exact fun heq ↦ hnodup.1 (heq ▸ List.mem_map_of_mem hq)

theorem Sound.settle (h : r.Sound) {r' : DepositRun} {p : Promise} {minted : Bool}
    {info : PendingUTXOInfo} {d : BlockDeposit} (hp : p ∈ r.mints)
    (hinfo : p.mintInfo = some info) (hd : p.counted = some d)
    (hstep : SettleStep r r' p minted info d) : r'.Sound := by
  have hmem := h.mem_kept hp hd
  have hconfig := hstep.config
  have hsub : ∀ q ∈ r.mints.erase p, q ∈ r.mints := fun q hq ↦ List.mem_of_mem_erase hq
  have hdistinct : (r'.mints.map Promise.mintKey).Nodup := by
    rw [hstep.mints]
    exact h.distinct.sublist (List.erase_sublist.map _)
  cases minted with
  | true =>
    have hverified : r'.contract.verifiedDepositUtxo = r.contract.verifiedDepositUtxo :=
      congrArg DepositBooks.verified hstep.books
    have hinProgress : r'.contract.utxosInProgress =
        r.contract.utxosInProgress.erase info.utxoStorageKey :=
      congrArg DepositBooks.inProgress hstep.books
    have hring : r'.ring = r.ring := hstep.ring
    have hkept : r'.kept = r.kept := hstep.kept
    refine ⟨by rw [hconfig]; exact h.graded, by rw [hring, hconfig]; exact h.capacity, ?_, ?_, ?_,
      hdistinct, ?_⟩
    · rw [hring, hkept]
      exact h.standing
    · rw [hstep.mints, hverified]
      exact fun q hq ↦ h.mints q (hsub q hq)
    · intro d'
      rw [hstep.mints, hkept]
      exact le_trans (List.erase_sublist.countP_le) (h.counted d')
    · rw [hinProgress, hverified]
      exact fun key hkey ↦ h.inProgress key (AList.mem_erase.mp hkey).2
  | false =>
    have hverified : r'.contract.verifiedDepositUtxo =
        r.contract.verifiedDepositUtxo.erase info.utxoStorageKey :=
      congrArg DepositBooks.verified hstep.books
    have hinProgress : r'.contract.utxosInProgress =
        r.contract.utxosInProgress.erase info.utxoStorageKey :=
      congrArg DepositBooks.inProgress hstep.books
    have hring : r'.ring = r.ring.unbump d.blockHeight d.amount := hstep.ring
    have hkept : r'.kept = r.kept.erase d := hstep.kept
    refine ⟨by rw [hconfig]; exact h.graded, ?_, ?_, ?_, ?_, hdistinct, ?_⟩
    · rw [hring, hconfig, BlockAmountRing.capacity_unbump]
      exact h.capacity
    · intro other total htotal
      rw [hring, BlockAmountRing.standing_unbump h.capacity_pos] at htotal
      rw [hkept]
      have hsplit := blockSum_erase hmem other
      by_cases heq : other = d.blockHeight
      · rw [if_pos heq] at htotal
        obtain ⟨before, hbefore, rfl⟩ := Option.map_eq_some_iff.mp htotal
        have hstanding := h.standing d.blockHeight before hbefore
        rw [BlockDeposit.share, if_pos heq.symm] at hsplit
        rw [heq] at hsplit ⊢
        omega
      · rw [if_neg heq] at htotal
        rw [BlockDeposit.share, if_neg (Ne.symm heq), zero_add] at hsplit
        rw [hsplit]
        exact h.standing other total htotal
    · intro q hq
      rw [hstep.mints] at hq
      obtain ⟨info', d', hinfo', hd', hmem'⟩ := h.mints q (hsub q hq)
      refine ⟨info', d', hinfo', hd', ?_⟩
      rw [hverified]
      refine Finset.mem_erase.mpr ⟨fun hkey ↦ h.mintKey_ne hp hq ?_, hmem'⟩
      rw [Promise.mintKey, Promise.mintKey, hinfo', hinfo, Option.map_some, Option.map_some, hkey]
    · intro d'
      rw [hstep.mints, hkept, List.count_erase, List.countP_erase]
      have hle := h.counted d'
      by_cases heq : d = d'
      · subst heq
        simp only [hp, hd, decide_true, and_self, if_true, beq_self_eq_true]
        omega
      · have hne : p.counted ≠ some d' := by
          rw [hd]
          exact fun hsome ↦ heq (Option.some.inj hsome)
        simpa [hne, heq, Ne.symm heq] using hle
    · intro key hkey
      rw [hinProgress] at hkey
      rw [hverified]
      obtain ⟨hne, hold⟩ := AList.mem_erase.mp hkey
      exact Finset.mem_erase.mpr ⟨hne, h.inProgress key hold⟩

/-- A mint whose callback panicked is answered. -/
theorem Sound.skip (h : r.Sound) (env : Env) (p : Promise) (result : PromiseResult) :
    (r.skip (.settle env p result)).Sound where
  graded := h.graded
  capacity := h.capacity
  standing := h.standing
  mints := fun q hq ↦ h.mints q (List.mem_of_mem_erase hq)
  counted := fun d ↦ le_trans (List.erase_sublist.countP_le) (h.counted d)
  distinct := h.distinct.sublist (List.erase_sublist.map _)
  inProgress := h.inProgress

theorem Sound.elsewhere (h : r.Sound) {c : Contract} (hbeside : r.contract.Beside c) :
    Sound { r with contract := c } := by
  refine ⟨?_, ?_, ?_, ?_, h.counted, h.distinct, ?_⟩
  · obtain ⟨tiers, htiers, hsorted⟩ := h.graded
    refine ⟨tiers, ?_, hsorted⟩
    rw [← htiers]
    unfold Config.tiers
    rw [hbeside.strategy]
  · have hcapacity : BlockAmountRing.capacityFor c.config =
        BlockAmountRing.capacityFor r.contract.config := by
      unfold BlockAmountRing.capacityFor Config.maxTierConfirmations
      rw [hbeside.strategy, hbeside.delta, hbeside.extraMsgDelta]
    show c.blockBridgeAmounts.capacity = _
    rw [hbeside.ring, hcapacity]
    exact h.capacity
  · show ∀ blockHeight total, c.blockBridgeAmounts.standing blockHeight = some total → _
    rw [hbeside.ring]
    exact h.standing
  · intro p hp
    obtain ⟨info, d, hinfo, hd, hmem⟩ := h.mints p hp
    exact ⟨info, d, hinfo, hd, hbeside.verified hmem⟩
  · intro key hkey
    exact hbeside.verified (h.inProgress key (hbeside.inProgress key hkey))

theorem Sound.next (h : r.Sound) {a : DepositAction} (hfits : r.Fits a) :
    (r.next host a).Sound := by
  unfold DepositRun.next
  cases a with
  | verify env p inclusion =>
    obtain ⟨info, delta, hchecks, hsum⟩ := hfits
    cases hexec : r.exec host (.verify env p inclusion) with
    | none => exact ⟨h.graded, h.capacity, h.standing, h.mints, h.counted, h.distinct,
        h.inProgress⟩
    | some r' =>
      obtain ⟨info', delta', required, hstep⟩ := exec_verify hexec
      have hinfo := hchecks.symm.trans hstep.checks
      cases hinfo
      exact h.verify hstep hsum
  | settle env p result =>
    obtain ⟨info, d, hinfo, hd, _⟩ := h.mints p hfits
    cases hexec : r.exec host (.settle env p result) with
    | none => exact h.skip env p result
    | some r' => exact h.settle hfits hinfo hd (exec_settle hinfo hd hexec)

/-- A run stays sound. -/
theorem Reached.sound (h : Reached host r) : r.Sound := by
  induction h with
  | start h => exact sound_start h
  | deposit a _ hfits ih => exact ih.next hfits
  | elsewhere c _ hbeside ih => exact ih.elsewhere hbeside

end DepositRun

end SatoshiBridge

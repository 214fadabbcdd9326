import SatoshiBridge.Invariants.Coins
import SatoshiBridge.Invariants.Stages

/-!
# Where a coin is

A registered coin is stored, or locked under a pending original, or gone with a family one of whose
transactions was confirmed. A step leaves it where it is or moves it one place on. A confirmed
transaction was created by the bridge, and its change is registered.
-/

set_option autoImplicit false
set_option relaxedAutoImplicit false

namespace SatoshiBridge

variable {host : Host} {Completes : Ledger → OutPoint → Prop} {cause : Cause} {l l' : Ledger}

/-! ### Places -/

/-- Where a registered coin is; a root is the original whose family spends it. -/
inductive Place
  | stored
  | pending (root : Txid)
  | spent (root : Txid)
deriving DecidableEq

/-- Where a coin may be later: it is taken out for one family and spent by no other. -/
inductive Place.Leads : Place → Place → Prop
  | anywhere (place : Place) : Leads .stored place
  | waits (root : Txid) : Leads (.pending root) (.pending root)
  | settles (root : Txid) : Leads (.pending root) (.spent root)
  | stays (root : Txid) : Leads (.spent root) (.spent root)

/-- An original of a family, which takes coins of the bridge. -/
structure IsOriginal (o : BTCPendingInfo) : Prop where
  original : o.state.originalTxId = none
  refund : o.state.isRefund = false

/-- The coin is at this place. -/
def Ledger.At (l : Ledger) (key : OutPoint) : Place → Prop
  | .stored => key ∈ l.utxos
  | .pending root => ∃ o, l.pendings.lookup root = some o ∧ IsOriginal o ∧ key ∈ o.inputs
  | .spent root => (key, root) ∈ spentBy l.log ∧ ∃ id, Mark.committed id root ∈ l.log

/-! ### No coin is lost -/

/-- Every registered coin is stored or was taken out, and what was taken out for a root is still
locked under it or was spent by its family. -/
structure Ledger.Kept (l : Ledger) : Prop where
  registered : ∀ key ∈ registered l.log, key ∈ l.utxos ∨ ∃ root, (key, root) ∈ spentBy l.log
  taken : ∀ key root, (key, root) ∈ spentBy l.log →
    l.At key (.pending root) ∨ l.At key (.spent root)

theorem Ledger.Kept.initial (h : l.Initial) : l.Kept where
  registered := by
    intro key hkey
    rw [h.log] at hkey
    exact absurd hkey List.not_mem_nil
  taken := by
    intro key root hkey
    rw [h.log] at hkey
    exact absurd hkey List.not_mem_nil

/-- A coin that a step takes out is locked under a new original. -/
theorem Effect.takes (h : Effect host Completes cause l l') {key : OutPoint} {root : Txid}
    (hkey : (key, root) ∈ spentBy l'.log) :
    (key, root) ∈ spentBy l.log ∨ l'.At key (.pending root) := by
  cases h with
  | create cause info payee rest fees accounts hcreates =>
    rw [spentBy_append, List.mem_append] at hkey
    refine hkey.imp_right fun hnew ↦ ?_
    have hinput : key ∈ info.inputs ∧ root = info.btcPendingId := by
      simpa [spentBy, eq_comm] using hnew
    have horiginal : IsOriginal info := by
      rcases hcreates.kind with hstate | hstate <;> exact ⟨by rw [hstate]; rfl, by rw [hstate]; rfl⟩
    refine ⟨info, ?_, horiginal, hinput.1⟩
    rw [hinput.2]
    exact AList.lookup_insert _
  | lose p result =>
    left
    rwa [spentBy_append, (registered_lostMarks p result).2, List.append_nil] at hkey
  | _ =>
    left
    simpa [spentBy, Ledger.settle] using hkey

/-- A coin locked under an original stays locked, or the family of the original spends it. -/
theorem Effect.locked (h : Effect host Completes cause l l') {key : OutPoint} {root : Txid}
    (htaken : (key, root) ∈ spentBy l.log) (hkey : l.At key (.pending root)) :
    l'.At key (.pending root) ∨ l'.At key (.spent root) := by
  obtain ⟨o, ho, horiginal, hinput⟩ := hkey
  rcases h.departs ho with ⟨info, hinfo⟩ | hdeparts
  · have hcarries : Carries host o info := (h.kept ho hinfo).1
    left
    refine ⟨info, hinfo, ⟨?_, ?_⟩, ?_⟩
    · rw [hcarries.originalTxId]
      exact horiginal.original
    · rw [hcarries.isRefund]
      exact horiginal.refund
    · rw [hcarries.inputs]
      exact hinput
  · right
    refine ⟨h.mem_spentBy htaken, ?_⟩
    cases hdeparts with
    | confirmed hburns hm =>
      rw [BTCPendingInfo.root_of_original horiginal.original] at hm
      exact ⟨root, hm⟩
    | family txId hm => exact ⟨txId, hm⟩
    | dropped hdroppable =>
      rcases hdroppable with ⟨hchild, _⟩ | hrefund
      · exact absurd horiginal.original hchild
      · rw [horiginal.refund] at hrefund
        cases hrefund
    | finalised hrefund =>
      rw [horiginal.refund] at hrefund
      cases hrefund

theorem Ledger.Kept.step (hl : l.Kept) (h : Effect host Completes cause l l') : l'.Kept where
  registered := by
    intro key hkey
    have hmoved (hold : key ∈ SatoshiBridge.registered l.log)
        (hutxos : key ∈ l.utxos → key ∈ l'.utxos) :
        key ∈ l'.utxos ∨ ∃ root, (key, root) ∈ spentBy l'.log :=
      (hl.registered key hold).imp hutxos fun hspent ↦
        hspent.imp fun root htaken ↦ h.mem_spentBy htaken
    cases h.coins with
    | same hutxos hregistered hspent =>
      rw [hregistered] at hkey
      exact hmoved hkey fun hstored ↦ by rwa [hutxos]
    | deposited key' utxo hfrom hutxos hregistered hspent =>
      rw [hregistered, List.mem_append, List.mem_singleton] at hkey
      rcases hkey with hold | hnew
      · refine hmoved hold fun hstored ↦ ?_
        rw [hutxos, AList.mem_insert]
        exact Or.inr hstored
      · left
        rw [hutxos, AList.mem_insert]
        exact Or.inl hnew
    | taken info payee rest hcreates hutxos hregistered hspent =>
      rw [hregistered] at hkey
      by_cases hinput : key ∈ info.inputs
      · right
        refine ⟨info.btcPendingId, ?_⟩
        rw [hspent]
        exact List.mem_append_right _ (List.mem_map_of_mem hinput)
      · refine hmoved hkey fun hstored ↦ ?_
        have hrest := (FiniteMap.takeAll_spec hcreates.takes).2.2 key
        rw [if_neg hinput] at hrest
        rw [hutxos, FiniteMap.mem_iff_lookup, hrest]
        exact FiniteMap.mem_iff_lookup.mp hstored
    | settled txId info o tx hcommits hutxos hregistered hspent =>
      rw [hregistered, List.mem_append] at hkey
      rcases hkey with hold | hnew
      · refine hmoved hold fun hstored ↦ ?_
        rw [hutxos, FiniteMap.mem_insertAll]
        exact Or.inr hstored
      · left
        rw [hutxos, FiniteMap.mem_insertAll]
        exact Or.inl hnew
  taken := by
    intro key root hkey
    rcases h.takes hkey with hold | hnew
    · rcases hl.taken key root hold with hpending | ⟨_, id, hcommitted⟩
      · exact h.locked hold hpending
      · exact Or.inr ⟨hkey, id, h.mem_log hcommitted⟩
    · exact Or.inl hnew

theorem Ledger.Reached.kept (h : Ledger.Reached host Completes l) : l.Kept := by
  refine Ledger.Reached.induct (fun _ h₀ ↦ .initial h₀) (fun cause l l' _ hl heffect ↦ ?_) l h
  have hl : l.Kept := ⟨hl.registered, hl.taken⟩
  exact hl.step heffect

/-! ### One place -/

section Places

variable (hspending : l.Spending host) (hidentified : l.Identified host) {key : OutPoint}

include hspending hidentified

/-- A coin locked under an original was taken out for it. -/
theorem Ledger.Spending.of_locked {root : Txid} (hkey : l.At key (.pending root)) :
    (key, root) ∈ spentBy l.log := by
  obtain ⟨o, ho, horiginal, hinput⟩ := hkey
  have htaken := (hspending.pending root o ho horiginal.refund).2.1
  rw [BTCPendingInfo.root_of_original horiginal.original] at htaken
  exact (hidentified root o ho).spent htaken key hinput

/-- A coin is at one place at most. -/
theorem Ledger.Spending.at_unique {place place' : Place} (h : l.At key place)
    (h' : l.At key place') : place = place' := by
  have htaken {place : Place} {root : Txid} (hroot : place = .pending root ∨ place = .spent root)
      (hplace : l.At key place) : (key, root) ∈ spentBy l.log := by
    rcases hroot with heq | heq
    · rw [heq] at hplace
      exact hspending.of_locked hidentified hplace
    · rw [heq] at hplace
      exact hplace.1
  have hgone {root : Txid} (hpending : l.At key (.pending root)) (hspent : l.At key (.spent root)) :
      False := by
    obtain ⟨o, ho, _⟩ := hpending
    obtain ⟨_, id, hcommitted⟩ := hspent
    rw [(hspending.committed id root hcommitted).2.2.2] at ho
    cases ho
  cases place with
  | stored =>
    cases place' with
    | stored => rfl
    | pending root => exact absurd (htaken (Or.inl rfl) h') (hspending.unspent key h root)
    | spent root => exact absurd h'.1 (hspending.unspent key h root)
  | pending root =>
    cases place' with
    | stored => exact absurd (htaken (Or.inl rfl) h) (hspending.unspent key h' root)
    | pending root' =>
      rw [hspending.once key root root' (htaken (Or.inl rfl) h) (htaken (Or.inl rfl) h')]
    | spent root' =>
      have heq : root = root' := hspending.once key root root' (htaken (Or.inl rfl) h) h'.1
      subst heq
      exact (hgone h h').elim
  | spent root =>
    cases place' with
    | stored => exact absurd h.1 (hspending.unspent key h' root)
    | pending root' =>
      have heq : root = root' := hspending.once key root root' h.1 (htaken (Or.inl rfl) h')
      subst heq
      exact (hgone h' h).elim
    | spent root' => rw [hspending.once key root root' h.1 h'.1]

end Places

/-- A coin is registered exactly when it is somewhere. -/
theorem Ledger.Reached.registered_iff (laws : host.Lawful)
    (h : Ledger.Reached host Ledger.Unfinished l) {key : OutPoint} :
    key ∈ registered l.log ↔ ∃ place, l.At key place := by
  have hspending := h.spending laws
  constructor
  · intro hkey
    rcases h.kept.registered key hkey with hstored | ⟨root, htaken⟩
    · exact ⟨.stored, hstored⟩
    · exact (h.kept.taken key root htaken).elim (fun hat ↦ ⟨_, hat⟩) fun hat ↦ ⟨_, hat⟩
  · rintro ⟨place, hplace⟩
    cases place with
    | stored => exact hspending.stored key hplace
    | pending root => exact hspending.spent key root (hspending.of_locked h.identified hplace)
    | spent root => exact hspending.spent key root hplace.1

/-! ### Where change comes from -/

/-- Every pending transaction was created by the bridge as what it is. -/
def Ledger.Descended (host : Host) (l : Ledger) : Prop :=
  ∀ id info, l.pendings.lookup id = some info →
    ∃ first payee, Mark.created first payee ∈ l.log ∧ Carries host first info

theorem Ledger.Descended.step (hl : l.Descended host) (h : Effect host Completes cause l l') :
    l'.Descended host := by
  intro id info hinfo
  have hnew (payee : Option String) (hm : Mark.created info payee ∈ l'.log) :
      ∃ first payee, Mark.created first payee ∈ l'.log ∧ Carries host first info :=
    ⟨info, payee, hm, .refl host info⟩
  cases h.enters hinfo with
  | carried old hold hcarries =>
    obtain ⟨first, payee, hm, hfirst⟩ := hl id old hold
    exact ⟨first, payee, h.mem_log hm, hfirst.trans hcarries⟩
  | created payee rest hid hcreates hlog => exact hnew payee (by rw [hlog]; simp)
  | replaced root o o' payee extra hid hreplaces hlog =>
    exact hnew payee (by rw [hlog]; simp)
  | refunded call request nowSec hid hcreates hlog =>
    exact hnew (some request.refundAddress) (by rw [hlog]; simp)

theorem Ledger.Reached.descended (h : Ledger.Reached host Completes l) : l.Descended host := by
  have hinit : ∀ l : Ledger, l.Initial → l.Descended host := by
    intro l h₀ id info hinfo
    rw [h₀.pendings] at hinfo
    cases hinfo
  refine Ledger.Reached.induct hinit (fun cause l l' _ hl heffect ↦ ?_) l h
  exact Ledger.Descended.step (l := l) hl heffect

/-- A confirmed transaction is one the bridge built; its inputs were taken out for its family and
are covered by its change and its burn, and its change is registered. -/
structure Ledger.Settled (host : Host) (l : Ledger) (id root : Txid) (info : BTCPendingInfo) :
    Prop where
  created : ∃ payee, Mark.created info payee ∈ l.log
  named : info.btcPendingId = id
  txid : host.computeTxid (info.psbt.transaction host) = id
  refund : info.state.isRefund = false
  family : info.root id = root
  payment : ∃ payee, Payment host l.chain payee info
  spends : ∀ key ∈ info.inputs, (key, root) ∈ spentBy l.log
  coins : List.Forall₂ (Holds host l.chain) info.inputs info.vutxos
  change : ∀ index output, info.psbt.vout[index]? = some output →
    output.scriptPubkey = host.changeScript l.chain → ⟨id, index⟩ ∈ registered l.log

theorem Ledger.Settled.step {id root : Txid} {info : BTCPendingInfo}
    (hsettled : l.Settled host id root info) (h : Effect host Completes cause l l') :
    l'.Settled host id root info where
  created := hsettled.created.imp fun _ hm ↦ h.mem_log hm
  named := hsettled.named
  txid := hsettled.txid
  refund := hsettled.refund
  family := hsettled.family
  payment := by
    rw [h.chain]
    exact hsettled.payment
  spends := fun key hkey ↦ h.mem_spentBy (hsettled.spends key hkey)
  coins := by
    rw [h.chain]
    exact hsettled.coins
  change := by
    intro index output houtput hscript
    rw [h.chain] at hscript
    exact h.mem_registered (hsettled.change index output houtput hscript)

/-- A transaction that a step commits is pending with its original, and its change is registered. -/
theorem Effect.settles (h : Effect host Completes cause l l') {id root : Txid}
    (hm : Mark.committed id root ∈ l'.log) : Mark.committed id root ∈ l.log ∨
      ∃ info o tx, Commits l id info o tx ∧ root = info.root id ∧ info.state.isRefund = false ∧
        registered l'.log = registered l.log ++ (l.change host id tx).map Prod.fst := by
  cases h with
  | commitWithdraw env token account relayer amount relayerFee txId protocolFee result info o tx s
      fees hsuccess hcommits hstate =>
    simp only [Ledger.settle, List.mem_append, List.mem_cons, List.not_mem_nil, reduceCtorEq,
      or_false, false_or, Mark.committed.injEq] at hm
    refine hm.imp_right fun hboth ↦ ?_
    obtain ⟨hid, hroot⟩ := hboth
    subst hid
    exact ⟨info, o, tx, hcommits, hroot, hcommits.isRefund hstate,
      by simp [registered, Ledger.settle]⟩
  | commitActive env token account relayer amount txId result info o tx s fees hsuccess hcommits
      hstate =>
    simp only [Ledger.settle, List.mem_append, List.mem_cons, List.not_mem_nil, reduceCtorEq,
      or_false, false_or, Mark.committed.injEq] at hm
    refine hm.imp_right fun hboth ↦ ?_
    obtain ⟨hid, hroot⟩ := hboth
    subst hid
    exact ⟨info, o, tx, hcommits, hroot, hcommits.isRefund hstate,
      by simp [registered, Ledger.settle]⟩
  | lose p result =>
    rcases List.mem_append.mp hm with hold | hlost
    · exact Or.inl hold
    · obtain ⟨_, _, heq⟩ := Promise.mem_lostMarks.mp hlost
      cases heq
  | _ => exact Or.inl (by simpa using hm)

/-- Every committed transaction is settled. -/
def Ledger.Settles (host : Host) (l : Ledger) : Prop :=
  ∀ id root, Mark.committed id root ∈ l.log → ∃ info, l.Settled host id root info

section Step

variable (laws : host.Lawful) (hreached : Ledger.Reached host Ledger.Unfinished (cause.before l))
  (h : Effect host Ledger.Unfinished cause l l')

include laws hreached h

/-- A transaction is settled by the step that commits it. -/
theorem Commits.settled {id : Txid} {info o : BTCPendingInfo} {tx : Transaction}
    (hcommits : Commits l id info o tx) (hrefund : info.state.isRefund = false)
    (hregistered : registered l'.log = registered l.log ++ (l.change host id tx).map Prod.fst) :
    ∃ first, l'.Settled host id (info.root id) first := by
  have hdescended : l.Descended host := hreached.descended
  have hidentified : l.Identified host := hreached.identified
  have hpaid : l.Paid host := hreached.paid laws.toReadsAddresses
  have hfunded := hreached.funded laws.depositMsg_roundTrip
  have hspending : l.Spending host := (hreached.spending laws).of_before
  have hidentifies : Identifies host id info := hidentified id info hcommits.pending
  obtain ⟨first, payee, hm, hcarries⟩ := hdescended id info hcommits.pending
  refine ⟨first, ⟨payee, h.mem_log hm⟩, ?_, ?_, ?_, (hcarries.root id).symm, ?_, ?_, ?_, ?_⟩
  · rw [← hcarries.btcPendingId]
    exact hidentifies.named
  · rw [← hcarries.transaction]
    exact hidentifies.txid
  · rw [← hcarries.isRefund]
    exact hrefund
  · obtain ⟨payee', _, hpayment⟩ := hpaid first payee hm
    rw [h.chain]
    exact ⟨payee', hpayment⟩
  · intro key hkey
    rw [← hcarries.inputs] at hkey
    have htaken := (hspending.pending id info hcommits.pending hrefund).2.1
    exact h.mem_spentBy (hidentifies.spent htaken key hkey)
  · rw [h.chain, ← hcarries.inputs, ← hcarries.vutxos]
    exact (hfunded id info hcommits.pending).spends
  · intro index output houtput hscript
    rw [h.chain] at hscript
    have houtputs : tx.output = first.psbt.vout := by
      rw [hidentifies.signed tx hcommits.tx, ← hcarries.vout]
      rfl
    rw [← houtputs] at houtput
    have hchange : (⟨id, index⟩, ⟨host.currentAccountId, [], index, output.value⟩) ∈
        l.change host id tx :=
      mem_changeUtxos.mpr ⟨index, output, houtput, hscript, rfl, rfl⟩
    rw [hregistered]
    exact List.mem_append_right _ (List.mem_map.mpr ⟨_, hchange, rfl⟩)

theorem Ledger.Settles.step (hl : l.Settles host) : l'.Settles host := by
  intro id root hm
  rcases h.settles hm with hold | ⟨info, o, tx, hcommits, hroot, hrefund, hregistered⟩
  · obtain ⟨info, hsettled⟩ := hl id root hold
    exact ⟨info, hsettled.step h⟩
  · rw [hroot]
    exact hcommits.settled laws hreached h hrefund hregistered

end Step

theorem Ledger.Reached.settles (laws : host.Lawful)
    (h : Ledger.Reached host Ledger.Unfinished l) : l.Settles host := by
  have hinit : ∀ l : Ledger, l.Initial → l.Settles host := by
    intro l h₀ id root hm
    rw [h₀.log] at hm
    exact absurd hm List.not_mem_nil
  refine Ledger.Reached.induct hinit (fun cause l l' hreached hl heffect ↦ ?_) l h
  refine Ledger.Settles.step (l := l) laws hreached heffect fun id root hm ↦ ?_
  obtain ⟨info, hsettled⟩ := hl id root hm
  exact ⟨info, hsettled.created, hsettled.named, hsettled.txid, hsettled.refund, hsettled.family,
    hsettled.payment, hsettled.spends, hsettled.coins, hsettled.change⟩

end SatoshiBridge

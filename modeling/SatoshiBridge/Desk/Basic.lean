import Mathlib.Logic.Relation
import SatoshiBridge.Invariants.Stages
import SatoshiBridge.Library.Index

/-!
# The lists of the accounts

What the contract keeps beside its pending transactions so that they are found: the lists of the
accounts and the families of the originals. `Desk` forgets everything else. A step of the desk is
one of a few kinds, and the lists stay right in each of them as long as the stages of the
transactions are in order.
-/

set_option autoImplicit false
set_option relaxedAutoImplicit false

namespace SatoshiBridge

open FiniteMap (Indexes Unowned)

structure Desk where
  pendings : FiniteMap Txid BTCPendingInfo
  signs : AccountId → Finset Txid
  verifies : AccountId → Finset Txid
  families : FiniteMap Txid (Finset Txid)
  limit : AccountId → ℕ

namespace Desk

/-! ### Edits -/

variable (d : Desk) (a : AccountId) (id : Txid)

def put (info : BTCPendingInfo) : Desk := { d with pendings := d.pendings.insert id info }

def take : Desk := { d with pendings := d.pendings.erase id }

def addSign : Desk := { d with signs := Function.update d.signs a (insert id (d.signs a)) }

def dropSign : Desk := { d with signs := Function.update d.signs a ((d.signs a).erase id) }

def addVerify : Desk :=
  { d with verifies := Function.update d.verifies a (insert id (d.verifies a)) }

def dropVerify : Desk :=
  { d with verifies := Function.update d.verifies a ((d.verifies a).erase id) }

/-- A replacement enters the family of its original. -/
def join (root : Txid) : Desk :=
  { d with families := d.families.insert root (insert id ((d.families.lookup root).getD ∅)) }

/-- The family of an original is dissolved. -/
def disband (root : Txid) : Desk := { d with families := d.families.erase root }

/-! ### Steps -/

/-- `info` is `old` as far as the desk is concerned, up to the stage. -/
structure Keeps (old info : BTCPendingInfo) : Prop where
  accountId : info.accountId = old.accountId
  originalTxId : info.state.originalTxId = old.state.originalTxId
  isRefund : info.state.isRefund = old.state.isRefund

theorem Keeps.of_carries {host : Host} {old info : BTCPendingInfo} (h : Carries host old info) :
    Keeps old info := ⟨h.accountId, h.originalTxId, h.isRefund⟩

/-- A replacement without a family is dropped. -/
inductive Drop : Desk → Desk → Prop
  | mk {d : Desk} (id root : Txid) (info : BTCPendingInfo)
    (hinfo : d.pendings.lookup id = some info)
      (hchild : info.state.originalTxId = some root)
      (hgone : d.families.lookup root = none ∨ d.pendings.lookup root = none) :
      Drop d ((d.take id).dropSign info.accountId id)

/-- One step of the desk; `Burns` says for which transactions a burn is answered. -/
inductive Effect (Burns : Txid → Prop) : Desk → Desk → Prop
  | quiet {d : Desk} (limit : AccountId → ℕ) : Effect Burns d { d with limit := limit }
  | create {d : Desk} (info : BTCPendingInfo)
      (hfresh : d.pendings.lookup info.btcPendingId = none)
      (horiginal : info.state.originalTxId = none) (hstage : info.state.stage = .pendingSign)
      (hcapacity : (d.signs info.accountId).card < d.limit info.accountId) :
      Effect Burns d ((d.put info.btcPendingId info).addSign info.accountId info.btcPendingId)
  | replace {d : Desk} (root : Txid) (o o' info : BTCPendingInfo)
      (ho : d.pendings.lookup root = some o) (hkeeps : Keeps o o')
      (hstage' : o'.state.stage = o.state.stage) (horiginal : o.state.originalTxId = none)
      (hrefund : o.state.isRefund = false)
      (hfresh : d.pendings.lookup info.btcPendingId = none)
      (hchild : info.state.originalTxId = some root) (hstage : info.state.stage = .pendingSign)
      (hcapacity : (d.signs info.accountId).card < d.limit info.accountId) :
      Effect Burns d ((((d.put root o').put info.btcPendingId info).addSign info.accountId
        info.btcPendingId).join info.btcPendingId root)
  | restage {d : Desk} (id : Txid) (old info : BTCPendingInfo)
      (hold : d.pendings.lookup id = some old) (hkeeps : Keeps old info)
      (hstage : (info.state.stage = .pendingSign ↔ old.state.stage = .pendingSign) ∨
        (Burns id ∧ info.state.stage ≠ .pendingSign)) :
      Effect Burns d (d.put id info)
  | complete {d : Desk} (a : AccountId) (id : Txid) (old info : BTCPendingInfo)
      (hold : d.pendings.lookup id = some old) (hkeeps : Keeps old info) (hlisted : id ∈ d.signs a)
      (hstage : info.state.stage ≠ .pendingSign) :
      Effect Burns d (if info.state.originalTxId = none
        then ((d.put id info).dropSign a id).addVerify a id else (d.put id info).dropSign a id)
  | settle {d : Desk} (txId root : Txid) (info o : BTCPendingInfo) (hburns : Burns txId)
      (hinfo : d.pendings.lookup txId = some info) (hroot : root = info.root txId)
      (ho : d.pendings.lookup root = some o) :
      Effect Burns d ((((d.take root).take txId).dropVerify info.accountId root).disband root)
  | clear {d d' : Desk} (h : Relation.ReflTransGen Drop d d') : Effect Burns d d'
  | dropRefund {d : Desk} (id : Txid) (info : BTCPendingInfo)
      (hinfo : d.pendings.lookup id = some info) (hrefund : info.state.isRefund = true) :
      Effect Burns d (((d.take id).dropSign info.accountId id).dropVerify info.accountId id)
  | finalise {d : Desk} (id : Txid) (info : BTCPendingInfo)
      (hinfo : d.pendings.lookup id = some info) (hrefund : info.state.isRefund = true)
      (hstage : info.state.stage = .pendingVerify) :
      Effect Burns d ((d.take id).dropVerify info.accountId id)

/-! ### The invariant -/

/-- Who has to sign a transaction. -/
def signOwner (info : BTCPendingInfo) : Option AccountId :=
  if info.state.stage = .pendingSign then some info.accountId else none

/-- Whose list of transactions to verify a transaction is on: replacements are on none. -/
def verifyOwner (info : BTCPendingInfo) : Option AccountId :=
  if info.state.originalTxId = none ∧ info.state.stage ≠ .pendingSign then some info.accountId
  else none

/-- A pending transaction of some kind. -/
def Has (d : Desk) (P : BTCPendingInfo → Prop) (id : Txid) : Prop :=
  ∃ info, d.pendings.lookup id = some info ∧ P info

/-- A pending replacement of an original. -/
def IsChild (d : Desk) (root id : Txid) : Prop :=
  d.Has (fun info ↦ info.state.originalTxId = some root) id

/-- A pending original. -/
def IsOriginal (d : Desk) (root : Txid) : Prop :=
  d.Has (fun o ↦ o.state.originalTxId = none ∧ o.state.isRefund = false) root

/-- The families are those of the pending originals, and a pending original with a replacement has
one. -/
structure Families (d : Desk) : Prop where
  family : ∀ root members, d.families.lookup root = some members → d.IsOriginal root ∧
    ∀ id, id ∈ members ↔ d.IsChild root id
  live : ∀ root id, d.IsChild root id → d.IsOriginal root → root ∈ d.families

structure Sound (d : Desk) : Prop where
  signs : Indexes signOwner d.signs d.pendings
  verifies : Indexes verifyOwner d.verifies d.pendings
  families : d.Families

/-- The pending replacements of pending originals are in order. -/
def Orderly (d : Desk) : Prop :=
  ∀ id info root o, d.pendings.lookup id = some info → info.state.originalTxId = some root →
    d.pendings.lookup root = some o → OriginalOf o info

end Desk

end SatoshiBridge

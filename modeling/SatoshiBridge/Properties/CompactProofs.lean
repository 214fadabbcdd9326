import SatoshiBridge.Model.SampleHost
import SatoshiBridge.Model.Zip244

/-!
# Compact proofs bind the outputs

A compact proof is accepted only with digests of 32 bytes and the node count of its version, so its
tree and the tree of a transaction with the same id are laid out alike. Unless two hashed inputs
collide, their outputs digests agree, and the serialization of outputs can be read in one way only.
-/

set_option autoImplicit false
set_option relaxedAutoImplicit false

namespace SatoshiBridge

open ZcashTransaction

variable {host : Host}

/-- What an accepted proof has passed. -/
structure CompactTxProof.Accepted (host : Host) (proof : CompactTxProof) (txId : Txid) :
    Prop where
  header : proof.headerDigest.length = 32
  prevouts : proof.prevoutsDigest.length = 32
  sequence : proof.sequenceDigest.length = 32
  sapling : proof.saplingDigest.length = 32
  orchard : proof.orchardDigest.length = 32
  ironwood : ∀ d ∈ proof.ironwoodDigest, d.length = 32
  values : ∀ o ∈ proof.outputs, o.value ≤ maxMoney
  version : (proof.versionHeader = v5TxVersionHeader ∧ proof.ironwoodDigest = none) ∨
    (proof.versionHeader = v6TxVersionHeader ∧ proof.ironwoodDigest.isSome = true)
  txId : txId = txidOfBytes (digest host (proof.rootInput host))

theorem ironwoodNode_spec {versionHeader : ℕ} {ironwoodDigest : Option (List UInt8)}
    {nodes : List (List UInt8)} (h : ironwoodNode versionHeader ironwoodDigest = some nodes) :
    nodes = ironwoodDigest.toList ∧
      ((versionHeader = v5TxVersionHeader ∧ ironwoodDigest = none) ∨
        (versionHeader = v6TxVersionHeader ∧ ironwoodDigest.isSome = true)) := by
  unfold ironwoodNode at h
  by_cases h5 : versionHeader = v5TxVersionHeader
  · simp only [if_pos h5, Option.bind_eq_bind, Option.bind_eq_some_iff, require_eq_some,
      Option.isNone_iff_eq_none, Option.some.injEq, exists_const] at h
    obtain ⟨hnone, rfl⟩ := h
    rw [hnone]
    exact ⟨rfl, Or.inl ⟨h5, rfl⟩⟩
  · rw [if_neg h5] at h
    by_cases h6 : versionHeader = v6TxVersionHeader
    · simp only [if_pos h6, Option.bind_eq_bind, Option.bind_eq_some_iff,
        Option.some.injEq] at h
      obtain ⟨d, hd, rfl⟩ := h
      rw [hd]
      exact ⟨rfl, Or.inr ⟨h6, rfl⟩⟩
    · rw [if_neg h6] at h
      cases h

theorem digest32Option_spec {bytes bytes' : Option (List UInt8)}
    (h : digest32Option bytes = some bytes') : bytes' = bytes ∧ ∀ d ∈ bytes, d.length = 32 := by
  cases bytes with
  | none =>
    cases h
    exact ⟨rfl, fun d hd ↦ by cases hd⟩
  | some d =>
    simp only [digest32Option, digest32, Option.map_eq_some_iff, Option.bind_eq_bind,
      Option.bind_eq_some_iff, require_eq_some, Option.some.injEq, exists_const] at h
    obtain ⟨_, ⟨hlength, rfl⟩, rfl⟩ := h
    refine ⟨rfl, fun d' hd' ↦ ?_⟩
    rw [← Option.mem_some_iff.mp hd']
    exact hlength

theorem CompactTxProof.resolve_accepted {proof : CompactTxProof} {txId : Txid}
    {outputs : List TxOut} (h : proof.resolve host = some ⟨txId, outputs⟩) :
    outputs = proof.outputs ∧ proof.Accepted host txId := by
  simp only [CompactTxProof.resolve, CompactTxProof.compactTxid, digest32, outputsDigest,
    Option.bind_eq_bind, Option.bind_eq_some_iff, require_eq_some, Option.some.injEq,
    exists_and_left, exists_const, DepositTxSummary.mk.injEq] at h
  obtain ⟨_, txId', ⟨header, ⟨hh, rfl⟩, prevouts, ⟨hp, rfl⟩, sequence, ⟨hs, rfl⟩, sapling,
    ⟨hsapling, rfl⟩, orchard, ⟨horchard, rfl⟩, ironwood, hironwood, hnonempty, _,
    ⟨hvalues, rfl⟩, nodes, hnodes, rfl⟩, rfl, rfl⟩ := h
  obtain ⟨rfl, hlength⟩ := digest32Option_spec hironwood
  obtain ⟨rfl, hversion⟩ := ironwoodNode_spec hnodes
  exact ⟨rfl, hh, hp, hs, hsapling, horchard, hlength, hvalues, hversion, rfl⟩

/-! ### Binding -/

/-- The nodes of two trees with one root agree from the second on. -/
theorem nodes_inj {header transparent sapling orchard header' transparent' sapling'
    orchard' : List UInt8} {rest rest' : List UInt8}
    (hh : header.length = header'.length) (ht : transparent.length = transparent'.length)
    (hs : sapling.length = sapling'.length) (ho : orchard.length = orchard'.length)
    (h : header ++ transparent ++ sapling ++ orchard ++ rest =
      header' ++ transparent' ++ sapling' ++ orchard' ++ rest') :
    transparent = transparent' ∧ rest = rest' := by
  simp only [List.append_assoc] at h
  have hafterHeader := (List.append_inj h hh).2
  have htransparent := List.append_inj hafterHeader ht
  have hafterSapling := (List.append_inj htransparent.2 hs).2
  exact ⟨htransparent.1, (List.append_inj hafterSapling ho).2⟩

/-- The number of nodes tells the versions apart. -/
theorem CompactTxProof.Accepted.version_eq {proof : CompactTxProof} {txId : Txid}
    (h : proof.Accepted host txId) {t : ZcashTransaction}
    (hnodes : proof.ironwoodDigest.toList.flatten = t.ironwoodNodes.flatten) :
    proof.versionHeader = t.version.header := by
  have hcount := congrArg List.length hnodes
  rcases h.version with ⟨hheader, hnone⟩ | ⟨hheader, hsome⟩
  · cases ht : t.version with
    | v5 => exact hheader
    | v6 =>
      rw [hnone, ironwoodNodes, ht] at hcount
      simp only [Option.toList_none, List.flatten_nil, List.length_nil, List.flatten_singleton,
        t.ironwoodDigest.2] at hcount
      omega
  · obtain ⟨d, hd⟩ := Option.isSome_iff_exists.mp hsome
    have hlength := h.ironwood d hd
    cases ht : t.version with
    | v5 =>
      rw [hd, ironwoodNodes, ht] at hcount
      simp only [Option.toList_some, List.flatten_nil, List.length_nil, List.flatten_singleton,
        hlength] at hcount
      omega
    | v6 => exact hheader

/-- Whatever a relayer chooses for the digests, the branch and the version, an accepted compact
proof of a transaction has the transaction's version and exactly its transparent outputs. -/
theorem resolve_binds_outputs
    (hlength : ∀ personal input, (host.blake2b personal input).length = 32)
    (hwriter : host.writeTxOut = txOutCodec.write)
    {proof : CompactTxProof} {txId : Txid} {outputs : List TxOut} {t : ZcashTransaction}
    (hcollision : ∀ x ∈ proof.hashed host, ∀ y ∈ t.hashed host,
      digest host x = digest host y → x = y)
    (hscripts : ∀ o ∈ proof.outputs, o.scriptPubkey.length < 256 ^ 8)
    (hvout : ∀ o ∈ t.vout, txOutCodec.valid o)
    (hresolve : proof.resolve host = some ⟨txId, outputs⟩) (htxid : t.txid host = txId) :
    proof.versionHeader = t.version.header ∧ outputs = t.vout := by
  obtain ⟨rfl, haccepted⟩ := CompactTxProof.resolve_accepted hresolve
  have hroots : proof.rootInput host = t.rootInput host := by
    refine hcollision _ List.mem_cons_self _ List.mem_cons_self (txidOfBytes_injective ?_)
    rw [← haccepted.txId]
    exact htxid.symm
  obtain ⟨htransparent, hnodes⟩ := nodes_inj (haccepted.header.trans (hlength _ _).symm)
    ((hlength _ _).trans (hlength _ _).symm) (haccepted.sapling.trans t.saplingDigest.2.symm)
    (haccepted.orchard.trans t.orchardDigest.2.symm) (congrArg Prod.snd hroots)
  have hversion := haccepted.version_eq (t := t) hnodes
  refine ⟨hversion, ?_⟩
  have hinputs : proof.transparentInput host = t.transparentInput host :=
    hcollision _ (List.mem_cons_of_mem _ List.mem_cons_self) _
      (List.mem_cons_of_mem _ List.mem_cons_self) htransparent
  have hbundles := congrArg Prod.snd hinputs
  cases hbundle : t.transparent with
  | none =>
    -- The digest of no transparent part is over nothing, the one of the proof is not.
    have hnil : proof.prevoutsDigest ++ proof.sequenceDigest ++
        digest host (outputsInput host proof.outputs) = [] := by
      rw [transparentInput, hbundle] at hbundles
      exact hbundles
    have hzero := congrArg List.length hnil
    simp only [List.length_append, haccepted.prevouts, List.length_nil] at hzero
    omega
  | some b =>
    have hparts : proof.prevoutsDigest ++ proof.sequenceDigest ++
        digest host (outputsInput host proof.outputs) =
      digest host (prevoutsInput b) ++ digest host (sequenceInput b) ++
        digest host (outputsInput host b.vout) := by
      rw [transparentInput, hbundle] at hbundles
      exact hbundles
    have hdigests := (List.append_inj' hparts ((hlength _ _).trans (hlength _ _).symm)).2
    have hmem : outputsInput host b.vout ∈ t.hashed host := by
      unfold ZcashTransaction.hashed
      rw [hbundle]
      exact List.mem_append_right _ List.mem_cons_self
    have hwritten := congrArg Prod.snd (hcollision _
      (List.mem_cons_of_mem _ (List.mem_cons_of_mem _ List.mem_cons_self)) _ hmem hdigests)
    have hcodec : proof.outputs.flatMap txOutCodec.write = b.vout.flatMap txOutCodec.write := by
      rw [← hwriter]
      exact hwritten
    have ht : t.vout = b.vout := by
      unfold ZcashTransaction.vout
      rw [hbundle]
      rfl
    rw [ht] at hvout ⊢
    refine txOutCodec.flatMap_injective ?_ hvout hcodec
    intro o ho
    have hvalue := haccepted.values o ho
    exact ⟨lt_of_le_of_lt hvalue (by decide), hscripts o ho⟩

namespace Sample

/-- A Zcash host whose digests have 32 bytes and whose outputs are written by consensus rules. -/
noncomputable def compactHost : Host :=
  { Sample.host true with
    blake2b := fun personal input ↦ PrefixCodec.leBytes 32
      ((personal ++ input).foldl (fun n b ↦ n * 257 + b.toNat + 1) 0)
    writeTxOut := txOutCodec.write }

/-- One input, two outputs and an Ironwood bundle. -/
def ironwoodBundle : TransparentBundle where
  vin := [⟨List.replicate 36 7, 0xFFFFFFFE⟩]
  vout := [⟨1000, [118, 169]⟩, ⟨25, []⟩]

def ironwoodTx : ZcashTransaction where
  version := .v6
  versionGroupId := 1
  consensusBranchId := 2
  lockTime := 0
  expiryHeight := 100
  transparent := some ironwoodBundle
  saplingDigest := ⟨List.replicate 32 1, rfl⟩
  orchardDigest := ⟨List.replicate 32 2, rfl⟩
  ironwoodDigest := ⟨List.replicate 32 3, rfl⟩

end Sample

theorem resolve_binds_outputs_ironwood :
    ((Sample.ironwoodTx.compactProof Sample.compactHost Sample.ironwoodBundle).resolve
        Sample.compactHost = some ⟨Sample.ironwoodTx.txid Sample.compactHost,
          Sample.ironwoodBundle.vout⟩) ∧
      (Sample.ironwoodTx.compactProof Sample.compactHost Sample.ironwoodBundle).versionHeader =
        Sample.ironwoodTx.version.header ∧
      Sample.ironwoodBundle.vout = Sample.ironwoodTx.vout := by
  have hlength (personal input : List UInt8) :
      (Sample.compactHost.blake2b personal input).length = 32 := PrefixCodec.length_leBytes _ _
  have hresolve : (Sample.ironwoodTx.compactProof Sample.compactHost
      Sample.ironwoodBundle).resolve Sample.compactHost = some
        ⟨Sample.ironwoodTx.txid Sample.compactHost, Sample.ironwoodBundle.vout⟩ := by
    decide +kernel
  refine ⟨hresolve, resolve_binds_outputs hlength rfl ?_ ?_ ?_ hresolve rfl⟩
  · decide +kernel
  · decide +kernel
  · intro o ho
    simp only [Sample.ironwoodTx, Sample.ironwoodBundle, ZcashTransaction.vout, Option.map_some,
      Option.getD_some, List.mem_cons, List.not_mem_nil, or_false] at ho
    rcases ho with rfl | rfl
    · exact ⟨by decide, by decide⟩
    · exact ⟨by decide, by decide⟩

end SatoshiBridge

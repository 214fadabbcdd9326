import SatoshiBridge.Model.SampleNetwork
import SatoshiBridge.Properties.Recipients

/-!
# The addresses refunds are paid to

A refund address is accepted when it parses. It is paid by a transparent output to its script or by
a bundle to its Orchard receiver; a unified address that has receivers of other kinds only parses
and has neither.
-/

set_option autoImplicit false
set_option relaxedAutoImplicit false

namespace SatoshiBridge

variable {host : Host} {c : Contract} {codecs : AddressCodecs}

/-- A refund of an amount can be paid to an address: by a transparent output or by a bundle that
passes the validation. -/
def Contract.RefundPayable (host : Host) (c : Contract) (refundAddress : String) (amount : ℕ) :
    Prop :=
  (∃ output, c.buildRefundOutput host refundAddress amount = some output) ∨
    ∃ psbt : PsbtWrapper, psbt.orchardAmount = amount ∧
      psbt.validateOrchardBundle host refundAddress c.config.chain = some ()

/-! ### Receivers -/

theorem NetworkAddress.transparentScript_isSome_iff {items : List UnifiedReceiver} :
    (transparentScript items).isSome ↔ ∃ item ∈ items, item ≠ .other ∧ ∀ b, item ≠ .orchard b := by
  induction items with
  | nil => simp [transparentScript]
  | cons item items ih =>
    cases item with
    | p2pkh data => simp [transparentScript]
    | p2sh data => simp [transparentScript]
    | orchard bytes => simp [transparentScript, ih]
    | other => simp [transparentScript, ih]

/-- Among the receivers of a unified address one can be paid, unless all are of other kinds. -/
theorem NetworkAddress.unified_payable_iff {items : List UnifiedReceiver} {chain : Chain} :
    ((unified items chain).scriptPubkey.isSome ∨
      (unified items chain).extractOrchardReceiver.isSome) ↔ ∃ item ∈ items, item ≠ .other := by
  rw [scriptPubkey, extractOrchardReceiver, transparentScript_isSome_iff, List.findSome?_isSome_iff]
  constructor
  · rintro (⟨item, hitem, hother, _⟩ | ⟨item, hitem, hsome⟩)
    · exact ⟨item, hitem, hother⟩
    · refine ⟨item, hitem, ?_⟩
      rintro rfl
      cases hsome
  · rintro ⟨item, hitem, hother⟩
    cases item with
    | orchard bytes => exact Or.inr ⟨_, hitem, rfl⟩
    | p2pkh data => exact Or.inl ⟨_, hitem, hother, fun _ h ↦ by cases h⟩
    | p2sh data => exact Or.inl ⟨_, hitem, hother, fun _ h ↦ by cases h⟩
    | other => exact absurd rfl hother

/-- What is parsed on a chain without the Zcash formats has a script. -/
theorem AddressCodecs.scriptPubkey_isSome_of_parse {text : String} {chain : Chain}
    {address : NetworkAddress} (hchain : chain.isZcash = false)
    (h : codecs.parse text chain = some address) : address.scriptPubkey.isSome := by
  simp only [parse, hchain, Bool.false_eq_true, if_false] at h
  split at h
  · simp only [Option.bind_eq_bind, Option.bind_eq_some_iff, Option.some.injEq] at h
    obtain ⟨_, _, w, _, rfl⟩ := h
    rfl
  · simp only [parseBase58, Option.bind_eq_bind, Option.bind_eq_some_iff] at h
    obtain ⟨data, _, h⟩ := h
    split at h
    · obtain ⟨hash, _, haddress⟩ := Option.bind_eq_some_iff.mp h
      rw [← Option.some.inj haddress]
      rfl
    · split at h
      · obtain ⟨hash, _, haddress⟩ := Option.bind_eq_some_iff.mp h
        rw [← Option.some.inj haddress]
        rfl
      · cases h

/-- A parsed address can be paid, unless it is a unified address all of whose receivers are of other
kinds. -/
theorem AddressCodecs.payable_iff {text : String} {chain : Chain} {address : NetworkAddress}
    (h : codecs.parse text chain = some address) :
    (address.scriptPubkey.isSome ∨ address.extractOrchardReceiver.isSome) ↔
      ¬ (chain.isZcash = true ∧ ∃ items, codecs.zcashDecode chain text = some (.unified items) ∧
        ∀ item ∈ items, item = .other) := by
  by_cases hchain : chain.isZcash = true
  · rw [parse, if_pos hchain] at h
    obtain ⟨zcash, hdecode, haddress⟩ := Option.bind_eq_some_iff.mp h
    simp only [hchain, hdecode, true_and, Option.some.injEq]
    cases zcash with
    | unified items =>
      rw [← Option.some.inj haddress, NetworkAddress.unified_payable_iff]
      constructor
      · rintro ⟨item, hitem, hother⟩ ⟨items', heq, hall⟩
        rw [ZcashAddress.unified.injEq] at heq
        rw [heq] at hitem
        exact hother (hall item hitem)
      · intro hsome
        by_contra hnone
        refine hsome ⟨items, rfl, fun item hitem ↦ ?_⟩
        by_contra hother
        exact hnone ⟨item, hitem, hother⟩
    | p2pkh data | tex data | p2sh data =>
      rw [← Option.some.inj haddress]
      simp [NetworkAddress.scriptPubkey]
    | other => cases haddress
  · rw [Bool.not_eq_true] at hchain
    simp [scriptPubkey_isSome_of_parse hchain h, hchain]

/-! ### Payments -/

variable {refundAddress : String} {address : Address}

/-- A script takes a transparent output, an Orchard receiver takes a bundle. -/
theorem refundPayable_of
    (hparse : host.parseAddress c.config.chain refundAddress = some address)
    (h : address.scriptPubkey.isSome ∨ address.orchardReceiver.isSome) {amount : ℕ}
    (hamount : amount < 2 ^ 63) : c.RefundPayable host refundAddress amount := by
  rcases h with hscript | horchard
  · obtain ⟨script, hscript⟩ := Option.isSome_iff_exists.mp hscript
    left
    refine ⟨⟨amount, script⟩, ?_⟩
    have hwidth : amount < 2 ^ 64 := by omega
    simp only [Contract.buildRefundOutput, hparse, hscript, require_of hwidth,
      Option.bind_eq_bind, Option.bind_some]
  · obtain ⟨receiver, hreceiver⟩ := Option.isSome_iff_exists.mp horchard
    right
    let parsed : ParsedOrchardBundle := ⟨⟨[], 1, -(amount : ℤ)⟩, ⟨amount, receiver⟩⟩
    refine ⟨⟨none, 0, [], [], [], some parsed, none⟩, Nat.add_zero amount, ?_⟩
    simp only [PsbtWrapper.validateOrchardBundle, hparse, hreceiver, parsed, require_of hamount,
      Option.bind_eq_bind, Option.bind_some]
    rfl

/-- An accepted refund address can be paid, and every amount can be refunded to it, exactly when it
is no unified address all of whose receivers are of other kinds. -/
theorem acceptedRefundAddress_payable_iff (hnetwork : codecs.Describes host)
    (haccepted : c.assertValidRefundAddress host refundAddress = some ()) :
    ((∃ address, host.parseAddress c.config.chain refundAddress = some address ∧
        (address.scriptPubkey.isSome ∨ address.orchardReceiver.isSome)) ∧
      ∀ amount < 2 ^ 63, c.RefundPayable host refundAddress amount) ↔
    ¬ (c.config.chain.isZcash = true ∧
      ∃ items, codecs.zcashDecode c.config.chain refundAddress = some (.unified items) ∧
        ∀ item ∈ items, item = .other) := by
  simp only [Contract.assertValidRefundAddress, Option.bind_eq_bind, Option.bind_eq_some_iff,
    and_true] at haccepted
  obtain ⟨address, haddress⟩ := haccepted
  have hparse := haddress
  rw [hnetwork.parseAddress, Option.map_eq_some_iff] at hparse
  obtain ⟨parsed, hparsed, rfl⟩ := hparse
  rw [← AddressCodecs.payable_iff hparsed]
  constructor
  · rintro ⟨⟨address, hother, hpayable⟩, _⟩
    rw [haddress, Option.some.injEq] at hother
    rw [← hother] at hpayable
    exact hpayable
  · intro hpayable
    exact ⟨⟨_, haddress, hpayable⟩, fun amount hamount ↦ refundPayable_of haddress hpayable hamount⟩

/-! ### Unified addresses -/

namespace Sample

/-- The codecs of the sample network, with two unified addresses: one with a Sapling receiver only,
one with an Orchard receiver too. -/
def unifiedCodecs : AddressCodecs :=
  { Sample.codecs with
    zcashDecode := fun chain text ↦
      if text = "u-sapling" then some (.unified [.other])
      else if text = "u-orchard" then some (.unified [.other, .orchard [1]])
      else Sample.codecs.zcashDecode chain text }

noncomputable def unifiedHost : Host :=
  { networkHost with
    zcash := true
    parseAddress := fun chain text ↦ (unifiedCodecs.parse text chain).map NetworkAddress.payable }

theorem unifiedCodecs_describe : unifiedCodecs.Describes unifiedHost where
  parseAddress := fun _ _ ↦ rfl
  addressOfScript := fun chain script ↦ codecs_describe.addressOfScript chain script
  derived := fun chain key path ↦ codecs_describe.derived chain key path

def zcashConfig : Config := { config with chain := .zcashMainnet }

end Sample

/-- An address with an Orchard receiver can be paid. -/
theorem acceptedRefundAddress_payable_orchard :
    ∃ c, Contract.new (Sample.env "dao" 0 0) Sample.zcashConfig = some c ∧
      (∃ address, Sample.unifiedHost.parseAddress c.config.chain "u-orchard" = some address ∧
        (address.scriptPubkey.isSome ∨ address.orchardReceiver.isSome)) ∧
      ∀ amount < 2 ^ 63, c.RefundPayable Sample.unifiedHost "u-orchard" amount := by
  have hnew : (Contract.new (Sample.env "dao" 0 0) Sample.zcashConfig).isSome := by decide +kernel
  obtain ⟨c, hc⟩ := Option.isSome_iff_exists.mp hnew
  obtain ⟨hconfig, _⟩ := Contract.new_config hc
  have haccepted : c.assertValidRefundAddress Sample.unifiedHost "u-orchard" = some () := by
    rw [Contract.assertValidRefundAddress, hconfig]
    rfl
  refine ⟨c, hc, (acceptedRefundAddress_payable_iff Sample.unifiedCodecs_describe
    haccepted).mpr ?_⟩
  rintro ⟨_, items, hitems, hall⟩
  have hdecode : Sample.unifiedCodecs.zcashDecode .zcashMainnet "u-orchard" =
    some (.unified [.other, .orchard [1]]) := rfl
  rw [hconfig] at hitems
  change Sample.unifiedCodecs.zcashDecode .zcashMainnet "u-orchard" = _ at hitems
  rw [hdecode, Option.some.injEq, ZcashAddress.unified.injEq] at hitems
  have hlast := hall (.orchard [1]) (by rw [← hitems]; simp)
  cases hlast

/-- An address with a Sapling receiver only is accepted and cannot be paid. -/
theorem acceptedRefundAddress_unpayable :
    ∃ c, Contract.new (Sample.env "dao" 0 0) Sample.zcashConfig = some c ∧
      c.assertValidRefundAddress Sample.unifiedHost "u-sapling" = some () ∧
      ¬ ∃ address, Sample.unifiedHost.parseAddress c.config.chain "u-sapling" = some address ∧
        (address.scriptPubkey.isSome ∨ address.orchardReceiver.isSome) := by
  have hnew : (Contract.new (Sample.env "dao" 0 0) Sample.zcashConfig).isSome := by decide +kernel
  obtain ⟨c, hc⟩ := Option.isSome_iff_exists.mp hnew
  obtain ⟨hconfig, _⟩ := Contract.new_config hc
  have hnone : Sample.unifiedHost.parseAddress .zcashMainnet "u-sapling" = some ⟨none, none⟩ := rfl
  refine ⟨c, hc, ?_, ?_⟩
  · rw [Contract.assertValidRefundAddress, hconfig]
    rfl
  · rintro ⟨address, haddress, hpayable⟩
    rw [hconfig] at haddress
    change Sample.unifiedHost.parseAddress .zcashMainnet "u-sapling" = _ at haddress
    rw [hnone, Option.some.injEq] at haddress
    rw [← haddress] at hpayable
    simp at hpayable

end SatoshiBridge

import SatoshiBridge.Invariants.Tiers
import SatoshiBridge.Model.SampleRun

/-!
# Reading the confirmation tiers

The keys of the tiers are checked by a parser and looked up under the printed number, so a table is
read without panic, whatever is done to it, exactly when it was spelled as numbers are printed.
-/

set_option autoImplicit false
set_option relaxedAutoImplicit false

namespace SatoshiBridge

/-- The bound at which an amount reads a table: the least one above the amount, or the greatest one
when there is none. -/
def IsTierBound (tiers : List (ℕ × ℕ)) (amount bound : ℕ) : Prop :=
  (amount < bound ∧ ∀ tier ∈ tiers, amount < tier.1 → bound ≤ tier.1) ∨
    ∀ tier ∈ tiers, tier.1 ≤ amount ∧ tier.1 ≤ bound

theorem IsTierBound.mono {tiers : List (ℕ × ℕ)} {amount amount' bound bound' : ℕ}
    (hle : amount ≤ amount') (h : IsTierBound tiers amount bound)
    (h' : IsTierBound tiers amount' bound') {tier tier' : ℕ × ℕ} (hmem : tier ∈ tiers)
    (hmem' : tier' ∈ tiers) (hbound : tier.1 = bound) (hbound' : tier'.1 = bound') :
    bound ≤ bound' := by
  rcases h with ⟨_, hleast⟩ | hgreatest
  · rcases h' with ⟨hlt', _⟩ | hgreatest'
    · have hbelow := hleast tier' hmem' (by omega)
      omega
    · have hbelow := (hgreatest' tier hmem).2
      omega
  · rcases h' with ⟨hlt', _⟩ | hgreatest'
    · have hbelow := (hgreatest tier' hmem').1
      omega
    · have hbelow := (hgreatest' tier hmem).2
      omega

namespace Config

variable {config : Config}

/-- Every amount reads the confirmations of its bound, they rise with the amount and end at the
largest of the table. -/
structure ReadsTiers (config : Config) : Prop where
  answers : ∀ amount, ∃ tiers bound confirmations, config.tiers = some tiers ∧
    config.getConfirmations amount = some confirmations ∧
    (bound, confirmations) ∈ tiers ∧ IsTierBound tiers amount bound ∧
    ∀ tier ∈ tiers, tier.1 = bound → tier.2 = confirmations
  monotone : ∀ amount amount' confirmations confirmations', amount ≤ amount' →
    config.getConfirmations amount = some confirmations →
    config.getConfirmations amount' = some confirmations' → confirmations ≤ confirmations'
  bounded : ∀ amount confirmations, config.getConfirmations amount = some confirmations →
    confirmations ≤ config.maxTierConfirmations
  top : config.getConfirmations u128Max = some config.maxTierConfirmations

/-- The keys are spelled as numbers are printed. -/
def Printed (config : Config) : Prop :=
  ∀ key ∈ config.confirmationsStrategy, ∃ n : ℕ, key = toString n

/-! ### Reading a printed table -/

theorem keys_mapM_parseU128 {tiers : List (ℕ × ℕ)} (h : config.tiers = some tiers) :
    config.confirmationsStrategy.keys.mapM parseU128 = some (tiers.map Prod.fst) := by
  unfold Config.tiers at h
  change (config.confirmationsStrategy.entries.map Sigma.fst).mapM parseU128 = _
  generalize config.confirmationsStrategy.entries = entries at h ⊢
  induction entries generalizing tiers with
  | nil =>
    cases h
    rfl
  | cons e rest ih =>
    simp only [List.mapM_cons, Option.pure_def, Option.bind_eq_bind, Option.bind_eq_some_iff,
      Option.some.injEq] at h
    obtain ⟨_, ⟨bound, hbound, rfl⟩, others, hothers, rfl⟩ := h
    simp only [List.map_cons, List.mapM_cons, hbound, ih hothers, Option.pure_def,
      Option.bind_eq_bind, Option.bind_some]

/-- The entry of a tier. -/
theorem mem_entries_of_mem_tiers {tiers : List (ℕ × ℕ)} (h : config.tiers = some tiers)
    {tier : ℕ × ℕ} (htier : tier ∈ tiers) : ∃ key,
      config.confirmationsStrategy.lookup key = some tier.2 ∧ parseU128 key = some tier.1 := by
  obtain ⟨e, he, hparse⟩ := mem_of_mapM h htier
  simp only [Option.bind_eq_bind, Option.bind_eq_some_iff, Option.some.injEq] at hparse
  obtain ⟨bound, hbound, rfl⟩ := hparse
  exact ⟨e.1, AList.mem_lookup_iff.mpr he, hbound⟩

/-- In a printed table a bound is looked up under its own text. -/
theorem Printed.lookup_toString (hprinted : config.Printed) {tiers : List (ℕ × ℕ)}
    (h : config.tiers = some tiers) {tier : ℕ × ℕ} (htier : tier ∈ tiers) :
    config.confirmationsStrategy.lookup (toString tier.1) = some tier.2 := by
  obtain ⟨key, hlookup, hparse⟩ := mem_entries_of_mem_tiers h htier
  obtain ⟨n, rfl⟩ := hprinted key (AList.lookup_isSome.mp (Option.isSome_of_eq_some hlookup))
  rw [← eq_of_parseU128_toString hparse]
  exact hlookup

theorem Printed.answers (hprinted : config.Printed) {tiers : List (ℕ × ℕ)}
    (h : config.tiers = some tiers) (hne : config.confirmationsStrategy.entries ≠ [])
    (amount : ℕ) : ∃ bound confirmations, config.getConfirmations amount = some confirmations ∧
      (bound, confirmations) ∈ tiers ∧ IsTierBound tiers amount bound := by
  have hsorted := List.pairwise_insertionSort (· ≤ ·) (tiers.map Prod.fst)
  have hmem {bound : ℕ} (hbound : bound ∈ (tiers.map Prod.fst).insertionSort (· ≤ ·)) :
      ∃ tier ∈ tiers, tier.1 = bound := List.mem_map.mp ((List.mem_insertionSort _).mp hbound)
  have hmem' {tier : ℕ × ℕ} (htier : tier ∈ tiers) :
      tier.1 ∈ (tiers.map Prod.fst).insertionSort (· ≤ ·) :=
    (List.mem_insertionSort _).mpr (List.mem_map_of_mem htier)
  simp only [getConfirmations, keys_mapM_parseU128 h, require_of hne, Option.bind_eq_bind,
    Option.bind_some]
  cases hfind : ((tiers.map Prod.fst).insertionSort (· ≤ ·)).find? (amount < ·) with
  | some bound =>
    obtain ⟨tier, htier, rfl⟩ := hmem (List.mem_of_find?_eq_some hfind)
    have hlt : amount < tier.1 :=
      of_decide_eq_true (List.find?_some (p := fun k ↦ amount < k) hfind)
    refine ⟨tier.1, tier.2, hprinted.lookup_toString h htier, htier, Or.inl ⟨hlt, ?_⟩⟩
    exact fun other hother ↦ le_of_find?_sorted hsorted hfind other.1 (hmem' hother)
  | none =>
    have hbelow : ∀ tier ∈ tiers, tier.1 ≤ amount := by
      intro tier htier
      have hnot := List.find?_eq_none.mp hfind tier.1 (hmem' htier)
      simpa using hnot
    cases hlast : ((tiers.map Prod.fst).insertionSort (· ≤ ·)).getLast? with
    | none =>
      rw [List.getLast?_eq_none_iff, ← List.length_eq_zero_iff, List.length_insertionSort,
        List.length_map, List.length_eq_zero_iff] at hlast
      have hkeys := keys_mapM_parseU128 h
      cases hentries : config.confirmationsStrategy.entries with
      | nil => exact absurd hentries hne
      | cons e rest =>
        obtain ⟨tier, htier, _⟩ := mem_mapM h (hentries ▸ List.mem_cons_self : e ∈ _)
        rw [hlast] at htier
        exact absurd htier List.not_mem_nil
    | some bound =>
      obtain ⟨tier, htier, rfl⟩ := hmem (List.mem_of_getLast? hlast)
      refine ⟨tier.1, tier.2, hprinted.lookup_toString h htier, htier, Or.inr fun other hother ↦ ?_⟩
      refine ⟨hbelow other hother, ?_⟩
      obtain ⟨init, hinit⟩ := List.getLast?_eq_some_iff.mp hlast
      have hother' := hmem' hother
      rw [hinit] at hsorted hother'
      rcases List.mem_append.mp hother' with hbefore | hself
      · exact (List.pairwise_append.mp hsorted).2.2 _ hbefore _ List.mem_cons_self
      · exact (List.mem_singleton.mp hself).le

/-- A valid table with printed keys is read at every amount. -/
theorem Printed.readsTiers (hprinted : config.Printed) (hgraded : config.Graded)
    (hne : config.confirmationsStrategy.entries ≠ []) : config.ReadsTiers := by
  obtain ⟨tiers, htiers, hsorted⟩ := id hgraded
  have hunique {tier tier' : ℕ × ℕ} (h : tier ∈ tiers) (h' : tier' ∈ tiers)
      (heq : tier'.1 = tier.1) : tier'.2 = tier.2 := by
    have hlookup := hprinted.lookup_toString htiers h
    rw [← heq, hprinted.lookup_toString htiers h', Option.some.injEq] at hlookup
    exact hlookup
  have hvalues {tier tier' : ℕ × ℕ} (h : tier ∈ tiers) (h' : tier' ∈ tiers)
      (hle : tier.1 ≤ tier'.1) : tier.2 ≤ tier'.2 := by
    rcases lt_or_eq_of_le hle with hlt | heq
    · have htrans : IsTrans (ℕ × ℕ) fun a b ↦ a.2 ≤ b.2 := ⟨fun _ _ _ ↦ le_trans⟩
      exact le_of_sorted (List.pairwise_insertionSort (fun a b : ℕ × ℕ ↦ a.1 ≤ b.1) tiers)
        (pairwise_of_zip_tail hsorted) ((List.mem_insertionSort _).mpr h)
        ((List.mem_insertionSort _).mpr h') hlt
    · exact (hunique h' h heq).le
  refine ⟨?_, ?_, fun amount confirmations ↦ getConfirmations_le_maxTier, ?_⟩
  · intro amount
    obtain ⟨bound, confirmations, hget, hmem, hbound⟩ := hprinted.answers htiers hne amount
    exact ⟨tiers, bound, confirmations, htiers, hget, hmem, hbound,
      fun tier htier heq ↦ hunique hmem htier heq⟩
  · intro amount amount' confirmations confirmations' hle hget hget'
    obtain ⟨bound, value, hvalue, hmem, hbound⟩ := hprinted.answers htiers hne amount
    obtain ⟨bound', value', hvalue', hmem', hbound'⟩ := hprinted.answers htiers hne amount'
    rw [hget, Option.some.injEq] at hvalue
    rw [hget', Option.some.injEq] at hvalue'
    rw [hvalue, hvalue']
    exact hvalues hmem hmem' (hbound.mono hle hbound' hmem hmem' rfl rfl)
  · obtain ⟨bound, value, hvalue, hmem, hbound⟩ := hprinted.answers htiers hne u128Max
    rw [hvalue, Option.some.injEq]
    refine le_antisymm (getConfirmations_le_maxTier hvalue) ?_
    unfold maxTierConfirmations
    refine foldr_max_le fun n hn ↦ ?_
    obtain ⟨e, he, rfl⟩ := List.mem_map.mp hn
    obtain ⟨tier, htier, hparse⟩ := mem_mapM htiers he
    simp only [Option.bind_eq_bind, Option.bind_eq_some_iff, Option.some.injEq] at hparse
    obtain ⟨n, hn, rfl⟩ := hparse
    refine hvalues htier hmem ?_
    rcases hbound with ⟨hlt, _⟩ | hgreatest
    · exact le_trans (parseU128_le hn) hlt.le
    · exact (hgreatest _ htier).2

/-! ### Valid tables -/

/-- A configuration without one of its tiers. -/
def eraseTier (config : Config) (key : String) : Config :=
  { config with confirmationsStrategy := config.confirmationsStrategy.erase key }

/-- A valid table stays valid without one of its tiers. -/
theorem assertValid_eraseTier {key : String} (h : config.assertValid = some ()) :
    (config.eraseTier key).assertValid = some () := by
  have hentries : (config.confirmationsStrategy.erase key).entries.Sublist
      config.confirmationsStrategy.entries := List.kerase_sublist key _
  simp only [assertValid, Option.bind_eq_bind, Option.bind_eq_some_iff, require_eq_some,
    exists_const] at h ⊢
  obtain ⟨hrange, tiers, htiers, hsorted, hrest⟩ := h
  obtain ⟨tiers', htiers', hsub⟩ := mapM_sublist hentries htiers
  refine ⟨fun e he ↦ hrange e (hentries.subset he), tiers', htiers', ?_, hrest⟩
  have htrans : IsTrans (ℕ × ℕ) fun a b ↦ a.2 ≤ b.2 := ⟨fun _ _ _ ↦ le_trans⟩
  have hwhole : (tiers.insertionSort fun a b ↦ a.1 ≤ b.1).Pairwise fun a b ↦ a.2 ≤ b.2 :=
    pairwise_of_zip_tail hsorted
  have hvalues := hwhole.sublist (insertionSort_sublist (R := fun a b : ℕ × ℕ ↦ a.1 ≤ b.1) hsub)
  intro pair hpair
  obtain ⟨i, hi, rfl⟩ := List.mem_iff_getElem.mp hpair
  rw [List.length_zip, List.length_tail] at hi
  rw [List.getElem_zip, List.getElem_tail]
  exact List.pairwise_iff_getElem.mp hvalues i (i + 1) (by omega) (by omega) (by omega)

end Config

/-! ### Editing the table -/

/-- The calls that change the tiers or the rest of the configuration. -/
def Action.editsConfig : Action → Prop
  | .call _ (.updateConfig _) | .call _ (.setConfirmationsStrategy ..)
  | .call _ (.removeConfirmationsStrategy _) => True
  | _ => False

/-- What holds of the table after any edits, once it has been spelled as numbers are printed. -/
def Config.WellSpelled (config : Config) : Prop :=
  config.assertValid = some () ∧ config.Printed ∧ config.confirmationsStrategy.entries ≠ []

theorem Config.WellSpelled.readsTiers {config : Config} (h : config.WellSpelled) :
    config.ReadsTiers := h.2.1.readsTiers (assertValid_graded h.1) h.2.2

variable {host : Host} {env : Env} {c : Contract}

theorem resizeBlockAmountRing_config {c' : Contract} (h : c.resizeBlockAmountRing = some c') :
    c'.config = c.config := by
  simp only [Contract.resizeBlockAmountRing, Option.bind_eq_bind, Option.bind_eq_some_iff,
    Option.some.injEq] at h
  obtain ⟨_, _, rfl⟩ := h
  rfl

theorem updateConfig_wellSpelled {update : ConfigUpdate} {receipt : Receipt}
    (h : c.updateConfig env update = some receipt) (hspelled : c.config.WellSpelled) :
    receipt.contract.config.WellSpelled := by
  simp only [Contract.updateConfig, Option.bind_eq_bind, Option.bind_eq_some_iff,
    Option.some.injEq] at h
  obtain ⟨_, _, config, hconfig, c', hc', rfl⟩ := h
  change c'.config.WellSpelled
  rw [resizeBlockAmountRing_config hc']
  simp only [ConfigUpdate.apply, Option.bind_eq_bind, Option.bind_eq_some_iff,
    Option.some.injEq] at hconfig
  obtain ⟨_, hvalid, rfl⟩ := hconfig
  exact ⟨hvalid, hspelled.2⟩

theorem setConfirmationsStrategy_wellSpelled {bound confirmations : ℕ} {receipt : Receipt}
    (h : c.setConfirmationsStrategy env bound confirmations = some receipt)
    (hspelled : c.config.WellSpelled) : receipt.contract.config.WellSpelled := by
  simp only [Contract.setConfirmationsStrategy, Option.bind_eq_bind, Option.bind_eq_some_iff,
    Option.some.injEq] at h
  obtain ⟨_, _, c', hc', _, hvalid, rfl⟩ := h
  change c'.config.WellSpelled
  rw [resizeBlockAmountRing_config hc']
  refine ⟨hvalid, ?_, ?_⟩
  · intro key hkey
    rcases (AList.mem_insert _).mp hkey with rfl | hold
    · exact ⟨bound, rfl⟩
    · exact hspelled.2.1 key hold
  · rw [AList.entries_insert]
    exact List.cons_ne_nil _ _

theorem removeConfirmationsStrategy_wellSpelled {bound : ℕ} {receipt : Receipt}
    (h : c.removeConfirmationsStrategy env bound = some receipt)
    (hspelled : c.config.WellSpelled) : receipt.contract.config.WellSpelled := by
  simp only [Contract.removeConfirmationsStrategy, Option.bind_eq_bind, Option.bind_eq_some_iff,
    require_eq_some, Option.some.injEq, exists_const] at h
  obtain ⟨_, _, _, _, hne, c', hc', _, hvalid, rfl⟩ := h
  change c'.config.WellSpelled
  rw [resizeBlockAmountRing_config hc']
  refine ⟨hvalid, ?_, hne⟩
  intro key hkey
  exact hspelled.2.1 key (AList.mem_erase.mp hkey).2

theorem Sys.exec_wellSpelled {s s' : Sys} {a : Action} (hedit : a.editsConfig)
    (h : s.exec host a = some s') (hspelled : s.contract.config.WellSpelled) :
    s'.contract.config.WellSpelled := by
  cases a with
  | callback => exact hedit.elim
  | lose => exact hedit.elim
  | call env method =>
    simp only [Sys.exec, Option.bind_eq_bind, Option.bind_eq_some_iff, Option.some.injEq] at h
    obtain ⟨receipt, hcall, rfl⟩ := h
    cases method with
    | updateConfig => exact updateConfig_wellSpelled hcall hspelled
    | setConfirmationsStrategy => exact setConfirmationsStrategy_wellSpelled hcall hspelled
    | removeConfirmationsStrategy => exact removeConfirmationsStrategy_wellSpelled hcall hspelled
    | _ => exact hedit.elim

/-- The runs that only edit the configuration. -/
abbrev Sys.Edits (host : Host) : Sys → Sys → Prop :=
  Transition.Runs (Sys.exec host) fun _ a ↦ a.editsConfig

theorem Sys.Edits.wellSpelled {s s' : Sys} (h : Sys.Edits host s s')
    (hspelled : s.contract.config.WellSpelled) : s'.contract.config.WellSpelled := by
  induction h with
  | refl => exact hspelled
  | tail _ hlast ih =>
    obtain ⟨a, hedit, hexec⟩ := hlast
    exact Sys.exec_wellSpelled hedit hexec ih

/-! ### A key spelled otherwise -/

/-- The DAO removes the tier of a bound from a table that keeps another one. -/
theorem removeConfirmationsStrategy_of (hdao : c.aclHasRole .dao env.predecessor = true)
    (hyocto : env.attachedDeposit = 1) (hvalid : c.config.assertValid = some ()) {bound : ℕ}
    (hbound : toString bound ∈ c.config.confirmationsStrategy) {key : String}
    (hkey : key ∈ c.config.confirmationsStrategy) (hother : key ≠ toString bound) :
    ∃ receipt, c.removeConfirmationsStrategy env bound = some receipt ∧
      receipt.contract.roles = c.roles ∧
      receipt.contract.config = c.config.eraseTier (toString bound) := by
  have hkept : key ∈ (c.config.eraseTier (toString bound)).confirmationsStrategy :=
    AList.mem_erase.mpr ⟨hother, hkey⟩
  have hne : (c.config.eraseTier (toString bound)).confirmationsStrategy.entries ≠ [] := by
    intro hnil
    rw [AList.mem_keys, AList.keys, hnil] at hkept
    exact absurd hkept List.not_mem_nil
  have hvalid' : (c.config.eraseTier (toString bound)).assertValid = some () :=
    Config.assertValid_eraseTier hvalid
  obtain ⟨confirmations, hlookup⟩ := Option.isSome_iff_exists.mp (AList.lookup_isSome.mpr hbound)
  obtain ⟨ring, hring⟩ := c.blockBridgeAmounts.exists_resize
    (BlockAmountRing.capacityFor_pos (c.config.eraseTier (toString bound)))
  let c' : Contract :=
    { c with config := c.config.eraseTier (toString bound), blockBridgeAmounts := ring }
  refine ⟨c'.done, ?_, rfl, rfl⟩
  unfold Config.eraseTier at hne hvalid' hring
  simp only [Contract.removeConfirmationsStrategy, Contract.resizeBlockAmountRing,
    Contract.assertDao, Env.assertOneYocto, require_of hdao, require_of hyocto, hlookup,
    require_of hne, hring, hvalid', Option.bind_eq_bind, Option.bind_some]
  rfl

/-- With a key that is not spelled as its number is printed, the tiers can be removed until an
amount is not answered. -/
theorem exists_edits_unread {key : String} (hkey : ∀ n : ℕ, key ≠ toString n)
    (owner : AccountId) (s : Sys) (hvalid : s.contract.config.assertValid = some ())
    (hdao : s.contract.aclHasRole .dao owner = true)
    (hmem : key ∈ s.contract.config.confirmationsStrategy) :
    ∃ s', Sys.Edits host s s' ∧ ¬ s'.contract.config.ReadsTiers := by
  by_cases hreads : s.contract.config.ReadsTiers
  · obtain ⟨_, bound, _, _, hlookup, _⟩ := Config.getConfirmations_spec hreads.top
    have hbound : toString bound ∈ s.contract.config.confirmationsStrategy :=
      AList.lookup_isSome.mp (Option.isSome_of_eq_some hlookup)
    let env : Env := ⟨owner, owner, 0, 1, false, false, false⟩
    obtain ⟨receipt, hcall, hroles, hconfig⟩ :
        ∃ receipt, s.contract.removeConfirmationsStrategy env bound = some receipt ∧ _ :=
      removeConfirmationsStrategy_of hdao rfl hvalid hbound hmem (hkey bound)
    have hexec : s.exec host (.call env (.removeConfirmationsStrategy bound)) =
        some (s.apply s.inflight receipt) := by
      simp only [Sys.exec, Contract.call, hcall, Option.bind_eq_bind, Option.bind_some]
    have hfewer : receipt.contract.config.confirmationsStrategy.entries.length <
        s.contract.config.confirmationsStrategy.entries.length := by
      rw [hconfig]
      exact FiniteMap.length_erase_lt hbound
    have hvalid' : receipt.contract.config.assertValid = some () := by
      rw [hconfig]
      exact Config.assertValid_eraseTier hvalid
    have hdao' : receipt.contract.aclHasRole .dao owner = true := by
      unfold Contract.aclHasRole at hdao ⊢
      rw [hroles]
      exact hdao
    have hmem' : key ∈ receipt.contract.config.confirmationsStrategy := by
      rw [hconfig]
      exact AList.mem_erase.mpr ⟨hkey bound, hmem⟩
    obtain ⟨s', hedits, hunread⟩ :=
      exists_edits_unread hkey owner (s.apply s.inflight receipt) hvalid' hdao' hmem'
    have hedit : (Action.call env (.removeConfirmationsStrategy bound)).editsConfig := trivial
    exact ⟨s', .head ⟨_, hedit, hexec⟩ hedits, hunread⟩
  · exact ⟨s, .refl, hreads⟩
termination_by s.contract.config.confirmationsStrategy.entries.length

/-- Whatever edits follow, every amount is answered, exactly for a bridge constructed with a table
of tiers that is spelled as numbers are printed. -/
theorem Contract.new_readsTiers_iff (host : Host) {config : Config}
    (hnew : Contract.new env config = some c) :
    (∀ s, Sys.Edits host ⟨c, [], []⟩ s → s.contract.config.ReadsTiers) ↔
      config.confirmationsStrategy.entries ≠ [] ∧
        ∀ key ∈ config.confirmationsStrategy, ∃ n : ℕ, key = toString n := by
  obtain ⟨rfl, hvalid, hdao⟩ := Contract.new_config hnew
  constructor
  · intro hreads
    constructor
    · obtain ⟨tiers, _, _, htiers, _, hmem, _⟩ := (hreads _ .refl).answers 0
      intro hnil
      obtain ⟨key, hlookup, _⟩ := Config.mem_entries_of_mem_tiers htiers hmem
      have hentry := AList.mem_lookup_iff.mp hlookup
      change _ ∈ c.config.confirmationsStrategy.entries at hentry
      rw [hnil] at hentry
      exact absurd hentry List.not_mem_nil
    · intro key hkey
      by_contra hspelled
      rw [not_exists] at hspelled
      obtain ⟨s', hedits, hunread⟩ :=
        exists_edits_unread hspelled env.predecessor ⟨c, [], []⟩ hvalid hdao hkey
      exact hunread (hreads s' hedits)
  · rintro ⟨hne, hprinted⟩ s hedits
    have hspelled : c.config.WellSpelled := ⟨hvalid, hprinted, hne⟩
    exact (hedits.wellSpelled hspelled).readsTiers

/-- The sample bridge answers every amount, whatever edits follow. -/
theorem Contract.new_readsTiers_sample :
    ∃ c, Contract.new (Sample.env "dao" 0 0) Sample.config = some c ∧
      ∀ s, Sys.Edits (Sample.host false) ⟨c, [], []⟩ s → s.contract.config.ReadsTiers := by
  have hnew : (Contract.new (Sample.env "dao" 0 0) Sample.config).isSome := by decide +kernel
  obtain ⟨c, hc⟩ := Option.isSome_iff_exists.mp hnew
  refine ⟨c, hc, (Contract.new_readsTiers_iff (Sample.host false) hc).mpr ⟨by decide, ?_⟩⟩
  intro key hkey
  have heq : key = "1000000" := by simpa [Sample.config, AList.mem_keys, AList.keys] using hkey
  exact ⟨1000000, by rw [heq]; decide⟩

/-- A configuration whose only bound is written with a sign. -/
def Sample.plusBound : Config := { Sample.config with
  confirmationsStrategy := AList.singleton "+3" 2 }

/-- The constructor takes a bound that is written with a sign, and no amount is answered. -/
theorem Contract.new_unread :
    ∃ c, Contract.new (Sample.env "dao" 0 0) Sample.plusBound = some c ∧
      ∃ s, Sys.Edits (Sample.host false) ⟨c, [], []⟩ s ∧ ¬ s.contract.config.ReadsTiers := by
  have hnew : ((Contract.new (Sample.env "dao" 0 0) Sample.plusBound).bind fun c ↦
      if c.config.getConfirmations 0 = none then some c else none).isSome := by decide +kernel
  obtain ⟨c, hsome⟩ := Option.isSome_iff_exists.mp hnew
  obtain ⟨c', hc', hpanic⟩ := Option.bind_eq_some_iff.mp hsome
  refine ⟨c', hc', ⟨c', [], []⟩, .refl, fun hreads ↦ ?_⟩
  obtain ⟨_, _, confirmations, _, hget, _⟩ := hreads.answers 0
  change c'.config.getConfirmations 0 = some confirmations at hget
  rw [hget] at hpanic
  cases hpanic

end SatoshiBridge

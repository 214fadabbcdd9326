import SatoshiBridge.Model.BlockAmountRing

/-!
# Confirmation tiers

The tiers are keyed by printed bounds. Reading one parses the keys, orders them and prints the
chosen bound again; the tier past all bounds is the largest a reading can give.
-/

set_option autoImplicit false
set_option relaxedAutoImplicit false

namespace SatoshiBridge

/-! ### Bounds -/

/-- The number decimal digits spell, when there are any and it fits. -/
def parseDigits (digits : List Char) : Option ℕ :=
  if digits.isEmpty || !digits.all Char.isDigit then none
  else
    let n := digits.foldl (fun acc c ↦ acc * 10 + (c.toNat - '0'.toNat)) 0
    if n < 2 ^ 128 then some n else none

/-- A leading plus sign is not read. -/
theorem parseU128_eq (s : String) : parseU128 s = parseDigits (match s.toList with
    | '+' :: rest => rest
    | chars => chars) := rfl

theorem parseDigits_le {digits : List Char} {n : ℕ} (h : parseDigits digits = some n) :
    n ≤ u128Max := by
  unfold parseDigits at h
  by_cases hbad : (digits.isEmpty || !digits.all Char.isDigit) = true
  · rw [if_pos hbad] at h
    cases h
  · rw [if_neg hbad] at h
    dsimp only at h
    split at h
    · rename_i hlt
      rw [Option.some.injEq] at h
      rw [← h]
      exact Nat.le_sub_one_of_lt hlt
    · cases h

theorem parseU128_le {s : String} {n : ℕ} (h : parseU128 s = some n) : n ≤ u128Max := by
  rw [parseU128_eq] at h
  exact parseDigits_le h

/-- A printed number is read back when it fits. -/
theorem parseU128_toString_eq (n : ℕ) :
    parseU128 (toString n) = if n < 2 ^ 128 then some n else none := by
  have hlist : (toString n).toList = Nat.toDigits 10 n := by
    rw [Nat.toString_eq_repr, Nat.toList_repr]
  have hdigits : ∀ c ∈ Nat.toDigits 10 n, c.isDigit = true := fun c hc ↦
    Nat.isDigit_of_mem_toDigits (by decide) (by decide) hc
  have hvalue : (Nat.toDigits 10 n).foldl (fun acc c ↦ acc * 10 + (c.toNat - '0'.toNat)) 0 = n := by
    have hten := @Nat.ofDigitChars_ten_toDigits n
    rw [Nat.ofDigitChars_eq_foldl] at hten
    simpa only [Nat.mul_comm] using hten
  have hnonempty : (Nat.toDigits 10 n).isEmpty = false :=
    List.isEmpty_eq_false_iff.mpr Nat.toDigits_ne_nil
  have hall : (Nat.toDigits 10 n).all Char.isDigit = true := List.all_eq_true.mpr hdigits
  rw [parseU128_eq, hlist]
  split
  · rename_i rest hplus
    have hdigit := hdigits '+' (by rw [hplus]; exact List.mem_cons_self)
    exact absurd hdigit (by decide)
  · unfold parseDigits
    rw [hnonempty, hall, hvalue]
    rfl

theorem parseU128_toString {n : ℕ} (h : n ≤ u128Max) : parseU128 (toString n) = some n := by
  rw [parseU128_toString_eq, if_pos (Nat.lt_of_le_sub_one (by decide) h)]

/-- Reading a printed number gives that number. -/
theorem eq_of_parseU128_toString {n m : ℕ} (h : parseU128 (toString n) = some m) : n = m := by
  rw [parseU128_toString_eq] at h
  split at h
  · exact Option.some.inj h
  · cases h

/-! ### Lists -/

/-- Every result of a successful `mapM` comes from an element. -/
theorem mem_of_mapM {α β : Type} {f : α → Option β} : ∀ {as : List α} {bs : List β},
    as.mapM f = some bs → ∀ {b : β}, b ∈ bs → ∃ a ∈ as, f a = some b := by
  intro as
  induction as with
  | nil =>
    intro bs h b hb
    cases h
    exact absurd hb List.not_mem_nil
  | cons a as ih =>
    intro bs h b hb
    simp only [List.mapM_cons, Option.pure_def, Option.bind_eq_bind, Option.bind_eq_some_iff,
      Option.some.injEq] at h
    obtain ⟨b', hb', rest, hrest, rfl⟩ := h
    rcases List.mem_cons.mp hb with rfl | hmem
    · exact ⟨a, List.mem_cons_self, hb'⟩
    · obtain ⟨a', ha', hf⟩ := ih hrest hmem
      exact ⟨a', List.mem_cons_of_mem a ha', hf⟩

/-- Every element of a successful `mapM` has its result. -/
theorem mem_mapM {α β : Type} {f : α → Option β} : ∀ {as : List α} {bs : List β},
    as.mapM f = some bs → ∀ {a : α}, a ∈ as → ∃ b ∈ bs, f a = some b := by
  intro as
  induction as with
  | nil =>
    intro bs _ a ha
    exact absurd ha List.not_mem_nil
  | cons a as ih =>
    intro bs h a' ha'
    simp only [List.mapM_cons, Option.pure_def, Option.bind_eq_bind, Option.bind_eq_some_iff,
      Option.some.injEq] at h
    obtain ⟨b, hb, rest, hrest, rfl⟩ := h
    rcases List.mem_cons.mp ha' with rfl | hmem
    · exact ⟨b, List.mem_cons_self, hb⟩
    · obtain ⟨b', hb', hf⟩ := ih hrest hmem
      exact ⟨b', List.mem_cons_of_mem b hb', hf⟩

/-- A part of a list keeps the results of its elements, in their order. -/
theorem mapM_sublist {α β : Type} {f : α → Option β} {as as' : List α} (h : as'.Sublist as) :
    ∀ {bs : List β}, as.mapM f = some bs → ∃ bs', as'.mapM f = some bs' ∧ bs'.Sublist bs := by
  induction h with
  | slnil =>
    intro bs hbs
    exact ⟨bs, hbs, List.Sublist.refl bs⟩
  | cons a _ ih =>
    intro bs hbs
    simp only [List.mapM_cons, Option.pure_def, Option.bind_eq_bind, Option.bind_eq_some_iff,
      Option.some.injEq] at hbs
    obtain ⟨b, _, rest, hrest, rfl⟩ := hbs
    obtain ⟨bs', hbs', hsub⟩ := ih hrest
    exact ⟨bs', hbs', hsub.cons b⟩
  | cons_cons a _ ih =>
    intro bs hbs
    simp only [List.mapM_cons, Option.pure_def, Option.bind_eq_bind, Option.bind_eq_some_iff,
      Option.some.injEq] at hbs
    obtain ⟨b, hb, rest, hrest, rfl⟩ := hbs
    obtain ⟨bs', hbs', hsub⟩ := ih hrest
    refine ⟨b :: bs', ?_, hsub.cons_cons b⟩
    simp only [List.mapM_cons, Option.pure_def, Option.bind_eq_bind, hb, hbs', Option.bind_some]

/-- Sorting keeps a part of a list a part. -/
theorem insertionSort_sublist {α : Type} {R : α → α → Prop} [DecidableRel R] [IsTrans α R]
    [Std.Total R] {as as' : List α} (h : as'.Sublist as) :
    (as'.insertionSort R).Sublist (as.insertionSort R) := by
  induction h with
  | slnil => exact List.Sublist.refl _
  | cons a _ ih => exact ih.trans (List.sublist_orderedInsert a _)
  | cons_cons a _ ih => exact ih.orderedInsert_sublist a (List.pairwise_insertionSort R _)

/-- The first hit in an ordered list is the least one. -/
theorem le_of_find?_sorted {amount key : ℕ} : ∀ {keys : List ℕ}, keys.Pairwise (· ≤ ·) →
    keys.find? (amount < ·) = some key → ∀ k ∈ keys, amount < k → key ≤ k := by
  intro keys
  induction keys with
  | nil =>
    intro _ _ k hk
    exact absurd hk List.not_mem_nil
  | cons first rest ih =>
    intro hsorted h k hk hlt
    obtain ⟨hfirst, hrest⟩ := List.pairwise_cons.mp hsorted
    rw [List.find?_cons] at h
    by_cases hhit : amount < first
    · rw [decide_eq_true hhit, Option.some.injEq] at h
      rcases List.mem_cons.mp hk with rfl | hmem
      · exact h.ge
      · exact h ▸ hfirst k hmem
    · rw [decide_eq_false hhit] at h
      rcases List.mem_cons.mp hk with rfl | hmem
      · exact absurd hlt hhit
      · exact ih hrest h k hmem hlt

/-- Neighbours in order under a transitive relation put the whole list in order. -/
theorem pairwise_of_zip_tail {α : Type} {R : α → α → Prop} [IsTrans α R] : ∀ {as : List α},
    (∀ pair ∈ as.zip as.tail, R pair.1 pair.2) → as.Pairwise R := by
  intro as h
  rw [← List.isChain_iff_pairwise, List.isChain_iff_getElem]
  intro i hi
  refine h (as[i], as[i + 1]) (List.mem_iff_getElem.mpr ⟨i, ?_, ?_⟩)
  · rw [List.length_zip, List.length_tail]
    omega
  · rw [List.getElem_zip, List.getElem_tail]

theorem le_foldr_max {ns : List ℕ} {n : ℕ} (h : n ∈ ns) : n ≤ ns.foldr max 0 := by
  induction ns with
  | nil => exact absurd h List.not_mem_nil
  | cons m ns ih =>
    rw [List.foldr_cons]
    rcases List.mem_cons.mp h with rfl | hmem
    · exact le_max_left _ _
    · exact le_trans (ih hmem) (le_max_right _ _)

theorem foldr_max_le {ns : List ℕ} {bound : ℕ} (h : ∀ n ∈ ns, n ≤ bound) :
    ns.foldr max 0 ≤ bound := by
  induction ns with
  | nil => exact Nat.zero_le bound
  | cons n ns ih =>
    obtain ⟨hn, hns⟩ := List.forall_mem_cons.mp h
    exact max_le hn (ih hns)

/-- Elements of a list ordered by two relations at once. -/
theorem le_of_sorted {tiers : List (ℕ × ℕ)} (hbounds : tiers.Pairwise fun a b ↦ a.1 ≤ b.1)
    (hvalues : tiers.Pairwise fun a b ↦ a.2 ≤ b.2) {a b : ℕ × ℕ} (ha : a ∈ tiers) (hb : b ∈ tiers)
    (hlt : a.1 < b.1) : a.2 ≤ b.2 := by
  rw [List.pairwise_iff_getElem] at hbounds hvalues
  obtain ⟨i, hi, rfl⟩ := List.mem_iff_getElem.mp ha
  obtain ⟨j, hj, rfl⟩ := List.mem_iff_getElem.mp hb
  by_cases hij : i < j
  · exact hvalues i j hi hj hij
  · by_cases heq : i = j
    · subst heq
      exact le_refl _
    · have hle := hbounds j i hj hi (by omega)
      omega

namespace Config

variable {config : Config}

/-- The tiers rise with their bounds. -/
def Graded (config : Config) : Prop :=
  ∃ tiers, config.tiers = some tiers ∧
    ∀ pair ∈ (tiers.insertionSort fun a b ↦ a.1 ≤ b.1).zip
      (tiers.insertionSort fun a b ↦ a.1 ≤ b.1).tail, pair.1.2 ≤ pair.2.2

theorem assertValid_graded (h : config.assertValid = some ()) : config.Graded := by
  simp only [assertValid, Option.bind_eq_bind, Option.bind_eq_some_iff, require_eq_some,
    exists_const] at h
  obtain ⟨_, tiers, htiers, hsorted, _⟩ := h
  exact ⟨tiers, htiers, hsorted⟩

/-- What `get_confirmations` reads: the tier printed under a bound of the table. -/
theorem getConfirmations_spec {amount tier : ℕ} (h : config.getConfirmations amount = some tier) :
    ∃ keys key, config.confirmationsStrategy.keys.mapM parseU128 = some keys ∧ key ∈ keys ∧
      config.confirmationsStrategy.lookup (toString key) = some tier ∧
      (amount < key ∨ ∀ k ∈ keys, k ≤ key) := by
  simp only [getConfirmations, Option.bind_eq_bind, Option.bind_eq_some_iff] at h
  obtain ⟨_, _, keys, hkeys, h⟩ := h
  cases hfind : (keys.insertionSort (· ≤ ·)).find? (amount < ·) with
  | some key =>
    rw [hfind] at h
    have hmem := (List.mem_insertionSort _).mp (List.mem_of_find?_eq_some hfind)
    have hlt : amount < key := of_decide_eq_true (List.find?_some (p := fun k ↦ amount < k) hfind)
    exact ⟨keys, key, hkeys, hmem, h, Or.inl hlt⟩
  | none =>
    rw [hfind] at h
    simp only [Option.bind_eq_some_iff] at h
    obtain ⟨key, hlast, hlookup⟩ := h
    have hmem := (List.mem_insertionSort _).mp (List.mem_of_getLast? hlast)
    refine ⟨keys, key, hkeys, hmem, hlookup, Or.inr fun k hk ↦ ?_⟩
    have hsorted := List.pairwise_insertionSort (· ≤ ·) keys
    obtain ⟨init, hinit⟩ := List.getLast?_eq_some_iff.mp hlast
    have hk' := (List.mem_insertionSort (· ≤ ·)).mpr hk
    rw [hinit] at hsorted hk'
    rcases List.mem_append.mp hk' with hbefore | hself
    · exact (List.pairwise_append.mp hsorted).2.2 k hbefore key List.mem_cons_self
    · rw [List.mem_singleton.mp hself]

theorem keys_le {keys : List ℕ} (h : config.confirmationsStrategy.keys.mapM parseU128 = some keys)
    {key : ℕ} (hkey : key ∈ keys) : key ≤ u128Max := by
  obtain ⟨s, _, hparse⟩ := mem_of_mapM h hkey
  exact parseU128_le hparse

/-- The tier of the largest amount is at least every tier that is ever read. -/
theorem getConfirmations_le_max (hgraded : config.Graded) {amount tier top : ℕ}
    (h : config.getConfirmations amount = some tier)
    (htop : config.getConfirmations u128Max = some top) : tier ≤ top := by
  obtain ⟨keys, key, hkeys, hkey, hlookup, _⟩ := getConfirmations_spec h
  obtain ⟨keys', last, hkeys', hlast, hlookup', hmax⟩ := getConfirmations_spec htop
  rw [hkeys, Option.some.injEq] at hkeys'
  subst hkeys'
  have hle : key ≤ last := by
    rcases hmax with hlt | hall
    · exact absurd hlt (not_lt.mpr (keys_le hkeys hlast))
    · exact hall key hkey
  obtain ⟨tiers, htiers, hsorted⟩ := hgraded
  have hmem {k t : ℕ} (hk : k ∈ keys)
      (ht : config.confirmationsStrategy.lookup (toString k) = some t) :
      (k, t) ∈ tiers.insertionSort fun a b ↦ a.1 ≤ b.1 := by
    obtain ⟨tier', htier', hparse⟩ := mem_mapM htiers (AList.mem_lookup_iff.mp ht)
    rw [Option.bind_eq_bind, parseU128_toString (keys_le hkeys hk), Option.bind_some,
      Option.some.injEq] at hparse
    rw [hparse]
    exact (List.mem_insertionSort _).mpr htier'
  by_cases heq : key = last
  · rw [heq, hlookup', Option.some.injEq] at hlookup
    rw [hlookup]
  · have hvalues : (tiers.insertionSort fun a b ↦ a.1 ≤ b.1).Pairwise fun a b ↦ a.2 ≤ b.2 := by
      have htrans : IsTrans (ℕ × ℕ) fun a b ↦ a.2 ≤ b.2 := ⟨fun _ _ _ ↦ le_trans⟩
      exact pairwise_of_zip_tail hsorted
    exact le_of_sorted (List.pairwise_insertionSort (fun a b : ℕ × ℕ ↦ a.1 ≤ b.1) tiers) hvalues
      (hmem hkey hlookup) (hmem hlast hlookup') (lt_of_le_of_ne hle heq)

/-- Every tier that is read is one of the table. -/
theorem getConfirmations_le_maxTier {amount tier : ℕ}
    (h : config.getConfirmations amount = some tier) : tier ≤ config.maxTierConfirmations := by
  obtain ⟨_, key, _, _, hlookup, _⟩ := getConfirmations_spec h
  exact le_foldr_max (List.mem_map_of_mem (AList.mem_lookup_iff.mp hlookup))

end Config

end SatoshiBridge

import SatoshiBridge.Model.Config

/-!
# The ring of bridged amounts per block

A fixed number of cells holds the cumulative amount accepted in recent blocks; the cell of a block
is its height modulo the capacity. Confirmation tiers are read at the cumulative amount.
-/

set_option autoImplicit false
set_option relaxedAutoImplicit false

namespace SatoshiBridge

/-- `BLOCK_AMOUNT_RING_CAPACITY_SLACK`. -/
def blockAmountRingCapacitySlack : ℕ := 5

/-- `u128::MAX`. -/
def u128Max : ℕ := 2 ^ 128 - 1

/-- `u128::saturating_add`. -/
def saturatingAdd (a b : ℕ) : ℕ := min (a + b) u128Max

structure BlockAmountCell where
  blockHeight : ℕ
  cumulativeSats : ℕ
deriving DecidableEq

structure BlockAmountRing where
  cells : List (Option BlockAmountCell)
deriving DecidableEq

namespace BlockAmountRing

/-- `capacity_for`. -/
def capacityFor (config : Config) : ℕ :=
  config.maxTierConfirmations + config.confirmationsDelta + config.extraMsgConfirmationsDelta
    + blockAmountRingCapacitySlack

theorem capacityFor_pos (config : Config) : 0 < capacityFor config := by
  unfold capacityFor blockAmountRingCapacitySlack
  omega

def new (capacity : ℕ) : Option BlockAmountRing := do
  require (0 < capacity)
  some ⟨List.replicate capacity none⟩

def capacity (ring : BlockAmountRing) : ℕ := ring.cells.length

def slot (ring : BlockAmountRing) (blockHeight : ℕ) : ℕ := blockHeight % ring.capacity

/-- The cell a block falls on. -/
def cell (ring : BlockAmountRing) (blockHeight : ℕ) : Option BlockAmountCell :=
  (ring.cells[ring.slot blockHeight]?).join

def setCell (ring : BlockAmountRing) (blockHeight cumulativeSats : ℕ) : BlockAmountRing :=
  ⟨ring.cells.set (ring.slot blockHeight) (some ⟨blockHeight, cumulativeSats⟩)⟩

/-- `bump`: the cumulative amount after adding `amount`, or `none` when the cell holds a newer
block. -/
def bump (ring : BlockAmountRing) (blockHeight amount : ℕ) : BlockAmountRing × Option ℕ :=
  match ring.cell blockHeight with
  | some c =>
    if c.blockHeight = blockHeight then
      let sum := saturatingAdd c.cumulativeSats amount
      (ring.setCell blockHeight sum, some sum)
    else if blockHeight < c.blockHeight then (ring, none)
    else (ring.setCell blockHeight amount, some amount)
  | none => (ring.setCell blockHeight amount, some amount)

/-- `unbump`. -/
def unbump (ring : BlockAmountRing) (blockHeight amount : ℕ) : BlockAmountRing :=
  match ring.cell blockHeight with
  | some c =>
    if c.blockHeight = blockHeight then ring.setCell blockHeight (c.cumulativeSats - amount)
    else ring
  | none => ring

/-- `get`. -/
def get (ring : BlockAmountRing) (blockHeight : ℕ) : Option ℕ :=
  match ring.cell blockHeight with
  | some c => if c.blockHeight = blockHeight then some c.cumulativeSats else none
  | none => none

/-- `peek`. -/
def peek (ring : BlockAmountRing) (blockHeight amount : ℕ) : Option ℕ :=
  match ring.cell blockHeight with
  | some c =>
    if c.blockHeight = blockHeight then some (saturatingAdd c.cumulativeSats amount)
    else if blockHeight < c.blockHeight then none
    else some amount
  | none => some amount

/-- One entry moved by `resize`: the newer of two blocks keeps the slot. -/
def place (newCapacity : ℕ) (cells : List (Option BlockAmountCell)) (entry : BlockAmountCell) :
    List (Option BlockAmountCell) :=
  match (cells[entry.blockHeight % newCapacity]?).join with
  | some existing =>
    if existing.blockHeight < entry.blockHeight then
      cells.set (entry.blockHeight % newCapacity) (some entry)
    else cells
  | none => cells.set (entry.blockHeight % newCapacity) (some entry)

/-- `resize`. -/
def resize (ring : BlockAmountRing) (newCapacity : ℕ) : Option BlockAmountRing := do
  require (0 < newCapacity)
  if newCapacity = ring.cells.length then some ring
  else some ⟨(ring.cells.filterMap id).foldl (place newCapacity)
    (List.replicate newCapacity none)⟩

theorem exists_resize (ring : BlockAmountRing) {newCapacity : ℕ} (hpos : 0 < newCapacity) :
    ∃ ring', ring.resize newCapacity = some ring' := by
  simp only [resize, require_of hpos, Option.bind_eq_bind, Option.bind_some]
  by_cases hsame : newCapacity = ring.cells.length
  · exact ⟨ring, if_pos hsame⟩
  · exact ⟨_, if_neg hsame⟩

end BlockAmountRing

end SatoshiBridge

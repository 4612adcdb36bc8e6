import ChunkStore.Plan
import Mathlib.Algebra.Order.Group.Nat
import Mathlib.Order.Bounds.Basic

/-!
The arithmetic of a plan. In words of 32, 64 and 128 bits nothing is lost: no product leaves its
word, no divisor is zero and no number is cut when it is made narrower. So the chunks of a node are
the most that the input fills and that still have 32-bit numbers on all nodes together, or one.
-/

namespace ChunkStore.ChunkPlan

set_option autoImplicit false

/-! In numbers without bounds -/

theorem wide_product {left right : Nat} (leftShort : left < 2 ^ 32) (rightShort : right < 2 ^ 64) :
    left * right < 2 ^ 128 ∧
      (BitVec.ofNat 128 left * BitVec.ofNat 128 right).toNat = left * right := by
  have product : left * right < 2 ^ 32 * 2 ^ 64 := Nat.mul_lt_mul'' leftShort rightShort
  have fits : left * right < 2 ^ 128 := by omega
  refine ⟨fits, ?_⟩
  rw [BitVec.toNat_mul, BitVec.toNat_ofNat, BitVec.toNat_ofNat,
    Nat.mod_eq_of_lt (by omega : left < 2 ^ 128), Nat.mod_eq_of_lt (by omega : right < 2 ^ 128),
    Nat.mod_eq_of_lt fits]

theorem positive_of_present {nodes : UInt32} (present : nodes ≠ 0) : 0 < nodes.toNat :=
  UInt32.lt_iff_toNat_lt.mp (UInt32.pos_iff_ne_zero.mpr present)

/-- The most chunks of a node that have 32-bit numbers on so many nodes. -/
def most (nodes : UInt32) : Nat := (UInt32.size - 1) / nodes.toNat

theorem most_positive {nodes : UInt32} (present : nodes ≠ 0) : 1 ≤ most nodes := by
  rw [most, Nat.le_div_iff_mul_le (positive_of_present present), Nat.one_mul]
  exact Nat.le_pred_of_lt nodes.toNat_lt

theorem most_fits {nodes : UInt32} : nodes.toNat * most nodes < UInt32.size := by
  have bound : nodes.toNat * most nodes ≤ UInt32.size - 1 := Nat.mul_div_le _ _
  have size : 0 < UInt32.size := by decide
  omega

theorem compute_chunks (total : UInt64) (replication : UInt32) {nodes : UInt32} (chunkSize : UInt64)
    (present : nodes ≠ 0) :
    (compute total replication nodes chunkSize).chunksPerNode.toNat =
      min (max (replication.toNat * total.toNat / (nodes.toNat * max chunkSize.toNat 1)) 1)
        (most nodes) := by
  have size : max chunkSize.toNat 1 < 2 ^ 64 := by
    have below := chunkSize.toNat_lt
    omega
  obtain ⟨_, replicated⟩ := wide_product replication.toNat_lt total.toNat_lt
  obtain ⟨_, layer⟩ := wide_product nodes.toNat_lt size
  have filled : 0 < nodes.toNat * max chunkSize.toNat 1 :=
    Nat.mul_pos (positive_of_present present) (by omega)
  -- Only a product that wrapped around could be zero here, so the divisor is never raised to one.
  have divisor : BitVec.ofNat 128 nodes.toNat * BitVec.ofNat 128 (max chunkSize.toNat 1) ≠ 0 := by
    intro none
    rw [none] at layer
    exact absurd layer filled.ne
  have cap : (UInt32.ofNat (UInt32.size - 1) / if nodes = 0 then 1 else nodes).toNat =
      most nodes := by
    rw [if_neg present, UInt32.toNat_div]
    rfl
  have short (wanted : Nat) : min wanted (most nodes) < UInt32.size := by
    have cut : most nodes ≤ UInt32.size - 1 := Nat.div_le_self _ _
    have room : 0 < UInt32.size := by decide
    omega
  simp only [compute]
  rw [cap, if_neg divisor, BitVec.toNat_udiv, replicated, layer,
    UInt32.toNat_ofNat_of_lt' (short _)]

theorem compute_fits (total : UInt64) (replication nodes : UInt32) (chunkSize : UInt64)
    (present : nodes ≠ 0) :
    1 ≤ (compute total replication nodes chunkSize).chunksPerNode.toNat ∧
      nodes.toNat * (compute total replication nodes chunkSize).chunksPerNode.toNat <
        UInt32.size := by
  rw [compute_chunks total replication chunkSize present]
  have room := most_positive present
  refine ⟨by omega, ?_⟩
  calc
    nodes.toNat * min _ (most nodes) ≤ nodes.toNat * most nodes :=
      Nat.mul_le_mul_left _ (Nat.min_le_right _ _)
    _ < UInt32.size := most_fits

theorem compute_parallelism (total : UInt64) (replication nodes : UInt32) (chunkSize : UInt64)
    (present : nodes ≠ 0) :
    (compute total replication nodes chunkSize).parallelism.toNat =
      nodes.toNat * (compute total replication nodes chunkSize).chunksPerNode.toNat := by
  have product : (compute total replication nodes chunkSize).parallelism =
      nodes * (compute total replication nodes chunkSize).chunksPerNode := rfl
  rw [product, UInt32.toNat_mul]
  exact Nat.mod_eq_of_lt (compute_fits total replication nodes chunkSize present).2

/-! In steps that are checked -/

def inWord (bits value : Nat) : Option Nat := if value < 2 ^ bits then some value else none

def quotient (dividend divisor : Nat) : Option Nat :=
  if divisor = 0 then none else some (dividend / divisor)

/-- The plan in checked steps. There is none if an argument is zero, a product or a number made
narrower leaves its word, or a divisor is zero; so no divisor is raised to one beforehand. -/
def checked (total : UInt64) (replication nodes : UInt32) (chunkSize : UInt64) :
    Option ChunkPlan := do
  guard (1 ≤ nodes ∧ 1 ≤ replication ∧ 1 ≤ chunkSize)
  let replicated ← inWord 128 (replication.toNat * total.toNat)
  let layer ← inWord 128 (nodes.toNat * chunkSize.toNat)
  let filled ← quotient replicated layer
  let cap ← quotient (UInt32.size - 1) nodes.toNat
  let chunks ← inWord 32 (min (max filled 1) cap)
  let parallelism ← inWord 32 (nodes.toNat * chunks)
  return ⟨UInt32.ofNat chunks, UInt32.ofNat parallelism⟩

theorem in_word {bits value : Nat} (fits : value < 2 ^ bits) : inWord bits value = some value :=
  if_pos fits

theorem quotient_of_positive {dividend divisor : Nat} (positive : 0 < divisor) :
    quotient dividend divisor = some (dividend / divisor) :=
  if_neg (Nat.pos_iff_ne_zero.mp positive)

theorem max_of_sized {chunkSize : UInt64} (sized : 1 ≤ chunkSize) :
    max chunkSize.toNat 1 = chunkSize.toNat :=
  Nat.max_eq_left (UInt64.le_iff_toNat_le.mp sized)

/-- On arguments that are not zero every step of a plan is exact. -/
theorem checked_eq_compute (total : UInt64) {replication nodes : UInt32} {chunkSize : UInt64}
    (held : 1 ≤ replication) (spread : 1 ≤ nodes) (sized : 1 ≤ chunkSize) :
    checked total replication nodes chunkSize =
      some (compute total replication nodes chunkSize) := by
  have present := UInt32.pos_iff_ne_zero.mp spread
  have chunks := compute_chunks total replication chunkSize present
  have parallelism := compute_parallelism total replication nodes chunkSize present
  rw [max_of_sized sized, most] at chunks
  have layer : 0 < nodes.toNat * chunkSize.toNat :=
    Nat.mul_pos (positive_of_present present) (UInt64.le_iff_toNat_le.mp sized)
  simp only [checked, guard, spread, held, sized, and_self, if_true, Option.pure_def,
    Option.bind_eq_bind, Option.bind_some,
    in_word (wide_product replication.toNat_lt total.toNat_lt).1,
    in_word (wide_product nodes.toNat_lt chunkSize.toNat_lt).1,
    quotient_of_positive layer, quotient_of_positive (positive_of_present present), ← chunks,
    in_word (compute total replication nodes chunkSize).chunksPerNode.toNat_lt, ← parallelism,
    in_word (compute total replication nodes chunkSize).parallelism.toNat_lt, UInt32.ofNat_toNat]

/-! What is planned -/

/-- So many chunks on every node are filled by the replicated input and have 32-bit numbers. -/
def Fits (total : UInt64) (replication nodes : UInt32) (chunkSize : UInt64) (chunks : Nat) : Prop :=
  chunks * nodes.toNat * chunkSize.toNat ≤ replication.toNat * total.toNat ∧
    chunks * nodes.toNat ≤ 2 ^ 32 - 1

theorem fits_iff (total : UInt64) (replication : UInt32) {nodes : UInt32} {chunkSize : UInt64}
    (spread : 1 ≤ nodes) (sized : 1 ≤ chunkSize) (chunks : Nat) :
    Fits total replication nodes chunkSize chunks ↔
      chunks ≤ replication.toNat * total.toNat / (nodes.toNat * chunkSize.toNat) ∧
        chunks ≤ most nodes := by
  have positive := positive_of_present (UInt32.pos_iff_ne_zero.mp spread)
  rw [most, Nat.le_div_iff_mul_le (Nat.mul_pos positive (UInt64.le_iff_toNat_le.mp sized)),
    Nat.le_div_iff_mul_le positive, ← Nat.mul_assoc]
  rfl

/-- A plan takes the most chunks that fit; where not even one is filled it takes one. -/
theorem chunks_greatest (total : UInt64) (replication : UInt32) {nodes : UInt32}
    {chunkSize : UInt64} (spread : 1 ≤ nodes) (sized : 1 ≤ chunkSize) :
    ((∃ chunks, 1 ≤ chunks ∧ Fits total replication nodes chunkSize chunks) →
        IsGreatest {chunks | Fits total replication nodes chunkSize chunks}
          (compute total replication nodes chunkSize).chunksPerNode.toNat) ∧
      ((¬ ∃ chunks, 1 ≤ chunks ∧ Fits total replication nodes chunkSize chunks) →
        (compute total replication nodes chunkSize).chunksPerNode.toNat = 1) := by
  have present := UInt32.pos_iff_ne_zero.mp spread
  have room := most_positive present
  rw [compute_chunks total replication chunkSize present, max_of_sized sized]
  simp only [IsGreatest, upperBounds, Set.mem_ofPred_eq, fits_iff total replication spread sized]
  generalize replication.toNat * total.toNat / (nodes.toNat * chunkSize.toNat) = filled
  constructor
  · rintro ⟨chunks, one, within, _⟩
    refine ⟨by omega, ?_⟩
    intro other fits
    omega
  · intro nothing
    have empty : filled = 0 := by
      by_contra filledSome
      exact nothing ⟨1, Nat.le_refl 1, by omega, room⟩
    omega

/-- More input, more copies, fewer nodes and smaller chunks never give a node fewer chunks. -/
theorem chunks_monotone {total moreTotal : UInt64} {replication moreReplication : UInt32}
    {nodes fewerNodes : UInt32} {chunkSize smallerSize : UInt64} (input : total ≤ moreTotal)
    (copies : replication ≤ moreReplication) (spread : 1 ≤ fewerNodes)
    (cluster : fewerNodes ≤ nodes) (sized : 1 ≤ smallerSize) (size : smallerSize ≤ chunkSize) :
    (compute total replication nodes chunkSize).chunksPerNode ≤
      (compute moreTotal moreReplication fewerNodes smallerSize).chunksPerNode := by
  have wideSpread := UInt32.le_trans spread cluster
  have wideSized := UInt64.le_trans sized size
  rw [UInt32.le_iff_toNat_le] at copies cluster ⊢
  rw [UInt64.le_iff_toNat_le] at input size
  have fewerPresent := UInt32.pos_iff_ne_zero.mp spread
  have positive := positive_of_present fewerPresent
  have sizePositive : 0 < smallerSize.toNat := UInt64.le_iff_toNat_le.mp sized
  rw [compute_chunks total replication chunkSize (UInt32.pos_iff_ne_zero.mp wideSpread),
    compute_chunks moreTotal moreReplication smallerSize fewerPresent,
    max_of_sized sized, max_of_sized wideSized]
  have filled : replication.toNat * total.toNat / (nodes.toNat * chunkSize.toNat) ≤
      moreReplication.toNat * moreTotal.toNat / (fewerNodes.toNat * smallerSize.toNat) :=
    Nat.div_le_div (Nat.mul_le_mul copies input) (Nat.mul_le_mul cluster size)
      (Nat.mul_pos positive sizePositive).ne'
  have cap : most nodes ≤ most fewerNodes := Nat.div_le_div_left cluster positive
  omega

/-- A plan is exact and takes the most chunks that fit, or one, so that all nodes together have as
many as there are partitions; and it grows with the input and its copies and shrinks with the chunk
size and the cluster. -/
theorem compute_optimal (total : UInt64) (replication nodes : UInt32) (chunkSize : UInt64)
    (held : 1 ≤ replication) (spread : 1 ≤ nodes) (sized : 1 ≤ chunkSize) :
    ((∃ chunks, 1 ≤ chunks ∧ Fits total replication nodes chunkSize chunks) →
        IsGreatest {chunks | Fits total replication nodes chunkSize chunks}
          (compute total replication nodes chunkSize).chunksPerNode.toNat) ∧
      ((¬ ∃ chunks, 1 ≤ chunks ∧ Fits total replication nodes chunkSize chunks) →
        (compute total replication nodes chunkSize).chunksPerNode.toNat = 1) ∧
      (compute total replication nodes chunkSize).parallelism.toNat =
        nodes.toNat * (compute total replication nodes chunkSize).chunksPerNode.toNat ∧
      checked total replication nodes chunkSize =
        some (compute total replication nodes chunkSize) ∧
      ∀ moreTotal moreReplication fewerNodes smallerSize, total ≤ moreTotal →
        replication ≤ moreReplication → 1 ≤ fewerNodes → fewerNodes ≤ nodes →
          1 ≤ smallerSize → smallerSize ≤ chunkSize →
            (compute total replication nodes chunkSize).chunksPerNode ≤
              (compute moreTotal moreReplication fewerNodes smallerSize).chunksPerNode := by
  obtain ⟨greatest, least⟩ := chunks_greatest total replication spread sized
  refine ⟨greatest, least, ?_, checked_eq_compute total held spread sized, ?_⟩
  · exact compute_parallelism total replication nodes chunkSize (UInt32.pos_iff_ne_zero.mp spread)
  · intro moreTotal moreReplication fewerNodes smallerSize input copies others cluster some size
    exact chunks_monotone input copies others cluster some size

/-- As much input as a word can count fills more chunks than have numbers on three nodes, and no
input fills none. -/
theorem full_and_empty_plans :
    (1 : UInt32) ≤ 2 ∧ (1 : UInt32) ≤ 3 ∧ (1 : UInt64) ≤ 1 ∧
      IsGreatest {chunks | Fits 18446744073709551615 2 3 1 chunks} 1431655765 ∧
      (compute 18446744073709551615 2 3 1).parallelism.toNat = 3 * 1431655765 ∧
      checked 18446744073709551615 2 3 1 = some (compute 18446744073709551615 2 3 1) ∧
      (compute 18446744073709551615 2 3 1).chunksPerNode ≤
        (compute 18446744073709551615 2 2 1).chunksPerNode ∧
      (compute 0 2 3 1).chunksPerNode.toNat = 1 := by
  have chunks : (compute 18446744073709551615 2 3 1).chunksPerNode.toNat = 1431655765 := by
    decide
  obtain ⟨greatest, _, product, exactly, monotone⟩ :=
    compute_optimal 18446744073709551615 2 3 1 (by decide) (by decide) (by decide)
  rw [chunks] at greatest product
  refine ⟨by decide, by decide, by decide, greatest ⟨1, Nat.le_refl 1, by decide, by decide⟩,
    product, exactly, ?_, ?_⟩
  · exact monotone _ _ 2 1 (by decide) (by decide) (by decide) (by decide) (by decide) (by decide)
  · apply (compute_optimal 0 2 3 1 (by decide) (by decide) (by decide)).2.1
    rintro ⟨chunks, one, filled, _⟩
    simp at filled
    omega

end ChunkStore.ChunkPlan

import ChunkStore.Proofs.Sorting

/-!
Checksum order in tiers. Directories stand before files of data and these before index files, by
name in each tier if that is asked for, and entries that compare equal stay in the order in which
they came. So in listing order the files of data that are digested are those of the listing, in
turn, and the index files follow them in the same way.
-/

namespace ChunkStore.ChecksumOrder

set_option autoImplicit false

/-! What is digested -/

/-- Whether an entry is digested: a file that is neither hidden nor the manifest. -/
def isDigested (manifest : String) (status : Status) : Bool :=
  !status.isDirectory && !status.isHidden && status.name != manifest

def hasIndexName (status : Status) : Bool := EntryKind.indexEnding.isSuffixOf status.name.toList

theorem kind_of_file {status : Status} (isFile : status.isDirectory = false) :
    EntryKind.ofStatus status = if hasIndexName status then .index else .data := by
  rw [EntryKind.ofStatus, isFile]
  rfl

theorem inputs_eq_arrange (order : ChecksumOrder) (manifest : String) (entries : List Status) :
    order.inputs manifest entries = order.arrange (entries.filter (isDigested manifest)) :=
  filter_merge_sort order.ordering (isDigested manifest) entries

theorem of_kind_digested (kind : EntryKind) (manifest : String) (entries : List Status) :
    ofKind kind (entries.filter (isDigested manifest)) =
      entries.filter fun status => isDigested manifest status &&
        (if hasIndexName status then .index else .data) == kind := by
  rw [ofKind, List.filter_filter]
  apply List.filter_congr
  intro status _
  cases digested : isDigested manifest status with
  | false => rw [Bool.and_false, Bool.false_and]
  | true =>
      have isFile : status.isDirectory = false := by
        simp only [isDigested, Bool.and_eq_true, Bool.not_eq_true'] at digested
        exact digested.1.1
      rw [kind_of_file isFile, Bool.and_true, Bool.true_and]

theorem inputs_listing (manifest : String) (entries : List Status) :
    inputs .listing manifest entries =
      (entries.filter fun status => isDigested manifest status && !hasIndexName status) ++
        entries.filter fun status => isDigested manifest status && hasIndexName status := by
  rw [inputs_eq_arrange, arrange_listing, of_kind_digested, of_kind_digested, of_kind_digested]
  have directories : (entries.filter fun status => isDigested manifest status &&
      (if hasIndexName status then EntryKind.index else .data) == .directory) = [] := by
    apply List.filter_eq_nil_iff.mpr
    intro status _
    cases hasIndexName status <;> simp
  rw [directories, List.nil_append]
  congr 1
  · apply List.filter_congr
    intro status _
    cases hasIndexName status <;> rfl
  · apply List.filter_congr
    intro status _
    cases hasIndexName status <;> rfl

/-! How entries stand -/

/-- How two entries may stand one before the other. -/
def Precedes : ChecksumOrder → Status → Status → Prop
  | .listing, left, right => (EntryKind.ofStatus left).rank ≤ (EntryKind.ofStatus right).rank
  | .byName, left, right =>
      (EntryKind.ofStatus left).rank < (EntryKind.ofStatus right).rank ∨
        EntryKind.ofStatus left = EntryKind.ofStatus right ∧ left.name ≤ right.name

/-- Whether an order has no say in how two entries stand. -/
def tied : ChecksumOrder → Status → Status → Bool
  | .listing, left, right => EntryKind.ofStatus left == EntryKind.ofStatus right
  | .byName, left, right =>
      EntryKind.ofStatus left == EntryKind.ofStatus right && left.name == right.name

theorem rank_injective {left right : EntryKind} : left.rank = right.rank ↔ left = right := by
  cases left <;> cases right <;> decide

theorem le_iff_precedes (order : ChecksumOrder) (left right : Status) :
    order.le left right = true ↔ order.Precedes left right := by
  cases order with
  | listing => exact decide_eq_true_iff
  | byName =>
      simp only [le, Precedes, Bool.or_eq_true, Bool.and_eq_true, decide_eq_true_eq, beq_iff_eq,
        Bool.not_eq_true', decide_eq_false_iff_not, String.not_lt, rank_injective]

theorem alike_eq_tied (order : ChecksumOrder) : alike order.le = order.tied := by
  funext left right
  rw [Bool.eq_iff_iff, alike, Bool.and_eq_true, le_iff_precedes, le_iff_precedes]
  cases order with
  | listing =>
      simp only [Precedes, tied, beq_iff_eq, ← rank_injective]
      omega
  | byName =>
      simp only [Precedes, tied, Bool.and_eq_true, beq_iff_eq]
      constructor
      · intro both
        rcases both with ⟨below | ⟨kinds, names⟩, above | ⟨_, others⟩⟩
        · omega
        · simp_all
        · simp_all
        · exact ⟨kinds, String.le_antisymm names others⟩
      · rintro ⟨kinds, names⟩
        rw [kinds, names]
        exact ⟨Or.inr ⟨rfl, String.le_refl _⟩, Or.inr ⟨rfl, String.le_refl _⟩⟩

theorem arrange_precedes (order : ChecksumOrder) (entries : List Status) :
    (order.arrange entries).Pairwise order.Precedes := by
  have ordered := (stably_sorted_merge_sort order.ordering entries).ordered
  apply ordered.imp
  intro left right before
  exact (order.le_iff_precedes left right).mp before

theorem arrange_tied (order : ChecksumOrder) (entries : List Status) (status : Status) :
    (order.arrange entries).filter (order.tied status) = entries.filter (order.tied status) := by
  rw [← alike_eq_tied]
  exact (stably_sorted_merge_sort order.ordering entries).stable status

theorem arrange_arrange (order : ChecksumOrder) (entries : List Status) :
    order.arrange (order.arrange entries) = order.arrange entries :=
  List.mergeSort_of_pairwise (stably_sorted_merge_sort order.ordering entries).ordered

/-- In listing order the files of data that are digested come as they are listed, and then the
index files as they are listed. Either order puts the entries in tiers, by name within each if
it is the order by name, leaves tied entries as they came, and changes nothing the second time. -/
theorem arranges_in_tiers :
    (∀ manifest entries, inputs .listing manifest entries =
      (entries.filter fun status => isDigested manifest status && !hasIndexName status) ++
        entries.filter fun status => isDigested manifest status && hasIndexName status) ∧
    ∀ (order : ChecksumOrder) (entries : List Status),
      (order.arrange entries).Perm entries ∧
      (order.arrange entries).Pairwise order.Precedes ∧
      (∀ status, (order.arrange entries).filter (order.tied status) =
        entries.filter (order.tied status)) ∧
      order.arrange (order.arrange entries) = order.arrange entries := by
  constructor
  · exact inputs_listing
  · intro order entries
    exact ⟨List.mergeSort_perm entries order.le, order.arrange_precedes entries,
      order.arrange_tied entries, order.arrange_arrange entries⟩

end ChunkStore.ChecksumOrder

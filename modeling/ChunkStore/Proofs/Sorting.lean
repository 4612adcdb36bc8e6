import ChunkStore.Checksum.Order
import ChunkStore.Record

/-!
Stable sorting. A sorted list that keeps the order of what compares equal is determined by the
list it was made of, so sorting and leaving something out can be done in either order, and a sort
by a few ranks puts one rank after the other.
-/

namespace ChunkStore

set_option autoImplicit false

section stable

variable {α : Type} {le : α → α → Bool}

/-- Whether neither of two elements must stand before the other. -/
def alike (le : α → α → Bool) (left right : α) : Bool := le left right && le right left

/-- A list in order, in which elements that compare equal stand as they did in another list. -/
structure StablySorted (le : α → α → Bool) (original sorted : List α) : Prop where
  ordered : sorted.Pairwise fun left right => le left right = true
  stable : ∀ element, sorted.filter (alike le element) = original.filter (alike le element)

structure Ordering (le : α → α → Bool) : Prop where
  trans : ∀ first second third, le first second = true → le second third = true →
    le first third = true
  total : ∀ left right, (le left right || le right left) = true

theorem Ordering.refl (ordering : Ordering le) (element : α) : le element element = true := by
  simpa using ordering.total element element

theorem Ordering.alike_refl (ordering : Ordering le) (element : α) :
    alike le element element = true := by
  rw [alike, ordering.refl, Bool.and_self]

theorem Ordering.le_of_alike (ordering : Ordering le) {element left right : α}
    (leftAlike : alike le element left = true) (rightAlike : alike le element right = true) :
    le left right = true := by
  rw [alike, Bool.and_eq_true] at leftAlike rightAlike
  exact ordering.trans _ _ _ leftAlike.2 rightAlike.1

/-- Sorting moves nothing that the comparison leaves where it is. -/
theorem filter_merge_sort_of_le (ordering : Ordering le) (keep : α → Bool) (list : List α)
    (loose : ∀ left ∈ list, ∀ right ∈ list, keep left = true → keep right = true →
      le left right = true) :
    (list.mergeSort le).filter keep = list.filter keep := by
  have ordered : (list.filter keep).Pairwise fun left right => le left right = true := by
    apply List.pairwise_iff_forall_sublist.mpr
    intro left right inside
    have leftKept := List.mem_filter.mp (inside.subset List.mem_cons_self)
    have rightKept := List.mem_filter.mp
      (inside.subset (List.mem_cons_of_mem left List.mem_cons_self))
    exact loose left leftKept.1 right rightKept.1 leftKept.2 rightKept.2
  have inner : (list.filter keep).Sublist (list.mergeSort le) :=
    List.sublist_mergeSort ordering.trans ordering.total ordered List.filter_sublist
  have kept : (list.filter keep).Sublist ((list.mergeSort le).filter keep) := by
    simpa using inner.filter keep
  have length : ((list.mergeSort le).filter keep).length = (list.filter keep).length :=
    ((List.mergeSort_perm list le).filter keep).length_eq
  exact (kept.eq_of_length length.symm).symm

theorem stably_sorted_merge_sort (ordering : Ordering le) (list : List α) :
    StablySorted le list (list.mergeSort le) where
  ordered := List.pairwise_mergeSort ordering.trans ordering.total list
  stable element := filter_merge_sort_of_le ordering (alike le element) list
    fun _ _ _ _ leftAlike rightAlike => ordering.le_of_alike leftAlike rightAlike

theorem StablySorted.filter {original sorted : List α} (keeps : StablySorted le original sorted)
    (keep : α → Bool) : StablySorted le (original.filter keep) (sorted.filter keep) where
  ordered := keeps.ordered.sublist List.filter_sublist
  stable element := by
    rw [List.filter_filter, List.filter_filter]
    have swapped (list : List α) :
        list.filter (fun a => alike le element a && keep a) =
          (list.filter (alike le element)).filter keep := by
      rw [List.filter_filter]
      exact congrArg (fun rule => list.filter rule) (funext fun a => Bool.and_comm _ _)
    rw [swapped, swapped, keeps.stable]

theorem le_of_ordered (ordering : Ordering le) {first element : α} {rest : List α}
    (ordered : (first :: rest).Pairwise fun left right => le left right = true)
    (member : element ∈ first :: rest) : le first element = true := by
  rcases List.mem_cons.mp member with here | later
  · rw [here]
    exact ordering.refl first
  · exact (List.pairwise_cons.mp ordered).1 element later

/-- There is one way to sort a list stably. -/
theorem stably_sorted_unique (ordering : Ordering le) {original left right : List α}
    (first : StablySorted le original left) (second : StablySorted le original right) :
    left = right := by
  obtain ⟨leftOrdered, leftStable⟩ := first
  obtain ⟨rightOrdered, rightStable⟩ := second
  have same : ∀ element, left.filter (alike le element) = right.filter (alike le element) :=
    fun element => (leftStable element).trans (rightStable element).symm
  clear leftStable rightStable
  have mem {one other : List α} (agree : ∀ element, one.filter (alike le element) =
      other.filter (alike le element)) {element : α} (member : element ∈ one) :
      element ∈ other := by
    have kept : element ∈ one.filter (alike le element) :=
      List.mem_filter.mpr ⟨member, ordering.alike_refl element⟩
    rw [agree] at kept
    exact (List.mem_filter.mp kept).1
  induction left generalizing right with
  | nil =>
      cases right with
      | nil => rfl
      | cons head tail =>
          have lost := mem (fun element => (same element).symm) (List.mem_cons_self (l := tail))
          exact absurd lost (by simp)
  | cons head tail induction =>
      cases right with
      | nil =>
          have lost := mem same (List.mem_cons_self (l := tail))
          exact absurd lost (by simp)
      | cons other others =>
          -- Each head bounds the other, so the two come first among what compares equal to them.
          have forward : le other head = true :=
            le_of_ordered ordering rightOrdered (mem same List.mem_cons_self)
          have backward : le head other = true :=
            le_of_ordered ordering leftOrdered
              (mem (fun element => (same element).symm) List.mem_cons_self)
          have heads : head = other := by
            have agree := same head
            rw [List.filter_cons_of_pos (ordering.alike_refl head),
              List.filter_cons_of_pos (by rw [alike, backward, forward, Bool.and_self])] at agree
            exact (List.cons.inj agree).1
          subst heads
          congr 1
          refine induction (List.pairwise_cons.mp leftOrdered).2
            (List.pairwise_cons.mp rightOrdered).2 ?_
          intro element
          have agree := same element
          by_cases equal : alike le element head = true
          · rw [List.filter_cons_of_pos equal, List.filter_cons_of_pos equal] at agree
            exact (List.cons.inj agree).2
          · rwa [List.filter_cons_of_neg equal, List.filter_cons_of_neg equal] at agree

theorem StablySorted.eq_merge_sort (ordering : Ordering le) {original sorted : List α}
    (keeps : StablySorted le original sorted) : sorted = original.mergeSort le :=
  stably_sorted_unique ordering keeps (stably_sorted_merge_sort ordering original)

/-- What is left out may be left out before or after sorting. -/
theorem filter_merge_sort (ordering : Ordering le) (keep : α → Bool) (list : List α) :
    (list.mergeSort le).filter keep = (list.filter keep).mergeSort le :=
  ((stably_sorted_merge_sort ordering list).filter keep).eq_merge_sort ordering

end stable

/-! Byte strings -/

namespace Bytes

theorem le_total (left right : Bytes) : (le left right || le right left) = true := by
  induction left generalizing right with
  | nil => rfl
  | cons byte rest induction =>
      cases right with
      | nil => rfl
      | cons other others =>
          rw [le, le]
          by_cases below : byte < other
          · simp [below]
          by_cases above : other < byte
          · simp [above]
          simpa [below, above] using induction others

theorem le_cons_iff (byte other : UInt8) (rest others : Bytes) :
    le (byte :: rest) (other :: others) = true ↔
      byte.toNat < other.toNat ∨ (byte = other ∧ le rest others = true) := by
  rw [le, ← UInt8.toNat_inj]
  simp only [UInt8.lt_iff_toNat_lt]
  by_cases below : byte.toNat < other.toNat
  · simp [below]
  by_cases above : other.toNat < byte.toNat
  · have different : byte.toNat ≠ other.toNat := by omega
    simp [below, above, different]
  have equal : byte.toNat = other.toNat := by omega
  simp [equal]

theorem le_trans (first second third : Bytes) (lower : le first second = true)
    (upper : le second third = true) : le first third = true := by
  induction first generalizing second third with
  | nil => rfl
  | cons byte rest induction =>
      cases second with
      | nil => simp [le] at lower
      | cons other others =>
          cases third with
          | nil => simp [le] at upper
          | cons last lasts =>
              rw [le_cons_iff] at lower upper ⊢
              rcases lower with below | ⟨rfl, lowerRest⟩
              · rcases upper with above | ⟨rfl, _⟩
                · exact Or.inl (by omega)
                · exact Or.inl below
              · rcases upper with above | ⟨rfl, upperRest⟩
                · exact Or.inl above
                · exact Or.inr ⟨rfl, induction others lasts lowerRest upperRest⟩

theorem le_antisymm {left right : Bytes} (forward : le left right = true)
    (backward : le right left = true) : left = right := by
  induction left generalizing right with
  | nil =>
      cases right with
      | nil => rfl
      | cons other others => simp [le] at backward
  | cons byte rest induction =>
      cases right with
      | nil => simp [le] at forward
      | cons other others =>
          rw [le_cons_iff] at forward backward
          rcases forward with below | ⟨rfl, forwardRest⟩
          · rcases backward with above | ⟨rfl, _⟩ <;> omega
          · rcases backward with above | ⟨_, backwardRest⟩
            · omega
            · rw [induction forwardRest backwardRest]

end Bytes

namespace Record

def keyLe (left right : Record) : Bool := Bytes.le left.key right.key

theorem key_ordering : Ordering keyLe where
  trans first second third := Bytes.le_trans first.key second.key third.key
  total left right := Bytes.le_total left.key right.key

theorem stably_sorted_by_key (records : List Record) :
    StablySorted keyLe records (sortByKey records) :=
  stably_sorted_merge_sort key_ordering records

end Record

/-! Listings -/

namespace ChecksumOrder

theorem ordering (order : ChecksumOrder) : Ordering order.le where
  trans first second third lower upper := by
    cases order with
    | listing =>
        simp only [le, decide_eq_true_eq] at *
        omega
    | byName =>
        simp only [le, Bool.or_eq_true, Bool.and_eq_true, decide_eq_true_eq, beq_iff_eq,
          Bool.not_eq_true', decide_eq_false_iff_not, String.not_lt] at *
        rcases lower with lower | ⟨lowerRank, lowerName⟩
        · exact Or.inl (by omega)
        · rcases upper with upper | ⟨upperRank, upperName⟩
          · exact Or.inl (by omega)
          · exact Or.inr ⟨by omega, String.le_trans lowerName upperName⟩
  total left right := by
    cases order with
    | listing =>
        simp only [le, Bool.or_eq_true, decide_eq_true_eq]
        omega
    | byName =>
        simp only [le, Bool.or_eq_true, Bool.and_eq_true, decide_eq_true_eq, beq_iff_eq,
          Bool.not_eq_true', decide_eq_false_iff_not, String.not_lt]
        rcases Nat.lt_trichotomy (EntryKind.ofStatus left).rank (EntryKind.ofStatus right).rank
          with below | equal | above
        · exact Or.inl (Or.inl below)
        · rcases String.le_total left.name right.name with forward | backward
          · exact Or.inl (Or.inr ⟨equal, forward⟩)
          · exact Or.inr (Or.inr ⟨equal.symm, backward⟩)
        · exact Or.inr (Or.inl above)

def ofKind (kind : EntryKind) (entries : List Status) : List Status :=
  entries.filter fun status => EntryKind.ofStatus status == kind

theorem kind_of_mem {kind : EntryKind} {entries : List Status} {status : Status}
    (member : status ∈ ofKind kind entries) : EntryKind.ofStatus status = kind := by
  simpa using (List.mem_filter.mp member).2

theorem filter_of_kind (entries : List Status) (kind : EntryKind) (status : Status) :
    (ofKind kind entries).filter (alike (le .listing) status) =
      if EntryKind.ofStatus status = kind then ofKind kind entries else [] := by
  have asked (other : Status) (member : other ∈ ofKind kind entries) :
      alike (le .listing) status other = decide (EntryKind.ofStatus status = kind) := by
    rw [alike, le, le, kind_of_mem member]
    cases kind <;> cases EntryKind.ofStatus status <;> decide
  split
  · rename_i equal
    exact List.filter_eq_self.mpr fun other member => by simp [asked other member, equal]
  · rename_i different
    exact List.filter_eq_nil_iff.mpr fun other member => by simp [asked other member, different]

/-- In listing order directories come first, then files of data and then index files, and each
kind keeps the order in which it came. -/
theorem arrange_listing (entries : List Status) :
    arrange .listing entries =
      ofKind .directory entries ++ ofKind .data entries ++ ofKind .index entries := by
  refine (StablySorted.eq_merge_sort (ordering .listing) ⟨?_, ?_⟩).symm
  · have within (kind : EntryKind) : (ofKind kind entries).Pairwise fun left right =>
        le .listing left right = true := by
      apply List.pairwise_of_forall_mem_list
      intro left leftMember right rightMember
      rw [le, kind_of_mem leftMember, kind_of_mem rightMember]
      simp
    rw [List.pairwise_append, List.pairwise_append]
    refine ⟨⟨within _, within _, ?_⟩, within _, ?_⟩
    · intro left leftMember right rightMember
      rw [le, kind_of_mem leftMember, kind_of_mem rightMember]
      rfl
    · intro left leftMember right rightMember
      rw [le, kind_of_mem rightMember]
      rcases List.mem_append.mp leftMember with directory | data
      · rw [kind_of_mem directory]
        rfl
      · rw [kind_of_mem data]
        rfl
  · intro status
    have same (kind : EntryKind) (is : EntryKind.ofStatus status = kind) :
        entries.filter (alike (le .listing) status) = ofKind kind entries := by
      apply List.filter_congr
      intro other _
      rw [alike, le, le, is]
      cases kind <;> cases EntryKind.ofStatus other <;> decide
    rw [List.filter_append, List.filter_append, filter_of_kind, filter_of_kind, filter_of_kind]
    cases is : EntryKind.ofStatus status <;> simp [same _ is]

/-- Any order puts directories first, then files of data and then index files. -/
theorem arrange_by_kind (order : ChecksumOrder) (entries : List Status) :
    order.arrange entries =
      ofKind .directory (order.arrange entries) ++ ofKind .data (order.arrange entries) ++
        ofKind .index (order.arrange entries) := by
  have coarser (left right : Status) (before : order.le left right = true) :
      le .listing left right = true := by
    cases order with
    | listing => exact before
    | byName =>
        simp only [le, Bool.or_eq_true, Bool.and_eq_true, decide_eq_true_eq, beq_iff_eq] at *
        omega
  have ordered : (order.arrange entries).Pairwise fun left right =>
      le .listing left right = true :=
    ((stably_sorted_merge_sort order.ordering entries).ordered).imp (coarser _ _)
  rw [← arrange_listing]
  exact (List.mergeSort_of_pairwise ordered).symm

/-- How an order puts paths of one kind that are listed in turn: as they are listed, or by name. -/
def Arranges : ChecksumOrder → List Path → List Path → Prop
  | .listing, listed, arranged => arranged = listed
  | .byName, listed, arranged =>
      arranged.Perm listed ∧ arranged.Pairwise fun left right => left.name ≤ right.name

theorem arranges_kind (order : ChecksumOrder) (kind : EntryKind) (entries : List Status) :
    order.Arranges ((ofKind kind entries).map (·.path))
      ((ofKind kind (order.arrange entries)).map (·.path)) := by
  cases order with
  | listing =>
      refine congrArg (List.map Status.path) (filter_merge_sort_of_le (ordering .listing) _ _ ?_)
      intro left _ right _ leftKind rightKind
      rw [beq_iff_eq] at leftKind rightKind
      rw [le, leftKind, rightKind]
      simp
  | byName =>
      refine ⟨((List.mergeSort_perm entries _).filter _).map _, List.pairwise_map.mpr ?_⟩
      have ordered := (stably_sorted_merge_sort (ordering .byName) entries).ordered
      apply (ordered.sublist List.filter_sublist).imp_of_mem
      intro left right leftMember rightMember before
      rw [le, kind_of_mem leftMember, kind_of_mem rightMember] at before
      simp only [Bool.or_eq_true, Bool.and_eq_true, decide_eq_true_eq, beq_iff_eq,
        Bool.not_eq_true', decide_eq_false_iff_not, String.not_lt] at before
      rcases before with below | ⟨_, names⟩
      · exact absurd below (Nat.lt_irrefl _)
      · exact names

end ChecksumOrder

end ChunkStore

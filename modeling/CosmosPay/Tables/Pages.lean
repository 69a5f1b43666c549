import Mathlib.Data.List.Basic
import Mathlib.Data.List.Induction
import Mathlib.Data.List.Nodup
import Mathlib.Data.List.Sort
import Mathlib.Order.Defs.LinearOrder

/-!
# Pages of a listing

A table is read page by page.  Each page is cut out of a listing that is sorted by a key, and
rows with the same key may come in another order each time.  The pages list every row once
exactly if no page ends between two rows with the same key.
-/

namespace Tables

variable {α β : Type} [LinearOrder β]

/-- The rows, sorted by the key. -/
structure Listing (key : α → β) (rows listing : List α) : Prop where
  perm : listing.Perm rows
  sorted : listing.Pairwise fun first second => key first ≤ key second

/-- A page is cut out of some listing. -/
def PageOf (key : α → β) (rows : List α) (take skip : Nat) (page : List α) : Prop :=
  ∃ listing, Listing key rows listing ∧ (listing.drop skip).take take = page

/-- The cut lies between two rows with the same key. -/
def Straddled (key : α → β) (rows : List α) (cut : Nat) : Prop :=
  ∃ value, rows.countP (fun row => key row < value) < cut ∧
    cut < rows.countP fun row => key row ≤ value

section Prefixes

variable {items : List α} {holds : α → Bool}

/-- What holds of the first items only holds of as many as it counts. -/
theorem holds_iff_lt_countP
    (closed : items.Pairwise fun first second => holds second = true → holds first = true)
    {index : Nat} {item : α} (isItem : items[index]? = some item) :
    holds item = true ↔ index < items.countP holds := by
  induction items generalizing index with
  | nil => simp at isItem
  | cons first items ih =>
      obtain ⟨before, rest⟩ := List.pairwise_cons.mp closed
      cases holdsFirst : holds first with
      | true =>
          rw [List.countP_cons_of_pos holdsFirst]
          cases index with
          | zero =>
              obtain rfl : first = item := Option.some.inj isItem
              simp [holdsFirst]
          | succ index =>
              rw [ih rest isItem]
              omega
      | false =>
          -- nothing follows of which it holds
          have none : ∀ later ∈ first :: items, ¬ holds later = true := by
            intro later member holdsLater
            rcases List.mem_cons.mp member with rfl | listed
            · rw [holdsFirst] at holdsLater
              cases holdsLater
            · have holdsIt := before later listed holdsLater
              rw [holdsFirst] at holdsIt
              cases holdsIt
          rw [List.countP_eq_zero.mpr none]
          simp [none item (List.mem_of_getElem? isItem)]

theorem filter_eq_take {cut : Nat}
    (kept : ∀ index item, items[index]? = some item → (holds item = true ↔ index < cut)) :
    items.filter holds = items.take cut := by
  induction items generalizing cut with
  | nil => simp
  | cons first items ih =>
      have isFirst := kept 0 first rfl
      cases cut with
      | zero =>
          have others : items.filter holds = items.take 0 := ih fun index item isItem => by
            rw [kept (index + 1) item isItem]
            omega
          rw [List.filter_cons_of_neg (by simpa using isFirst), others]
          rfl
      | succ cut =>
          have others : items.filter holds = items.take cut := ih fun index item isItem => by
            rw [kept (index + 1) item isItem]
            omega
          rw [List.filter_cons_of_pos (isFirst.mpr (by omega)), others, List.take_succ_cons]

end Prefixes

section Cuts

variable {key : α → β} {rows listing : List α} {cut index : Nat} {row : α}

theorem exists_listing (key : α → β) (rows : List α) : ∃ listing, Listing key rows listing := by
  refine ⟨rows.mergeSort fun first second => key first ≤ key second,
    List.mergeSort_perm _ _, ?_⟩
  refine (List.pairwise_mergeSort ?_ ?_ rows).imp of_decide_eq_true
  · intro first second third one two
    exact decide_eq_true ((of_decide_eq_true one).trans (of_decide_eq_true two))
  · intro first second
    simpa using le_total (key first) (key second)

namespace Listing

variable (isListing : Listing key rows listing) (isRow : listing[index]? = some row)

include isListing isRow

/-- At most the rows before this one have a smaller key than `value`. -/
theorem lt_iff (value : β) :
    key row < value ↔ index < rows.countP fun row => key row < value := by
  rw [← isListing.perm.countP_eq, ← holds_iff_lt_countP _ isRow, decide_eq_true_iff]
  refine isListing.sorted.imp fun {first second} ordered smaller => ?_
  exact decide_eq_true (ordered.trans_lt (of_decide_eq_true smaller))

theorem le_iff (value : β) :
    key row ≤ value ↔ index < rows.countP fun row => key row ≤ value := by
  rw [← isListing.perm.countP_eq, ← holds_iff_lt_countP _ isRow, decide_eq_true_iff]
  refine isListing.sorted.imp fun {first second} ordered smaller => ?_
  exact decide_eq_true (ordered.trans (of_decide_eq_true smaller))

end Listing

/-- Whether a row stands before the cut, whatever the order of equal keys. -/
def standsBefore (key : α → β) (rows : List α) (cut : Nat) (row : α) : Bool :=
  rows.countP (fun other => key other ≤ key row) ≤ cut

/-- Where no keys are equal on both sides of a cut, every listing has the same rows before it. -/
theorem Listing.take_perm (isListing : Listing key rows listing)
    (separated : ¬ Straddled key rows cut) :
    (listing.take cut).Perm (rows.filter (standsBefore key rows cut)) := by
  have kept : ∀ index row, listing[index]? = some row →
      (standsBefore key rows cut row = true ↔ index < cut) := by
    intro index row isRow
    have smaller := (isListing.lt_iff isRow (key row)).not.mp (lt_irrefl _)
    have notLarger := (isListing.le_iff isRow (key row)).mp le_rfl
    rw [standsBefore, decide_eq_true_iff]
    constructor
    · intro before
      exact notLarger.trans_le before
    · intro before
      by_contra after
      exact separated ⟨key row, by omega, by omega⟩
  rw [← filter_eq_take kept]
  exact isListing.perm.filter _

/-- Before the first row stands none, and all stand before a cut behind the last. -/
theorem filter_standsBefore_zero (key : α → β) (rows : List α) :
    rows.filter (standsBefore key rows 0) = [] := by
  rw [List.filter_eq_nil_iff]
  intro row member before
  have itself : 0 < rows.countP fun other => key other ≤ key row :=
    List.countP_pos_iff.mpr ⟨row, member, decide_eq_true le_rfl⟩
  have none := of_decide_eq_true before
  omega

theorem filter_standsBefore_all (key : α → β) {rows : List α} {cut : Nat}
    (behind : rows.length ≤ cut) : rows.filter (standsBefore key rows cut) = rows := by
  rw [List.filter_eq_self]
  exact fun row _ => decide_eq_true (List.countP_le_length.trans behind)

end Cuts

/-! ## One page after another -/

section Pages

variable {key : α → β} {rows : List α} {size : Nat} {pages : List (List α)}

/-- The pages so far have listed the rows before their last cut. -/
theorem flatten_perm (separated : ∀ index, ¬ Straddled key rows (index * size))
    (cut : ∀ index page, pages[index]? = some page → PageOf key rows size (index * size) page) :
    pages.flatten.Perm (rows.filter (standsBefore key rows (pages.length * size))) := by
  induction pages using List.reverseRecOn with
  | nil => rw [List.length_nil, Nat.zero_mul, filter_standsBefore_zero, List.flatten_nil]
  | append_singleton pages page ih =>
      have earlier := ih fun index page isPage => by
        apply cut
        rw [List.getElem?_append_left (List.getElem?_eq_some_iff.mp isPage).1]
        exact isPage
      obtain ⟨listing, isListing, isPage⟩ := cut pages.length page List.getElem?_concat_length
      have before := isListing.take_perm (separated pages.length)
      have after := isListing.take_perm (separated (pages.length + 1))
      rw [Nat.succ_mul, List.take_add, isPage] at after
      rw [List.flatten_concat, List.length_append, List.length_singleton, Nat.succ_mul]
      exact ((earlier.trans before.symm).append_right page).trans after

/-- Where the keys are equal on both sides of a cut, two listings show one row on both sides. -/
theorem exists_listings {cut : Nat} (straddled : Straddled key rows cut) :
    ∃ listing other row, Listing key rows listing ∧ Listing key rows other ∧
      listing[cut - 1]? = some row ∧ other[cut]? = some row ∧ 0 < cut ∧ cut < rows.length := by
  obtain ⟨value, few, many⟩ := straddled
  obtain ⟨listing, isListing⟩ := exists_listing key rows
  have inside : cut < rows.length := many.trans_le List.countP_le_length
  have length := isListing.perm.length_eq
  obtain ⟨previous, rfl⟩ : ∃ previous, cut = previous + 1 := ⟨cut - 1, by omega⟩
  -- split the listing at the cut
  obtain ⟨before, row, following, after, split, isBefore⟩ : ∃ before row following after,
      listing = before ++ row :: following :: after ∧ before.length = previous := by
    refine ⟨listing.take previous, listing[previous], listing[previous + 1],
      listing.drop (previous + 2), ?_, List.length_take_of_le (by omega)⟩
    rw [← List.drop_eq_getElem_cons, ← List.drop_eq_getElem_cons, List.take_append_drop]
  have isRow : listing[previous]? = some row := by simp [split, ← isBefore]
  have isFollowing : listing[previous + 1]? = some following := by simp [split, ← isBefore]
  have notSmaller := (isListing.lt_iff isRow value).not.mpr (by omega)
  have notLarger := (isListing.le_iff isFollowing value).mpr many
  subst split
  obtain ⟨sortedBefore, sortedAfter, across⟩ := List.pairwise_append.mp isListing.sorted
  obtain ⟨beforeRow, sortedAfter⟩ := List.pairwise_cons.mp sortedAfter
  obtain ⟨beforeFollowing, sortedAfter⟩ := List.pairwise_cons.mp sortedAfter
  have ordered : key row ≤ key following := beforeRow following List.mem_cons_self
  have same : key following = key row :=
    le_antisymm (notLarger.trans (not_lt.mp notSmaller)) ordered
  refine ⟨_, before ++ following :: row :: after, row, isListing, ⟨?_, ?_⟩, isRow, ?_,
    Nat.succ_pos _, inside⟩
  · exact ((List.Perm.swap row following after).append_left before).trans isListing.perm
  · refine List.pairwise_append.mpr ⟨sortedBefore, ?_, fun first isFirst second isSecond => ?_⟩
    · refine List.pairwise_cons.mpr ⟨?_, List.pairwise_cons.mpr ⟨?_, sortedAfter⟩⟩
      · exact List.forall_mem_cons.mpr ⟨same.le, beforeFollowing⟩
      · exact fun later isLater => same ▸ beforeFollowing later isLater
    · exact across first isFirst second ((List.Perm.swap row following after).mem_iff.mp isSecond)
  · simp [← isBefore]

/-- The pages cut out of one listing each. -/
theorem exists_pages (listings : Nat → List α)
    (areListings : ∀ index, Listing key rows (listings index)) (size count : Nat) :
    ∃ pages : List (List α), pages.length = count ∧
      (∀ index page, pages[index]? = some page → PageOf key rows size (index * size) page) ∧
      ∀ index, index < count →
        pages[index]? = some (((listings index).drop (index * size)).take size) := by
  refine ⟨(List.range count).map fun index => ((listings index).drop (index * size)).take size,
    by simp, fun index page isPage => ?_, fun index few => by simp [few]⟩
  rw [List.getElem?_map] at isPage
  obtain ⟨number, isNumber, rfl⟩ := Option.map_eq_some_iff.mp isPage
  obtain ⟨few, rfl⟩ := List.getElem?_eq_some_iff.mp isNumber
  rw [List.getElem_range]
  exact ⟨listings index, areListings index, rfl⟩

/-- The pages list every row once, whatever the order of equal keys on each of them, if and
only if no page ends between equal keys. -/
theorem pages_perm_iff {count : Nat} (distinct : rows.Nodup) (positive : 0 < size)
    (enough : rows.length ≤ count * size) :
    (∀ pages : List (List α), pages.length = count →
      (∀ index page, pages[index]? = some page → PageOf key rows size (index * size) page) →
        pages.flatten.Perm rows) ↔
      ∀ index, ¬ Straddled key rows (index * size) := by
  constructor
  · intro lists index straddled
    obtain ⟨listing, other, row, isListing, isOther, isLast, isFirst, behind, inside⟩ :=
      exists_listings straddled
    obtain ⟨previous, rfl⟩ : ∃ previous, index = previous + 1 :=
      Nat.exists_eq_succ_of_ne_zero (by rintro rfl; simp at behind)
    have few : previous + 1 < count := Nat.lt_of_mul_lt_mul_right (inside.trans_le enough)
    -- one page of the other listing, the rest of the first
    obtain ⟨pages, isCount, cut, isPage⟩ :=
      exists_pages (fun index => if index = previous + 1 then other else listing)
        (fun index => by split <;> assumption) size count
    have disjoint :=
      (List.nodup_flatten.mp ((lists pages isCount cut).nodup_iff.mpr distinct)).2
    have first := isPage previous (Nat.lt_of_succ_lt few)
    have second := isPage (previous + 1) few
    rw [if_neg (Nat.lt_succ_self previous).ne] at first
    rw [if_pos rfl] at second
    have onFirst : row ∈ (listing.drop (previous * size)).take size := by
      have place : (previous + 1) * size - 1 = previous * size + (size - 1) := by
        rw [Nat.succ_mul]
        omega
      apply List.mem_of_getElem? (i := size - 1)
      rw [List.getElem?_take_of_lt (by omega), List.getElem?_drop, ← place]
      exact isLast
    have onSecond : row ∈ (other.drop ((previous + 1) * size)).take size := by
      apply List.mem_of_getElem? (i := 0)
      rw [List.getElem?_take_of_lt positive, List.getElem?_drop]
      exact isFirst
    obtain ⟨isFew, isFirstPage⟩ := List.getElem?_eq_some_iff.mp first
    obtain ⟨isMore, isSecondPage⟩ := List.getElem?_eq_some_iff.mp second
    have apart := List.pairwise_iff_getElem.mp disjoint previous (previous + 1) isFew isMore
      (Nat.lt_succ_self previous)
    rw [isFirstPage, isSecondPage] at apart
    exact apart onFirst onSecond
  · intro separated pages isCount cut
    have perm := flatten_perm separated cut
    rwa [isCount, filter_standsBefore_all key enough] at perm

end Pages

end Tables

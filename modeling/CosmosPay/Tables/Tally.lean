import Mathlib.Algebra.BigOperators.Group.List.Basic
import Mathlib.Algebra.GroupWithZero.Nat
import Mathlib.Data.List.Basic
import Mathlib.Data.List.Nodup

/-!
# Tallies

A map that keeps its keys in the order in which they came, and the fold that collects a
value for each key of a list.
-/

namespace Tables

/-- The entries in the order in which their keys were first set. -/
structure OrderedMap (κ β : Type) where
  entries : List (κ × β)
  nodup : (entries.map Prod.fst).Nodup

section Entries

variable {κ β : Type} [DecidableEq κ]

/-- An entry takes the place of one with its key, or comes last. -/
def putEntry (key : κ) (value : β) : List (κ × β) → List (κ × β)
  | [] => [(key, value)]
  | entry :: entries =>
      if entry.1 = key then (key, value) :: entries else entry :: putEntry key value entries

theorem keys_putEntry (key : κ) (value : β) (entries : List (κ × β)) :
    (putEntry key value entries).map Prod.fst =
      if key ∈ entries.map Prod.fst then entries.map Prod.fst
      else entries.map Prod.fst ++ [key] := by
  induction entries with
  | nil => simp [putEntry]
  | cons entry entries ih =>
      by_cases same : entry.1 = key
      · simp [putEntry, same]
      · simp only [putEntry, same, if_false, List.map_cons, ih, List.mem_cons, Ne.symm same,
          false_or]
        split <;> simp

/-- The value of the entry with this key. -/
def entryAt (key : κ) (entries : List (κ × β)) : Option β :=
  (entries.find? fun entry => entry.1 = key).map Prod.snd

@[simp]
theorem entryAt_cons (key : κ) (entry : κ × β) (entries : List (κ × β)) :
    entryAt key (entry :: entries) =
      if entry.1 = key then some entry.2 else entryAt key entries := by
  by_cases same : entry.1 = key <;> simp [entryAt, same]

theorem entryAt_putEntry (key other : κ) (value : β) (entries : List (κ × β)) :
    entryAt other (putEntry key value entries) =
      if key = other then some value else entryAt other entries := by
  induction entries with
  | nil => simp [putEntry]
  | cons entry entries ih =>
      by_cases same : entry.1 = key
      · subst same
        by_cases isOther : entry.1 = other <;> simp [putEntry, isOther]
      · by_cases isOther : entry.1 = other
        · subst isOther
          simp [putEntry, same, Ne.symm same]
        · simp [putEntry, same, isOther, ih]

theorem entryAt_eq_some_iff {entries : List (κ × β)} (nodup : (entries.map Prod.fst).Nodup)
    {key : κ} {value : β} : entryAt key entries = some value ↔ (key, value) ∈ entries := by
  induction entries with
  | nil => simp [entryAt]
  | cons entry entries ih =>
      obtain ⟨first, old⟩ := entry
      obtain ⟨absent, rest⟩ := List.nodup_cons.mp nodup
      rw [entryAt_cons, List.mem_cons, Prod.mk.injEq]
      by_cases same : first = key
      · subst same
        have unlisted : (first, value) ∉ entries :=
          fun member => absent (List.mem_map.mpr ⟨_, member, rfl⟩)
        simp [unlisted, eq_comm]
      · simp [same, Ne.symm same, ih rest]

end Entries

namespace OrderedMap

variable {κ β : Type} [DecidableEq κ]

def empty : OrderedMap κ β :=
  ⟨[], List.nodup_nil⟩

def get? (map : OrderedMap κ β) (key : κ) : Option β :=
  entryAt key map.entries

def set (map : OrderedMap κ β) (key : κ) (value : β) : OrderedMap κ β where
  entries := putEntry key value map.entries
  nodup := by
    rw [keys_putEntry]
    split
    · exact map.nodup
    · rename_i absent
      refine List.nodup_append.mpr ⟨map.nodup, List.nodup_singleton key, ?_⟩
      rintro first member other isKey rfl
      obtain rfl := List.mem_singleton.mp isKey
      exact absent member

@[simp]
theorem get?_empty (key : κ) : (empty : OrderedMap κ β).get? key = none :=
  rfl

@[simp]
theorem get?_set (map : OrderedMap κ β) (key other : κ) (value : β) :
    (map.set key value).get? other = if key = other then some value else map.get? other :=
  entryAt_putEntry key other value map.entries

theorem get?_eq_some_iff {map : OrderedMap κ β} {key : κ} {value : β} :
    map.get? key = some value ↔ (key, value) ∈ map.entries :=
  entryAt_eq_some_iff map.nodup

end OrderedMap

/-! ## Collecting by key -/

section Tallies

variable {α κ β : Type} [DecidableEq κ]

/-- `map.get(key) ?? start`, changed by every item of the key in turn. -/
def tally (key : α → κ) (start : β) (step : β → α → β) (items : List α) : OrderedMap κ β :=
  items.foldl (fun map item =>
    map.set (key item) (step ((map.get? (key item)).getD start) item)) .empty

variable {key : α → κ} {start : β} {step : β → α → β}

/-- What a tally has collected for a key: the fold over the items of this key. -/
theorem get?_tally (items : List α) (wanted : κ) :
    (tally key start step items).get? wanted =
      if ∃ item ∈ items, key item = wanted then
        some ((items.filter fun item => key item = wanted).foldl step start)
      else none := by
  have folded : ∀ map : OrderedMap κ β,
      (items.foldl (fun map item =>
        map.set (key item) (step ((map.get? (key item)).getD start) item)) map).get? wanted =
      if ∃ item ∈ items, key item = wanted then
        some ((items.filter fun item => key item = wanted).foldl step
          ((map.get? wanted).getD start))
      else map.get? wanted := by
    induction items with
    | nil => simp
    | cons item items ih =>
        intro map
        rw [List.foldl_cons, ih]
        by_cases same : key item = wanted
        · subst same
          by_cases more : ∃ other ∈ items, key other = key item
          · simp [more]
          · have none : items.filter (fun other => key other = key item) = [] := by
              simpa [List.filter_eq_nil_iff] using more
            simp [more, none]
        · simp [same]
  simpa [tally] using folded .empty

theorem mem_tally {items : List α} {wanted : κ} {value : β} :
    (wanted, value) ∈ (tally key start step items).entries ↔
      (∃ item ∈ items, key item = wanted) ∧
        (items.filter fun item => key item = wanted).foldl step start = value := by
  rw [← OrderedMap.get?_eq_some_iff, get?_tally]
  split
  · rename_i present
    simp [present]
  · rename_i absent
    simp [absent]

/-- Counted for each key, the items are all counted. -/
theorem sum_countP_keys {items : List α} {keys : List κ} (nodup : keys.Nodup)
    (all : ∀ item ∈ items, key item ∈ keys) :
    (keys.map fun wanted => items.countP fun item => key item = wanted).sum = items.length := by
  induction items with
  | nil => simp
  | cons item items ih =>
      have one : (keys.map fun wanted => if key item = wanted then 1 else 0).sum = 1 := by
        rw [List.sum_map_eq_nsmul_single (key item) _ fun other differ _ => if_neg (Ne.symm differ),
          List.count_eq_one_of_mem nodup (all item List.mem_cons_self), if_pos rfl, one_nsmul]
      simp only [List.countP_cons, decide_eq_true_eq, List.sum_map_add, one, List.length_cons]
      rw [ih fun other member => all other (List.mem_cons_of_mem item member)]

end Tallies

end Tables

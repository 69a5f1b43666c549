import Mathlib.Data.List.Nodup

/-!
# Items that take their turns

Items are worked into a state one after the other, and each of them changes only what the state
shows under its own key.  Where no key comes twice, every item finds what was shown for it in
the beginning, and leaves what is shown for it in the end.
-/

namespace Tables

variable {σ β κ ω : Type}

/-- An item changes only what is shown under its own key. -/
def Local (view : σ → κ → ω) (key : β → κ) (effect : σ → β → σ) : Prop :=
  ∀ state item other, key item ≠ other → view (effect state item) other = view state other

/-- The state shows what is expected of each item, and no key comes twice. -/
structure Shown (view : σ → κ → ω) (key : β → κ) (expected : β → ω) (state : σ)
    (items : List β) : Prop where
  shown : ∀ item ∈ items, view state (key item) = expected item
  distinct : (items.map key).Nodup

section Turns

variable {view : σ → κ → ω} {key : β → κ} {effect : σ → β → σ} {expected : β → ω}
variable {state : σ} {item : β} {items : List β}

theorem Local.foldl_of_not_mem (isLocal : Local view key effect) {other : κ}
    (absent : other ∉ items.map key) :
    view (items.foldl effect state) other = view state other := by
  induction items generalizing state with
  | nil => rfl
  | cons first items ih =>
      rw [List.map_cons, List.mem_cons, not_or] at absent
      exact (ih absent.2).trans (isLocal state first other (Ne.symm absent.1))

theorem Shown.tail (shown : Shown view key expected state (item :: items))
    (isLocal : Local view key effect) : Shown view key expected (effect state item) items := by
  obtain ⟨single, distinct⟩ := List.nodup_cons.mp shown.distinct
  refine ⟨fun later member => ?_, distinct⟩
  have differ : key item ≠ key later := by
    intro same
    rw [same] at single
    exact single (List.mem_map_of_mem member)
  rw [isLocal state item _ differ]
  exact shown.shown later (List.mem_cons_of_mem item member)

/-- When the turn of an item comes, the state shows what was expected of it, and of the items
that are left. -/
theorem Shown.exists_turn (shown : Shown view key expected state items)
    (isLocal : Local view key effect) (member : item ∈ items) :
    ∃ (before : σ) (later : List β),
      items.foldl effect state = later.foldl effect (effect before item) ∧
        Shown view key expected before (item :: later) := by
  induction items generalizing state with
  | nil => cases member
  | cons first items ih =>
      rcases List.mem_cons.mp member with rfl | listed
      · exact ⟨state, items, rfl, shown⟩
      · exact ih (shown.tail isLocal) listed

/-- In the end the state shows under the key of an item what the item has left there. -/
theorem Shown.exists_left (shown : Shown view key expected state items)
    (isLocal : Local view key effect) (member : item ∈ items) :
    ∃ before, view before (key item) = expected item ∧
      view (items.foldl effect state) (key item) = view (effect before item) (key item) := by
  obtain ⟨before, later, isFold, remains⟩ := shown.exists_turn isLocal member
  refine ⟨before, remains.shown item List.mem_cons_self, ?_⟩
  rw [isFold]
  exact isLocal.foldl_of_not_mem (List.nodup_cons.mp remains.distinct).1

/-- What every item keeps on its turn is kept. -/
theorem Shown.invariant {holds : σ → Prop} (shown : Shown view key expected state items)
    (isLocal : Local view key effect)
    (keeps : ∀ state item, view state (key item) = expected item → holds state →
      holds (effect state item)) (start : holds state) : holds (items.foldl effect state) := by
  induction items generalizing state with
  | nil => exact start
  | cons first items ih =>
      have found := shown.shown first List.mem_cons_self
      exact ih (shown.tail isLocal) (keeps state first found start)

end Turns

end Tables

import CosmosPay.Evolution

/-!
# What answers show

Properties of an answer that hold whatever the state: a row found by id has that
id, a batch lists each intent once, a patched row carries the patch.  Contracts
rely on these.  A sighting is what an answer shows of the status of one intent.
-/

namespace CosmosPay

open Awaiting Tables

/-- The intents of a batch. -/
def batchIds (rows : List (PaymentIntent × String)) : List String :=
  rows.map fun row => row.1.id

def Query.Believable : (asked : Query) → asked.Answer → Prop
  | .intentByMemo consumerId memo, found =>
      ∀ row, found = some row → row.consumerId = consumerId ∧ row.memo = memo
  | .intentOwned id _, found => ∀ row, found = some row → row.id = id
  | .intentIdOwned id _, found => ∀ shown, found = some shown → shown = id
  | .expiredIntents now _, rows =>
      (batchIds rows).Nodup ∧ ∀ row ∈ rows, row.1.status ≠ .succeeded ∧
        ∃ expiresAt, row.1.expiresAt = some expiresAt ∧ expiresAt < now
  | .pendingIntents _, rows =>
      (batchIds rows).Nodup ∧ ∀ row ∈ rows, row.1.status ≠ .succeeded
  | .customerOwned id consumerId, found =>
      ∀ row, found = some row → row.id = id ∧ row.consumerId = consumerId
  | .productOwned id consumerId, found =>
      ∀ row, found = some row → row.id = id ∧ row.consumerId = consumerId
  | .endpointOwned id _, found => ∀ row, found = some row → row.id = id
  | .endpoint id, found => ∀ row, found = some row → row.id = id
  | .deliveryOf id endpointId, found =>
      ∀ row, found = some row → row.id = id ∧ row.endpointId = endpointId
  | _, _ => True

def Write.Believable : (statement : Write) → statement.Answer → Prop
  | .upsertConsumer username _, row => row.apisixUsername = username
  | .create model new, row => ∃ id createdAt, row = model.make new id createdAt
  | .update model id patch, row => ∃ old, model.indexes.key old = id ∧ row = model.apply patch old
  | .delete model id, row => model.indexes.key row = id

def Call.Believable : (call : Call) → call.Answer → Prop
  | .query asked, answer => asked.Believable answer
  | .write statement, answer => statement.Believable answer
  | .horizon (.transaction _ hash), record => record.hash = hash
  | _, _ => True

/-- What may be relied on whatever the state; nothing is said about errors. -/
def Believable (performed : Performed signature) : Prop :=
  ∀ answer, performed.answer = .ok answer → performed.call.Believable answer

theorem arrange?_eq_some {ρ : Type} {id : ρ → String} {rows arranged : List ρ}
    {order : List String} (answered : arrange? id rows order = some arranged) :
    arranged.map id = order ∧ (rows.map id).Perm order ∧ ∀ row ∈ arranged, row ∈ rows := by
  simp only [arrange?, Option.ite_none_right_eq_some, Option.some.injEq,
    List.isPerm_iff] at answered
  obtain ⟨perm, rfl⟩ := answered
  refine ⟨?_, perm, fun row member => ?_⟩
  · have listed : ∀ key ∈ order, ∃ row, (rows.find? fun row => id row = key) = some row ∧
        id row = key := by
      intro key member
      obtain ⟨row, rowMem, rowKey⟩ := List.mem_map.mp (perm.mem_iff.mpr member)
      cases found : rows.find? fun row => id row = key with
      | none =>
          have absent := List.find?_eq_none.mp found row rowMem
          simp [rowKey] at absent
      | some other => exact ⟨other, rfl, by simpa using List.find?_some found⟩
    clear perm
    induction order with
    | nil => rfl
    | cons key order ih =>
        obtain ⟨row, found, rowKey⟩ := listed key List.mem_cons_self
        have rest := ih fun other member => listed other (List.mem_cons_of_mem key member)
        simp only [List.filterMap_cons, found, List.map_cons, rowKey, rest]
  · obtain ⟨key, -, found⟩ := List.mem_filterMap.mp member
    exact List.mem_of_find?_eq_some found

/-- Rows in some order are the rows. -/
theorem perm_of_arrange? {ρ : Type} {id : ρ → String} {rows arranged : List ρ}
    {order : List String} (distinct : (rows.map id).Nodup)
    (answered : arrange? id rows order = some arranged) : arranged.Perm rows := by
  obtain ⟨ids, perm, subset⟩ := arrange?_eq_some answered
  have arrangedDistinct : (arranged.map id).Nodup := by
    rw [ids]
    exact perm.nodup_iff.mp distinct
  apply (List.perm_ext_iff_of_nodup arrangedDistinct.of_map distinct.of_map).mpr
  intro row
  refine ⟨subset row, fun member => ?_⟩
  have listed : id row ∈ arranged.map id := by
    rw [ids]
    exact perm.subset (List.mem_map_of_mem member)
  obtain ⟨other, isArranged, same⟩ := List.mem_map.mp listed
  rwa [← List.inj_on_of_nodup_map distinct (subset other isArranged) member same]

theorem perm_of_arrangeBy? {ρ : Type} {id : ρ → String} {column : ρ → Int}
    {rows arranged : List ρ} {order : List String} (distinct : (rows.map id).Nodup)
    (answered : arrangeBy? id column rows order = some arranged) : arranged.Perm rows :=
  perm_of_arrange? distinct (Option.filter_eq_some_iff.mp answered).1

/-- The rows come back in some order, each once. -/
theorem arrange?_eq_some_iff {ρ : Type} {id : ρ → String} {rows arranged : List ρ}
    {order : List String} (distinct : (rows.map id).Nodup) :
    arrange? id rows order = some arranged ↔ arranged.Perm rows ∧ arranged.map id = order := by
  refine ⟨fun answered => ⟨perm_of_arrange? distinct answered, (arrange?_eq_some answered).1⟩, ?_⟩
  rintro ⟨perm, rfl⟩
  have finds : ∀ row ∈ arranged, (rows.find? fun other => id other = id row) = some row := by
    intro row member
    cases found : rows.find? fun other => id other = id row with
    | none =>
        have absent := List.find?_eq_none.mp found row (perm.subset member)
        simp at absent
    | some other =>
        have same : id other = id row := by simpa using List.find?_some found
        rw [List.inj_on_of_nodup_map distinct (List.mem_of_find?_eq_some found)
          (perm.subset member) same]
  have isPerm : (rows.map id).isPerm (arranged.map id) = true :=
    List.isPerm_iff.mpr (perm.symm.map id)
  rw [arrange?, if_pos isPerm, List.filterMap_map, List.filterMap_congr (g := some)]
  · rw [List.filterMap_some]
  · exact finds

theorem arrange?_perm {ρ : Type} {id : ρ → String} {rows rows' : List ρ} {order : List String}
    (distinct : (rows.map id).Nodup) (perm : rows'.Perm rows) :
    arrange? id rows' order = arrange? id rows order := by
  refine Option.ext fun arranged => ?_
  rw [arrange?_eq_some_iff distinct,
    arrange?_eq_some_iff ((perm.map id).nodup_iff.mpr distinct)]
  exact and_congr_left fun _ => ⟨fun isRows => isRows.trans perm,
    fun isRows => isRows.trans perm.symm⟩

/-- A batch lists rows of the query's condition, each intent once. -/
theorem batch_of_arranged {store : Store} {keep : PaymentIntent → Bool}
    {arranged : List PaymentIntent} {order : List String} (take : Nat)
    (answered : arrange? PaymentIntent.id (store.intents.rows.filter keep) order =
      some arranged) :
    (batchIds (store.withConsumer (arranged.take take))).Nodup ∧
      ∀ row ∈ store.withConsumer (arranged.take take),
        row.1 ∈ store.intents.rows ∧ keep row.1 = true := by
  obtain ⟨ids, perm, subset⟩ := arrange?_eq_some answered
  have rowIds : (store.intents.rows.map PaymentIntent.id).Nodup := store.intents.nodup_keys
  have nodup : (arranged.map PaymentIntent.id).Nodup := by
    rw [ids]
    refine perm.nodup_iff.mp (rowIds.sublist ?_)
    exact List.filter_sublist.map _
  constructor
  · have sublist : (batchIds (store.withConsumer (arranged.take take))).Sublist
        (arranged.map PaymentIntent.id) := by
      refine List.Sublist.trans ?_ ((List.take_sublist take arranged).map PaymentIntent.id)
      generalize arranged.take take = listed
      induction listed with
      | nil => exact List.Sublist.slnil
      | cons intent listed ih =>
          simp only [Store.withConsumer, batchIds, List.filterMap_cons] at ih ⊢
          cases store.consumers.find? intent.consumerId with
          | none => exact List.Sublist.cons _ ih
          | some owner => exact List.Sublist.cons_cons _ ih
    exact nodup.sublist sublist
  · rintro ⟨intent, owner⟩ member
    obtain ⟨other, listed, isRow⟩ := List.mem_filterMap.mp member
    obtain ⟨found, -, pair⟩ := Option.map_eq_some_iff.mp isRow
    obtain ⟨rfl, -⟩ := Prod.mk.inj pair
    exact List.mem_filter.mp (subset other (List.mem_of_mem_take listed))

theorem Query.answer_believable {asked : Query} {order : List String} {store : Store}
    {answer : asked.Answer} (found : asked.answer order store = some answer) :
    asked.Believable answer := by
  cases asked with
  | intentByMemo consumerId memo =>
      rintro row rfl
      have keeps := List.find?_some (Option.some.inj found)
      simpa using keeps
  | intentOwned id username =>
      rintro row rfl
      obtain ⟨lookup, -⟩ := Option.filter_eq_some_iff.mp (Option.some.inj found)
      exact Table.key_of_find? lookup
  | intentIdOwned id username =>
      rintro shown rfl
      obtain ⟨row, filtered, rfl⟩ := Option.map_eq_some_iff.mp (Option.some.inj found)
      obtain ⟨lookup, -⟩ := Option.filter_eq_some_iff.mp filtered
      exact Table.key_of_find? lookup
  | expiredIntents now take =>
      obtain ⟨arranged, isArranged, rfl⟩ := Option.map_eq_some_iff.mp found
      obtain ⟨nodup, kept⟩ := batch_of_arranged take isArranged
      refine ⟨nodup, fun row member => ?_⟩
      obtain ⟨-, keeps⟩ := kept row member
      simp only [decide_eq_true_eq, Option.any_eq_true] at keeps
      obtain ⟨isOpen, past⟩ := keeps
      refine ⟨?_, past⟩
      rcases isOpen with isOpen | isOpen <;> rw [isOpen] <;> decide
  | pendingIntents take =>
      obtain ⟨arranged, isArranged, rfl⟩ := Option.map_eq_some_iff.mp found
      obtain ⟨inOrder, -⟩ := Option.filter_eq_some_iff.mp isArranged
      obtain ⟨nodup, kept⟩ := batch_of_arranged take inOrder
      refine ⟨nodup, fun row member => ?_⟩
      obtain ⟨-, keeps⟩ := kept row member
      have isPending : row.1.status = .pending := by simpa using keeps
      rw [isPending]
      decide
  | customerOwned id consumerId =>
      rintro row rfl
      obtain ⟨lookup, owned⟩ := Option.filter_eq_some_iff.mp (Option.some.inj found)
      exact ⟨Table.key_of_find? lookup, by simpa using owned⟩
  | productOwned id consumerId =>
      rintro row rfl
      obtain ⟨lookup, owned⟩ := Option.filter_eq_some_iff.mp (Option.some.inj found)
      exact ⟨Table.key_of_find? lookup, by simpa using owned⟩
  | endpointOwned id username =>
      rintro row rfl
      obtain ⟨lookup, -⟩ := Option.filter_eq_some_iff.mp (Option.some.inj found)
      exact Table.key_of_find? lookup
  | endpoint id =>
      rintro row rfl
      exact Table.key_of_find? (Option.some.inj found)
  | deliveryOf id endpointId =>
      rintro row rfl
      obtain ⟨lookup, owned⟩ := Option.filter_eq_some_iff.mp (Option.some.inj found)
      exact ⟨Table.key_of_find? lookup, by simpa using owned⟩
  | _ => trivial

/-- The service answers believably. -/
theorem Performs.believable {before after : World} {performed : Performed signature}
    (performs : Performs before after performed) : Believable performed := by
  obtain ⟨call, result⟩ := performed
  cases result with
  | error err => rintro answer ⟨⟩
  | ok answer =>
      suffices believed : call.Believable answer by
        rintro given isGiven
        rwa [← Except.ok.inj isGiven]
      cases call with
      | query asked =>
          obtain ⟨-, order, found⟩ := of_query performs
          exact Query.answer_believable found
      | write statement =>
          cases statement with
          | upsertConsumer username credentialId =>
              exact (Store.consumerNamed_eq_some_iff.mp (of_upsert performs).named).2
          | create model new =>
              obtain ⟨id, -, isRow, -⟩ := of_create performs
              exact ⟨id, _, isRow⟩
          | update model id patch =>
              obtain ⟨old, isRow, change⟩ := of_update performs
              exact ⟨old, Table.key_of_find? change.found, isRow⟩
          | delete model id => exact Table.key_of_find? (of_delete performs).found
      | horizon lookup =>
          cases lookup with
          | transaction network hash =>
              obtain ⟨-, answered⟩ := of_horizon performs
              simp only [HorizonCall.answer] at answered
              split at answered
              · rename_i tx found
                obtain rfl := Except.ok.inj answered
                exact (Prod.mk.inj (Table.key_of_find? found)).2
              · cases answered
          | _ => trivial
      | _ => trivial

/-! ## Sightings -/

/-- The first row of a batch with that id. -/
def sightedIn (rows : List (PaymentIntent × String)) (id : String) :
    Option (Option PaymentIntentStatus) :=
  (rows.find? fun row => row.1.id = id).map fun row => some row.1.status

def Call.sights (id : String) :
    (call : Call) → call.Answer → Option (Option PaymentIntentStatus)
  | .query (.intentOwned _ _), found =>
      (found.filter fun row => row.id = id).map fun row => some row.status
  | .query (.intentStatus asked), status => if asked = id then some status else none
  | .query (.expiredIntents _ _), rows => sightedIn rows id
  | .query (.pendingIntents _), rows => sightedIn rows id
  | .write (.create .paymentIntent _), row => if row.id = id then some (some row.status) else none
  | .write (.update .paymentIntent key _), row =>
      if key = id then some (some row.status) else none
  | .write (.delete .paymentIntent key), _ => if key = id then some none else none
  | _, _ => none

/-- The status that a performed call shows for the intent `id`; `some none` when it
shows that there is no such intent. -/
def sighting (id : String) (performed : Performed signature) :
    Option (Option PaymentIntentStatus) :=
  match performed.answer with
  | .ok answer => performed.call.sights id answer
  | .error _ => none

/-- The latest sighting in a history. -/
def lastSighting (id : String) (past : History signature) :
    Option (Option PaymentIntentStatus) :=
  past.findSome? (sighting id)

theorem sightedIn_sound {store : Store} {rows : List (PaymentIntent × String)}
    (stored : ∀ row ∈ rows, row.1 ∈ store.intents.rows) {id : String}
    {seen : Option PaymentIntentStatus} (sighted : sightedIn rows id = some seen) :
    (store.find? .paymentIntent id).map PaymentIntent.status = seen := by
  obtain ⟨row, found, rfl⟩ := Option.map_eq_some_iff.mp sighted
  have isId : row.1.id = id := by simpa using List.find?_some found
  have lookup : store.find? .paymentIntent id = some row.1 := by
    rw [← isId]
    exact Table.find?_key (stored row (List.mem_of_find?_eq_some found))
  rw [lookup]
  rfl

/-- A sighting is the status after the call. -/
theorem Performs.sighting_eq {before after : World} {performed : Performed signature}
    (performs : Performs before after performed) {id : String}
    {seen : Option PaymentIntentStatus} (sighted : sighting id performed = some seen) :
    (after.store.find? .paymentIntent id).map PaymentIntent.status = seen := by
  obtain ⟨call, result⟩ := performed
  cases result with
  | error err => cases sighted
  | ok answer =>
      change call.sights id answer = some seen at sighted
      cases call with
      | query asked =>
          obtain ⟨rfl, order, found⟩ := of_query performs
          cases asked with
          | intentOwned key username =>
              obtain ⟨row, kept, rfl⟩ := Option.map_eq_some_iff.mp sighted
              obtain ⟨rfl, isId⟩ := Option.filter_eq_some_iff.mp kept
              obtain ⟨lookup, -⟩ := Option.filter_eq_some_iff.mp (Option.some.inj found)
              have sameId : key = id :=
                (Table.key_of_find? lookup).symm.trans (of_decide_eq_true isId)
              rw [← sameId]
              exact congrArg _ lookup
          | intentStatus key =>
              simp only [Call.sights, Option.ite_none_right_eq_some, Option.some.injEq] at sighted
              obtain ⟨rfl, rfl⟩ := sighted
              exact Option.some.inj found
          | expiredIntents now take =>
              obtain ⟨arranged, isArranged, rfl⟩ := Option.map_eq_some_iff.mp found
              obtain ⟨-, kept⟩ := batch_of_arranged take isArranged
              exact sightedIn_sound (fun row member => (kept row member).1) sighted
          | pendingIntents take =>
              obtain ⟨arranged, isArranged, rfl⟩ := Option.map_eq_some_iff.mp found
              obtain ⟨inOrder, -⟩ := Option.filter_eq_some_iff.mp isArranged
              obtain ⟨-, kept⟩ := batch_of_arranged take inOrder
              exact sightedIn_sound (fun row member => (kept row member).1) sighted
          | _ => cases sighted
      | write statement =>
          cases statement with
          | upsertConsumer username credentialId => cases sighted
          | create model new =>
              cases model with
              | paymentIntent =>
                  obtain ⟨drawn, -, rfl, change⟩ := of_create performs
                  simp only [Call.sights, Option.ite_none_right_eq_some,
                    Option.some.injEq] at sighted
                  obtain ⟨isId, rfl⟩ := sighted
                  have sameId : drawn = id := isId
                  rw [change.lookup, if_pos sameId]
                  rfl
              | _ => cases sighted
          | update model key patch =>
              cases model with
              | paymentIntent =>
                  obtain ⟨old, rfl, change⟩ := of_update performs
                  simp only [Call.sights, Option.ite_none_right_eq_some,
                    Option.some.injEq] at sighted
                  obtain ⟨sameId, rfl⟩ := sighted
                  rw [change.lookup, if_pos sameId]
                  rfl
              | _ => cases sighted
          | delete model key =>
              cases model with
              | paymentIntent =>
                  have change := of_delete performs
                  simp only [Call.sights, Option.ite_none_right_eq_some,
                    Option.some.injEq] at sighted
                  obtain ⟨sameId, rfl⟩ := sighted
                  rw [change.lookup, if_pos sameId]
                  rfl
              | _ => cases sighted
      | _ => cases sighted

end CosmosPay

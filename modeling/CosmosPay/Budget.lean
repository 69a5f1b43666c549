import CosmosPay.Awaiting.Rationing
import CosmosPay.Contracts.Receivers
import CosmosPay.Origins

/-!
# How often a webhook is sent

A delivery is POSTed by the task that inserted it and by redeliveries of it, and each of them
keeps to the configured number of attempts.
-/

namespace CosmosPay

open Awaiting Tables

section Budget

variable {deployment : Deployment}
variable {allows : Config (service deployment) → Label (service deployment) → Prop}
variable {config : Config (service deployment)} {state : World}

/-! ## One inserter -/

/-- After an insertion its id is not inserted again. -/
theorem not_inserted_before {model : Model} (run : Run allows (Config.initial state) config)
    {thread : Nat} {new : model.New} {row old : model.Row} {newer older : List (Entry signature)}
    (split : config.trace = newer ++ ⟨thread, .write (.create model new), .ok row⟩ :: older)
    (inserted : InsertedAs older model old) : model.indexes.key old ≠ model.indexes.key row := by
  obtain ⟨before, after, choice, request, reached, rfl, resumes, -⟩ :=
    exists_resumes_of_split run split
  exact (drawnOnce_of_run reached).fresh resumes inserted

theorem inserter_unique {model : Model} (run : Run allows (Config.initial state) config)
    {thread thread' : Nat} {new new' : model.New} {row row' : model.Row}
    (made : ⟨thread, .write (.create model new), .ok row⟩ ∈ config.trace)
    (made' : ⟨thread', .write (.create model new'), .ok row'⟩ ∈ config.trace)
    (same : model.indexes.key row = model.indexes.key row') : thread = thread' := by
  obtain ⟨newer, older, split⟩ := List.append_of_mem made
  rw [split] at made'
  rcases List.mem_append.mp made' with later | rest
  · obtain ⟨newest, between, isNewer⟩ := List.append_of_mem later
    rw [isNewer, List.append_assoc] at split
    have earlier : InsertedAs (between ++ ⟨thread, .write (.create model new), .ok row⟩ :: older)
        model row := ⟨thread, new, List.mem_append_right _ List.mem_cons_self⟩
    exact absurd same (not_inserted_before run split earlier)
  · rcases List.mem_cons.mp rest with isSame | earlier
    · exact (Entry.mk.inj isSame).1.symm
    · exact absurd same.symm (not_inserted_before run split ⟨thread', new', earlier⟩)

/-! ## Who sends a delivery -/

/-- The threads that redeliver a delivery. -/
def redeliveriesOf (id : String) (config : Config (service deployment)) : Finset Nat :=
  (Finset.range config.threads.length).filter fun index =>
    (config.threads[index]?).any fun thread => thread.request.redelivers id

theorem posted_le (run : Run allows (Config.initial state) config) (thread : Nat) :
    posted (config.past thread) ≤ deployment.config.maxAttempts := by
  refine (run.rationed deliveries_fulfilled (fun request past performed permitted isPost => ?_)
    thread).countP_le
  obtain ⟨call, answer⟩ := performed
  cases call with
  | post sent =>
      have guarded : permitsDelivery deployment request past (.post sent) := permitted
      rcases guarded.2 with isPing | sends
      · simp [isDeliveryPost, isPing] at isPost
      · exact sends.remaining
  | _ => cases isPost

theorem countP_isPostOf_le (run : Run allows (Config.initial state) config) (id : String)
    (thread : Nat) : (config.past thread).countP (isPostOf id) ≤ deployment.config.maxAttempts :=
  Nat.le_trans (List.countP_mono_left fun _ _ => isDeliveryPost_of_isPostOf)
    (posted_le run thread)

/-- A thread that sends the delivery redelivers it or has inserted it. -/
theorem redelivers_or_inserted (run : Run allows (Config.initial state) config) {id : String}
    {thread : Nat} (isMaker : thread ∈ config.makers (isPostOf id)) :
    thread ∈ redeliveriesOf id config ∨ ∃ (new : NewWebhookDelivery) (row : WebhookDelivery),
      ⟨thread, .write (.create .webhookDelivery new), .ok row⟩ ∈ config.trace ∧ row.id = id := by
  obtain ⟨bound, post, made, isPost⟩ := Config.mem_makers.mp isMaker
  obtain ⟨delivery, isLoaded, rfl⟩ := loaded_of_post run made isPost
  obtain ⟨⟨call, answer⟩, member, loads⟩ := List.exists_of_findSome?_eq_some isLoaded
  obtain ⟨before, after, choice, request, reached, resumes, later, code, lookup⟩ :=
    exists_resumes_of_mem run (mem_pastOf.mp member)
  cases answer with
  | error err => cases loads
  | ok value =>
      simp only [CosmosPay.loads, Call.loads] at loads
      split at loads
      · rename_i key endpointId found
        obtain ⟨resume, paused, -⟩ := resumes.paused
        have redelivers : request.redelivers key = true :=
          reached.permitted receivers_fulfilled paused
        have isKey : delivery.id = key :=
          (resumes.performs.believable found rfl delivery loads).1
        refine .inl (Finset.mem_filter.mpr ⟨Finset.mem_range.mpr bound, ?_⟩)
        rw [lookup, isKey]
        exact redelivers
      · rename_i new created
        obtain rfl := Option.some.inj loads
        exact .inr ⟨new, created, mem_pastOf.mp member, rfl⟩
      · cases loads

theorem card_makers_le (run : Run allows (Config.initial state) config) (id : String) :
    (config.makers (isPostOf id)).card ≤ (redeliveriesOf id config).card + 1 := by
  have single : (config.makers (isPostOf id) \ redeliveriesOf id config).card ≤ 1 := by
    refine Finset.card_le_one.mpr fun thread member thread' member' => ?_
    obtain ⟨isMaker, others⟩ := Finset.mem_sdiff.mp member
    obtain ⟨isMaker', others'⟩ := Finset.mem_sdiff.mp member'
    obtain ⟨new, row, made, isId⟩ := (redelivers_or_inserted run isMaker).resolve_left others
    obtain ⟨new', row', made', isId'⟩ := (redelivers_or_inserted run isMaker').resolve_left others'
    exact inserter_unique run made made' (isId.trans isId'.symm)
  have split := Finset.card_le_card_sdiff_add_card
    (s := config.makers (isPostOf id)) (t := redeliveriesOf id config)
  omega

/-- Whatever is in flight, a delivery is POSTed at most as often as its task and its
redeliveries may each attempt it. -/
theorem posts_rationed (run : Run allows (Config.initial state) config) (id : String) :
    postsOf id config.trace ≤
      deployment.config.maxAttempts * ((redeliveriesOf id config).card + 1) :=
  Nat.le_trans (run.countP_le_card_makers (countP_isPostOf_le run id))
    (Nat.mul_le_mul_left _ (card_makers_le run id))

end Budget

/-- The task has used two of its five attempts, the redelivery one of its own. -/
theorem posts_rationed_of_redelivered :
    postsOf "d" redelivered.trace ≤ 5 * ((redeliveriesOf "d" redelivered).card + 1) ∧
      postsOf "d" redelivered.trace = 3 ∧ redeliveriesOf "d" redelivered = {4} := by
  have run : Run (fun _ label => issues Request.isForeground label = true) Sample.start
    redelivered := run_after (fun _ _ checked => checked) _ _
  exact ⟨posts_rationed run "d", by decide +kernel, by decide +kernel⟩

end CosmosPay

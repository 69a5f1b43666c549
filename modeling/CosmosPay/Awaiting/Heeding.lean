import CosmosPay.Awaiting.Program

/-!
# Programs that heed what is known

What a program may call can depend on what has happened before it started.  As long as that
stays known while more happens, a composed program heeds it if its parts do.
-/

namespace Awaiting

namespace Program

variable {sig : Signature} {α β : Type} {relies : Performed sig → Prop}
variable {permits : History sig → sig.Call → Prop} {known : History sig → Prop}

/-- What is known stays known. -/
def Lasting (known : History sig → Prop) : Prop :=
  ∀ performed past, known past → known (performed :: past)

theorem lasting_true : Lasting (fun _ : History sig => True) :=
  fun _ _ _ => trivial

theorem lasting_mem (performed : Performed sig) : Lasting (performed ∈ ·) :=
  fun _ _ member => List.mem_cons_of_mem _ member

/-- Started where that is known, the program performs permitted calls only. -/
def Heeds (relies : Performed sig → Prop) (permits : History sig → sig.Call → Prop)
    (known : History sig → Prop) (program : Program sig α) : Prop :=
  ∀ past, known past → program.Conforms relies permits (fun later _ => known later) past

theorem heeds_pure (value : α) : (pure value : Program sig α).Heeds relies permits known :=
  fun _ isKnown => isKnown

theorem heeds_of_calls {kind : sig.Call → Prop} {program : Program sig α}
    (calls : program.Calls kind) (lasting : Lasting known)
    (permitted : ∀ past call, known past → kind call → permits past call) :
    program.Heeds relies permits known := by
  intro past isKnown
  have kept : ∀ recent : History sig, known (recent ++ past) := by
    intro recent
    induction recent with
    | nil => exact isKnown
    | cons performed recent ih => exact lasting _ _ ih
  exact calls.conforms (fun recent call _ isKind => permitted _ call (kept recent) isKind)
    fun recent _ _ => kept recent

theorem heeds_call {call : sig.Call} (lasting : Lasting known)
    (permitted : ∀ past, known past → permits past call) :
    (Program.call call).Heeds relies permits known :=
  fun past isKnown => ⟨permitted past isKnown, fun _ _ => lasting _ past isKnown⟩

theorem Heeds.bind {program : Program sig α} {next : α → Program sig β}
    (first : program.Heeds relies permits known)
    (second : ∀ value, (next value).Heeds relies permits known) :
    (program >>= next).Heeds relies permits known := by
  intro past isKnown
  rw [conforms_bind]
  refine (first past isKnown).ensuring fun later outcome isLater => ?_
  cases outcome with
  | ok value => exact second value later isLater
  | error err => exact isLater

/-- What a call has answered is known from then on. -/
theorem heeds_call_bind {call : sig.Call} {next : sig.Answer call → Program sig α}
    (lasting : Lasting known) (permitted : ∀ past, known past → permits past call)
    (continues : ∀ value, (next value).Heeds relies permits
      fun past => known past ∧ ⟨call, .ok value⟩ ∈ past) :
    (Program.call call >>= next).Heeds relies permits known := by
  intro past isKnown
  refine conforms_call_bind.mpr ⟨permitted past isKnown, fun _ _ => lasting _ past isKnown,
    fun value _ => ?_⟩
  exact (continues value _ ⟨lasting _ past isKnown, List.mem_cons_self⟩).ensuring
    fun _ _ isKnown => isKnown.1

theorem Lasting.and {other : History sig → Prop} (first : Lasting known)
    (second : Lasting other) : Lasting fun past => known past ∧ other past :=
  fun _ _ isKnown => ⟨first _ _ isKnown.1, second _ _ isKnown.2⟩

theorem Heeds.map {program : Program sig α} (heeds : program.Heeds relies permits known)
    (convert : α → β) : (convert <$> program).Heeds relies permits known :=
  fun past isKnown => (conforms_map convert program).mpr (heeds past isKnown)

theorem Heeds.tryCatch {body : Program sig α} {handler : sig.Error → Program sig α}
    (tried : body.Heeds relies permits known)
    (handled : ∀ err, (handler err).Heeds relies permits known) :
    (tryCatch body handler).Heeds relies permits known := by
  intro past isKnown
  rw [conforms_tryCatch]
  refine (tried past isKnown).ensuring fun later outcome isLater => ?_
  cases outcome with
  | ok value => exact isLater
  | error err => exact handled err later isLater

theorem heeds_forM {iteration : β → Program sig PUnit} {items : List β}
    (iterates : ∀ item ∈ items, (iteration item).Heeds relies permits known) :
    (items.forM iteration).Heeds relies permits known := by
  induction items with
  | nil => exact heeds_pure _
  | cons item items ih =>
      refine Heeds.bind (iterates item List.mem_cons_self) fun _ => ih fun other member => ?_
      exact iterates other (List.mem_cons_of_mem _ member)

end Program

end Awaiting

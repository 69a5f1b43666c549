import CosmosPay.Idempotence
import CosmosPay.Text.Numeral

/-!
# Memos

A memo is a string in the database, in the unique key and in the verifier, but a number
on the chain.  Both views agree on canonical numerals only: a numeral with a leading zero
is accepted, yet no payment ever matches it, and it names the same number as another one.
-/

namespace CosmosPay

open Awaiting Tables PaymentIntents

/-- What a transaction with `Memo.id(memo)` carries on the chain. -/
def chainMemo (memo : String) : Memo :=
  .id (UInt64.ofNat (Text.numeralValue memo))

/-- A transaction with that memo matches an intent that is stored with the string. -/
def MatchesItself (memo : String) : Prop :=
  ∀ intent : PaymentIntent, intent.memo = memo →
    StellarVerifier.memoMatches intent (chainMemo memo).type (chainMemo memo).render = none

/-- Of two create requests of one consumer with these memos, each returns the intent of the
other, unless intents are deleted. -/
def Coalesce (first second : String) : Prop :=
  ∀ (deployment : Deployment) (state : World) (config : Config (service deployment)),
    UndeletedRun (.initial state) config →
    ∀ (index index' : Nat) (creation creation' : Creation) (view view' : PaymentIntentView),
      answer? config index = some (creation, view) →
      answer? config index' = some (creation', view') →
      creation.consumer.username = creation'.consumer.username →
      creation.memo = .value first → creation'.memo = .value second →
      view.intent.id = view'.intent.id

/-- Horizon renders an accepted memo as the canonical numeral of its value. -/
theorem render_chainMemo {memo : String} (accepted : AcceptedMemo memo) :
    (chainMemo memo).render = some (Text.numeralValue memo).repr := by
  have small : Text.numeralValue memo < 2 ^ 64 := by
    have bound := accepted.2
    simp only [maxMemoId] at bound
    omega
  simp [chainMemo, Memo.render, UInt64.toNat_ofNat_of_lt' small]

theorem matchesItself_iff {memo : String} (accepted : AcceptedMemo memo) :
    MatchesItself memo ↔ Text.Canonical memo := by
  rw [← Text.repr_numeralValue_iff accepted.1]
  constructor
  · intro matching
    let intent : PaymentIntent := Model.make .paymentIntent {
      consumerId := "", kind := .pay, source := none, destination := "", amount := none,
      asset := "native", assetIssuer := none, memo, msg := .undefined, callback := .undefined,
      network := .testnet, status := .pending, xdr := none, uri := "" } "" 0
    obtain ⟨-, rendered⟩ := memo_of_memoMatches (matching intent rfl)
    rw [render_chainMemo accepted] at rendered
    exact Option.some.inj rendered
  · rintro printed intent rfl
    rw [render_chainMemo accepted, printed]
    simp [StellarVerifier.memoMatches, chainMemo, Memo.type]

theorem coalesce_self (memo : String) : Coalesce memo memo := by
  intro deployment state config run index index' creation creation' view view' answered answered'
    sameUser isMemo isMemo'
  have stored := storedUnder_of_answer run answered
  have stored' := storedUnder_of_answer run answered'
  rw [memo_of_answer run answered isMemo, sameUser] at stored
  rw [memo_of_answer run answered' isMemo'] at stored'
  exact stored.unique stored'

/-! ## Runs with canonical memos -/

/-- A create request gives a canonical memo, or none. -/
def Request.givesCanonicalMemo (request : Request) : Bool :=
  match request.creation? with
  | some ⟨_, _, .value memo⟩ => Text.Canonical memo
  | _ => true

section Runs

variable {deployment : Deployment}

abbrev CanonicalRun : Config (service deployment) → Config (service deployment) → Prop :=
  Run fun _ label => issues Request.givesCanonicalMemo label = true

variable {config : Config (service deployment)} {state : World}

/-- Then every stored memo is canonical, drawn ones included. -/
theorem CanonicalRun.canonical_memo (run : CanonicalRun (.initial state) config)
    (start : state.store = .empty) {id : String} {row : PaymentIntent}
    (found : config.state.store.find? .paymentIntent id = some row) : Text.Canonical row.memo := by
  obtain ⟨maker, inserted⟩ := inserted_of_stored run (by simp [start, Store.empty]) found
  obtain ⟨creation, made⟩ := inserted.madeBy run
  obtain ⟨request, code, lookup, isCreation⟩ := made.request
  have gives := request_admitted (fun _ => rfl) run lookup
  have resolves := made.memo
  obtain ⟨kind, consumer, provided⟩ := creation
  cases provided with
  | undefined =>
      obtain ⟨bytes, -, isMemo⟩ := resolves
      rw [isMemo]
      exact Text.canonical_repr _
  | null => exact resolves.elim
  | value memo =>
      simp only [Request.givesCanonicalMemo, isCreation, decide_eq_true_eq] at gives
      rw [resolves.1]
      exact gives

end Runs

/-- Memo encoding and memo matching agree on canonical memos, and on no others: accepted
memos that denote the same number match their own transactions and are treated as one memo
exactly when both are canonical.  Where only canonical memos are given, no two intents of a
consumer share a number. -/
theorem memos_agree {deployment : Deployment} {state : World} {config : Config (service deployment)}
    (start : state.store = .empty) (run : CanonicalRun (.initial state) config) :
    (∀ first second, AcceptedMemo first → AcceptedMemo second →
      Text.numeralValue first = Text.numeralValue second →
      (MatchesItself first ∧ MatchesItself second ∧ Coalesce first second ↔
        Text.Canonical first ∧ Text.Canonical second)) ∧
    ∀ id id' row row', config.state.store.find? .paymentIntent id = some row →
      config.state.store.find? .paymentIntent id' = some row' →
      row.consumerId = row'.consumerId →
      Text.numeralValue row.memo = Text.numeralValue row'.memo → id = id' := by
  constructor
  · intro first second accepted accepted' same
    rw [matchesItself_iff accepted, matchesItself_iff accepted']
    constructor
    · rintro ⟨canonical, canonical', -⟩
      exact ⟨canonical, canonical'⟩
    · rintro ⟨canonical, canonical'⟩
      refine ⟨canonical, canonical', ?_⟩
      rw [canonical.eq_of_value_eq canonical' same]
      exact coalesce_self second
  · intro id id' row row' found found' sameOwner sameValue
    have sameMemo : row.memo = row'.memo :=
      (run.canonical_memo start found).eq_of_value_eq (run.canonical_memo start found') sameValue
    have same : row = row' :=
      Table.eq_of_clash (Table.mem_of_find? found) (Table.mem_of_find? found')
        (by simp [Model.indexes, intentIndexes, sameOwner, sameMemo])
    rw [← Table.key_of_find? found, ← Table.key_of_find? found', same]

/-- A consumer creates two intents, with memos 7 and 8. -/
def twoMemos : Config (service Sample.deployment) :=
  after (fun _ label => issues Request.givesCanonicalMemo label)
    (Sample.create 0 "alice" "7" "c" "pi" ++ Sample.create 2 "alice" "8" "d" "pj") Sample.start

theorem memos_agree_of_twoMemos :
    (MatchesItself "7" ∧ Coalesce "7" "7") ∧
      ∃ row row', twoMemos.state.store.find? .paymentIntent "pi" = some row ∧
        twoMemos.state.store.find? .paymentIntent "pj" = some row' ∧
        row.consumerId = row'.consumerId ∧
        Text.numeralValue row.memo ≠ Text.numeralValue row'.memo := by
  have accepted : AcceptedMemo "7" := ⟨by decide +kernel, by decide +kernel⟩
  have canonical : Text.Canonical "7" := by
    decide +kernel
  have run : CanonicalRun (.initial Sample.world) twoMemos :=
    run_after (fun _ _ checked => checked) _ _
  have agree := memos_agree rfl run
  constructor
  · obtain ⟨matching, -, coalesce⟩ :=
      (agree.1 "7" "7" accepted accepted rfl).mpr ⟨canonical, canonical⟩
    exact ⟨matching, coalesce⟩
  · have isOwner : ∀ id ∈ ["pi", "pj"], (twoMemos.state.store.find? .paymentIntent id).map
        PaymentIntent.consumerId = some "c" := by
      decide +kernel
    obtain ⟨row, found, owner⟩ := Option.map_eq_some_iff.mp (isOwner "pi" (by simp))
    obtain ⟨row', found', owner'⟩ := Option.map_eq_some_iff.mp (isOwner "pj" (by simp))
    have sameOwner : row.consumerId = row'.consumerId := owner.trans owner'.symm
    refine ⟨row, row', found, found', sameOwner, fun sameValue => ?_⟩
    have sameId := agree.2 "pi" "pj" row row' found found' sameOwner sameValue
    simp at sameId

/-- A consumer creates two intents for the memo 7, once with leading zeros. -/
def paddedMemo : Config (service Sample.deployment) :=
  after (fun _ label => issues (fun request => !request.deletes) label)
    (Sample.create 0 "alice" "7" "c" "pi" ++ Sample.create 2 "alice" "007" "d" "pj") Sample.start

/-- In general a memo neither matches its own transaction nor stands for its number. -/
theorem not_memos_agree :
    (¬ ∀ memo, AcceptedMemo memo → MatchesItself memo) ∧
      ¬ ∀ first second, AcceptedMemo first → AcceptedMemo second →
        Text.numeralValue first = Text.numeralValue second → Coalesce first second := by
  have accepted : AcceptedMemo "7" := ⟨by decide +kernel, by decide +kernel⟩
  have padded : AcceptedMemo "007" := ⟨by decide +kernel, by decide +kernel⟩
  constructor
  · intro matching
    have canonical := (matchesItself_iff padded).mp (matching "007" padded)
    revert canonical
    decide +kernel
  · intro coalesce
    have shown : ∀ answer ∈ [(0, "7", "pi"), (2, "007", "pj")],
        (answer? paddedMemo answer.1).map (fun answered =>
          (answered.1.consumer.username, answered.1.memo, answered.2.intent.id)) =
            some ("alice", .value answer.2.1, answer.2.2) := by
      decide +kernel
    obtain ⟨⟨creation, view⟩, answered, isFirst⟩ :=
      Option.map_eq_some_iff.mp (shown (0, "7", "pi") (by simp))
    obtain ⟨⟨creation', view'⟩, answered', isSecond⟩ :=
      Option.map_eq_some_iff.mp (shown (2, "007", "pj") (by simp))
    simp only [Prod.mk.injEq] at isFirst isSecond
    have same := coalesce "7" "007" accepted padded (by decide +kernel) Sample.deployment
      Sample.world paddedMemo (run_after (fun _ _ checked => checked) _ _) 0 2 creation creation'
      view view' answered answered' (isFirst.1.trans isSecond.1.symm) isFirst.2.1 isSecond.2.1
    rw [isFirst.2.2, isSecond.2.2] at same
    simp at same

end CosmosPay

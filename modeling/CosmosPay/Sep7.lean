import CosmosPay.Atomicity
import CosmosPay.Contracts.Compositions

/-!
# The URI of a stored intent

A wallet sees the URI only.  Parsing its query gives the payment fields of the stored row,
the message and the callback, each under its own name and each once, whatever characters
they contain.
-/

namespace CosmosPay

open Awaiting Tables PaymentIntents

/-- What stands between the first question mark of a URI and its fragment. -/
def queryOf (uri : String) : String :=
  String.ofList (((uri.toList.dropWhile (· ≠ '?')).drop 1).takeWhile (· ≠ '#'))

namespace PaymentIntent

/-- What the URI of an intent should say, with `none` for what it should leave out. -/
def sep7Params (row : PaymentIntent) : List (String × Option String) :=
  match row.kind with
  | .tx =>
      [("xdr", row.xdr), ("callback", truthy row.callback), ("msg", truthy row.msg)]
  | .pay =>
      [("destination", some row.destination), ("amount", row.amount),
        ("asset_code", if row.asset = "native" then none else some row.asset),
        ("asset_issuer", if row.asset = "native" then none else row.assetIssuer),
        ("memo", some row.memo), ("memo_type", some "MEMO_ID"),
        ("callback", truthy row.callback), ("msg", truthy row.msg)]

/-- The parameters that the URI should have, in order. -/
def parameters (row : PaymentIntent) : Text.QueryParams :=
  row.sep7Params.filterMap fun (name, value) => value.map fun value => (name, value)

/-- The URI says what the row says: each parameter once, and what is not optional is there. -/
structure Described (row : PaymentIntent) : Prop where
  parsed : Text.QueryParams.parse (queryOf row.uri) = some row.parameters
  once : (row.parameters.map Prod.fst).Nodup
  envelope : row.kind = .tx → row.xdr.isSome
  issuer : row.asset ≠ "native" → row.assetIssuer.isSome

theorem parameters_of_terms_eq {first second : PaymentIntent} (same : first.terms = second.terms) :
    first.parameters = second.parameters := by
  change first.terms.parameters = second.terms.parameters
  rw [same]

theorem uri_of_terms_eq {first second : PaymentIntent} (same : first.terms = second.terms) :
    first.uri = second.uri := by
  change first.terms.uri = second.terms.uri
  rw [same]

theorem nodup_parameters (row : PaymentIntent) : (row.parameters.map Prod.fst).Nodup := by
  have listed : (row.sep7Params.map Prod.fst).Nodup := by
    unfold sep7Params
    cases row.kind <;> simp
  refine listed.sublist ?_
  rw [parameters]
  generalize row.sep7Params = params
  induction params with
  | nil => exact List.Sublist.refl _
  | cons param params ih =>
      obtain ⟨name, value⟩ := param
      cases value with
      | none => exact ih.cons name
      | some value => exact ih.cons_cons name

end PaymentIntent

theorem takeWhile_serialize (params : Text.QueryParams) :
    params.serialize.toList.takeWhile (· ≠ '#') = params.serialize.toList := by
  refine List.takeWhile_eq_self_iff.mpr fun char member => ?_
  exact decide_eq_true (Text.plain_of_mem_serialize member).2

theorem queryOf_tx (params : Text.QueryParams) :
    queryOf ("web+stellar:tx?" ++ params.serialize) = params.serialize := by
  rw [queryOf, String.toList_append]
  have query : ("web+stellar:tx?".toList ++ params.serialize.toList).dropWhile (· ≠ '?') =
      '?' :: params.serialize.toList := rfl
  rw [query, List.drop_one, List.tail_cons, takeWhile_serialize, String.ofList_toList]

theorem queryOf_pay (params : Text.QueryParams) :
    queryOf ("web+stellar:pay?" ++ params.serialize) = params.serialize := by
  rw [queryOf, String.toList_append]
  have query : ("web+stellar:pay?".toList ++ params.serialize.toList).dropWhile (· ≠ '?') =
      '?' :: params.serialize.toList := rfl
  rw [query, List.drop_one, List.tail_cons, takeWhile_serialize, String.ofList_toList]

/-! ## What is inserted -/

section Insertions

variable {deployment : Deployment}

/-- An issuer that `resolveAsset` settles on is not empty. -/
theorem truthy_issuer_of_resolveAsset {assetCode assetIssuer : Field String}
    {asset : ResolvedAsset}
    (resolved : resolveAsset deployment assetCode assetIssuer = .ok asset) :
    truthy asset.issuer = asset.issuer := by
  simp only [resolveAsset] at resolved
  split at resolved
  · obtain rfl := Except.ok.inj resolved
    rfl
  · split at resolved
    · obtain rfl := Except.ok.inj resolved
      rfl
    · split at resolved
      · cases resolved
      · rename_i code _ _ _ issuer given
        cases made : deployment.libraries.newAsset code issuer with
        | error err =>
            rw [made] at resolved
            cases resolved
        | ok asset =>
            rw [made] at resolved
            obtain rfl := Except.ok.inj resolved
            exact truthy_eq_some.mpr ⟨rfl, (truthy_eq_some.mp given).2⟩

/-- An admitted amount is not empty. -/
theorem truthy_amount {amount : Field String} (admitted : amount.Admits IsAmount) :
    truthy amount.toOption = amount.toOption := by
  cases amount with
  | value given =>
      refine truthy_eq_some.mpr ⟨rfl, ?_⟩
      rintro rfl
      obtain ⟨digits, places, isDecimal, -⟩ := admitted
      cases isDecimal
  | _ => rfl

/-- A composed row says in its URI what it says in its columns. -/
theorem Composes.uri {request : Request} {new : NewPaymentIntent}
    (composes : Composes deployment request new)
    (admitted : Request.Admitted deployment.libraries request) (id : String) (createdAt : Nat) :
    Text.QueryParams.parse (queryOf new.uri) =
      some (PaymentIntent.parameters (Model.make .paymentIntent new id createdAt)) := by
  cases composes with
  | tx consumer dto owner asset memo xdr expiresAt envelope resolved amount built =>
      have query : queryOf ("web+stellar:tx?" ++
          (appendSep7Extras [("xdr", xdr)] dto.msg dto.callback).serialize) =
            sep7Query [("xdr", some xdr), ("callback", truthy dto.callback.toOption),
              ("msg", truthy dto.msg.toOption)] := by
        rw [txUri_eq]
        exact queryOf_tx _
      rw [txIntent, query]
      exact Text.parse_serialize _
  | pay consumer dto owner asset memo expiresAt resolved =>
      have query : queryOf ("web+stellar:pay?" ++ (payParams dto asset memo).serialize) =
          sep7Query (PaymentIntent.sep7Params (Model.make .paymentIntent
            (payIntent deployment consumer owner asset memo expiresAt dto) id createdAt)) := by
        rw [payUri_eq]
        delta payUri
        rw [truthy_amount admitted.2.1, truthy_issuer_of_resolveAsset resolved]
        exact queryOf_pay _
      have same : queryOf (payIntent deployment consumer owner asset memo expiresAt dto).uri =
          queryOf ("web+stellar:pay?" ++ (payParams dto asset memo).serialize) := rfl
      rw [same, query]
      exact Text.parse_serialize _

end Insertions

/-! ## What is stored -/

/-- In every reachable configuration the URI of every stored intent says what the row says. -/
theorem uri_describes {deployment : Deployment} {state : World}
    {config : Config (service deployment)} (start : state.store = .empty)
    (run : AdmittedRun (Config.initial state) config) {id : String} {row : PaymentIntent}
    (found : config.state.store.find? .paymentIntent id = some row) : row.Described := by
  have wellFormed := wellFormed_of_stored run start found
  obtain ⟨maker, inserted⟩ := inserted_of_stored run (by simp [start, Store.empty]) found
  obtain ⟨request, code, new, drawn, createdAt, lookup, composes, sameTerms⟩ :=
    inserted.composed run
  have parsed := composes.uri (run.admitted lookup) drawn createdAt
  have uris : new.uri = row.uri := PaymentIntent.uri_of_terms_eq sameTerms
  rw [uris, PaymentIntent.parameters_of_terms_eq sameTerms] at parsed
  refine ⟨parsed, row.nodup_parameters, fun isTx => (wellFormed.tx isTx).2.2, fun isIssued => ?_⟩
  exact Option.isSome_iff_ne_none.mpr fun none => isIssued (wellFormed.asset.mpr none)

/-- A message and a callback that look like parameters. -/
def Sample.trickyDto : CreatePayPaymentIntentDto :=
  { Sample.payDto "7" with msg := .value "50%+1 ✓&amount=1", callback := .value "url:x?msg=a#b" }

/-- The PAY intent of that request. -/
def trickyIntent : Config (service Sample.deployment) :=
  after (fun _ label => decide (IssuesAdmitted label))
    [.issue (.paymentIntents (.createPay (Sample.caller "alice") Sample.trickyDto)),
      .resume 0 (.draw "c"), .resume 0 .serve, .resume 0 .serve, .resume 0 (.draw "pi")]
    Sample.start

theorem uri_describes_of_trickyIntent :
    ∃ row, trickyIntent.state.store.find? .paymentIntent "pi" = some row ∧ row.Described ∧
      row.parameters.getLast? = some ("msg", "50%+1 ✓&amount=1") := by
  have shown : (trickyIntent.state.store.find? .paymentIntent "pi").map
      (fun row => row.parameters.getLast?) = some (some ("msg", "50%+1 ✓&amount=1")) := by
    decide +kernel
  obtain ⟨row, found, isLast⟩ := Option.map_eq_some_iff.mp shown
  have run : AdmittedRun Sample.start trickyIntent :=
    run_after (fun _ _ admitted => of_decide_eq_true admitted) _ _
  exact ⟨row, found, uri_describes rfl run found, isLast⟩

end CosmosPay

import CosmosPay.Guards

/-!
# Who reaches a handler

The middleware and the two guards together decide what one sentence says: the secret is the
configured one, the consumer is named, and every required scope is granted, unless the key is
an admin's.
-/

namespace CosmosPay

open Text (trim toLowerCase Json Trimmed)

/-! ## What the headers say -/

/-- The scopes that a trimmed permissions header grants. -/
inductive Grants (text : String) : List String → Prop where
  | array {elements : List Json} (bracket : text.toList.head? = some '[')
      (denotes : Json.Denotes text (.array elements)) :
      Grants text (elements.filterMap Json.text?)
  | malformed (bracket : text.toList.head? = some '[')
      (noArray : ∀ elements, ¬ Json.Denotes text (.array elements)) : Grants text []
  | items (noBracket : text.toList.head? ≠ some '[') :
      Grants text (((text.toList.splitOn ',').map fun item => trim (String.ofList item)).filter
        (· ≠ ""))

/-- The specification of the pipeline. -/
structure Authorized (config : ApisixConfig) (headers : Headers) (required : List String) :
    Prop where
  genuine : ∃ provided, headers config.gatewaySecretHeader = some provided ∧
    provided.toUTF8 = config.gatewaySecret.toUTF8
  identified : ∃ name, headers config.consumerHeader = some name ∧ trim name ≠ ""
  permitted : required = [] ∨
    (∃ role, headers config.roleHeader = some role ∧ toLowerCase (trim role) = "admin") ∨
    ∃ scopes, Grants (trim ((headers config.permissionsHeader).getD "")) scopes ∧
      ∀ scope ∈ required, scope ∈ scopes

section Middleware

open ApisixContextMiddleware

variable {config : ApisixConfig} {headers : Headers}

theorem firstHeader_eq_some {name value : String} :
    firstHeader headers name = some value ↔
      ∃ raw, headers name = some raw ∧ trim raw = value ∧ value ≠ "" := by
  simp only [firstHeader, truthy_eq_some, Option.map_eq_some_iff]
  constructor
  · rintro ⟨⟨raw, found, isValue⟩, nonempty⟩
    exact ⟨raw, found, isValue, nonempty⟩
  · rintro ⟨raw, found, isValue, nonempty⟩
    exact ⟨⟨raw, found, isValue⟩, nonempty⟩

theorem parseRole_eq_admin {raw : Option String} :
    parseRole raw = some .admin ↔ ∃ role, truthy raw = some role ∧ toLowerCase role = "admin" := by
  simp only [parseRole, Option.map_eq_some_iff]
  refine exists_congr fun role => and_congr_right fun _ => ?_
  split <;> simp [*]

theorem parseRole_firstHeader {name : String} :
    parseRole (firstHeader headers name) = some .admin ↔
      ∃ role, headers name = some role ∧ toLowerCase (trim role) = "admin" := by
  simp only [parseRole_eq_admin, truthy_eq_some, firstHeader_eq_some]
  constructor
  · rintro ⟨_, ⟨⟨role, given, rfl, -⟩, -⟩, isAdmin⟩
    exact ⟨role, given, isAdmin⟩
  · rintro ⟨role, given, isAdmin⟩
    have nonempty : trim role ≠ "" := by
      intro blank
      rw [blank] at isAdmin
      exact absurd isAdmin (by decide)
    exact ⟨_, ⟨⟨role, given, rfl, nonempty⟩, nonempty⟩, isAdmin⟩

/-- `JSON.parse` and the check for an array. -/
theorem grants_parseArray {text : String} (bracket : text.toList.head? = some '[') :
    Grants text (parseArray text) := by
  unfold parseArray
  split
  · rename_i elements parsed
    exact .array bracket (Json.parse_eq_some.mp parsed)
  · rename_i noArray
    exact .malformed bracket fun elements denotes =>
      noArray elements (Json.parse_eq_some.mpr denotes)

/-- A header grants one list of scopes. -/
theorem Grants.unique {text : String} {scopes others : List String} (grants : Grants text scopes)
    (grantsOthers : Grants text others) : scopes = others := by
  cases grants with
  | array bracket denotes =>
      cases grantsOthers with
      | array _ denotesOthers =>
          have same := (Json.parse_eq_some.mpr denotes).symm.trans
            (Json.parse_eq_some.mpr denotesOthers)
          simp only [Option.some.injEq, Json.array.injEq] at same
          rw [same]
      | malformed _ noArray => exact absurd denotes (noArray _)
      | items noBracket => exact absurd bracket noBracket
  | malformed bracket noArray =>
      cases grantsOthers with
      | array _ denotes => exact absurd denotes (noArray _)
      | malformed _ _ => rfl
      | items noBracket => exact absurd bracket noBracket
  | items noBracket =>
      cases grantsOthers with
      | array bracket _ => exact absurd bracket noBracket
      | malformed bracket _ => exact absurd bracket noBracket
      | items _ => rfl

theorem grants_blank : Grants "" [] := by
  have noBracket : "".toList.head? ≠ some '[' := by decide
  have items := Grants.items noBracket
  have blank : ("".toList.splitOn ',').map (fun item => trim (String.ofList item)) = [""] := by
    decide
  rw [blank] at items
  exact items

/-- The middleware reads the scopes that the header grants. -/
theorem grants_parsePermissions (name : String) :
    Grants (trim ((headers name).getD "")) (parsePermissions (firstHeader headers name)) := by
  cases found : firstHeader headers name with
  | none =>
      have blank : trim ((headers name).getD "") = "" := by
        cases raw : headers name with
        | none => rfl
        | some value =>
            by_contra nonblank
            have shown := firstHeader_eq_some.mpr ⟨value, raw, rfl, nonblank⟩
            rw [found] at shown
            cases shown
      rw [blank]
      exact grants_blank
  | some value =>
      obtain ⟨raw, given, isValue, nonempty⟩ := firstHeader_eq_some.mp found
      have again : trim value = value := by rw [← isValue, Text.trim_trim]
      rw [given, Option.getD_some, isValue]
      simp only [parsePermissions, truthy_eq_some.mpr ⟨rfl, nonempty⟩, again]
      split
      · rename_i bracket
        exact grants_parseArray bracket
      · rename_i noBracket
        exact .items noBracket

theorem exists_grants_iff {name : String} {P : List String → Prop} :
    (∃ scopes, Grants (trim ((headers name).getD "")) scopes ∧ P scopes) ↔
      P (parsePermissions (firstHeader headers name)) := by
  constructor
  · rintro ⟨scopes, grants, holds⟩
    rwa [← grants.unique (grants_parsePermissions name)]
  · exact fun holds => ⟨_, grants_parsePermissions name, holds⟩

theorem use_eq_none : use config headers = none ↔
    ¬ ∃ name, headers config.consumerHeader = some name ∧ trim name ≠ "" := by
  simp only [use, Option.map_eq_none_iff]
  constructor
  · rintro absent ⟨name, given, nonblank⟩
    rw [firstHeader_eq_some.mpr ⟨name, given, rfl, nonblank⟩] at absent
    cases absent
  · intro blank
    cases found : firstHeader headers config.consumerHeader with
    | none => rfl
    | some value =>
        obtain ⟨raw, given, rfl, nonempty⟩ := firstHeader_eq_some.mp found
        exact absurd ⟨raw, given, nonempty⟩ blank

theorem use_eq_some {consumer : GatewayConsumer} (found : use config headers = some consumer) :
    consumer.username ≠ "" ∧
      consumer.role = parseRole (firstHeader headers config.roleHeader) ∧
      consumer.permissions = parsePermissions (firstHeader headers config.permissionsHeader) := by
  obtain ⟨username, named, rfl⟩ := Option.map_eq_some_iff.mp found
  obtain ⟨raw, -, -, nonempty⟩ := firstHeader_eq_some.mp named
  exact ⟨nonempty, rfl, rfl⟩

end Middleware

/-! ## The guards -/

section Guards

variable {config : ApisixConfig} {headers : Headers} {route : Route}

theorem hasValidSecret_eq (headers : Headers) (configured : config.gatewaySecret ≠ "") :
    ∃ valid, ApisixGuard.hasValidSecret config headers = .ok valid ∧
      (valid = true ↔ ∃ provided, headers config.gatewaySecretHeader = some provided ∧
        provided.toUTF8 = config.gatewaySecret.toUTF8) := by
  have nonempty : config.gatewaySecret.toUTF8.size ≠ 0 := by
    intro empty
    exact configured (String.utf8ByteSize_eq_zero_iff.mp empty)
  simp only [ApisixGuard.hasValidSecret, if_neg nonempty]
  cases given : truthy (headers config.gatewaySecretHeader) with
  | none =>
      refine ⟨false, rfl, iff_of_false Bool.false_ne_true ?_⟩
      rintro ⟨provided, found, same⟩
      have isText : provided ≠ "" := by
        rintro rfl
        exact nonempty (same ▸ rfl)
      rw [truthy_eq_some.mpr ⟨found, isText⟩] at given
      cases given
  | some provided =>
      obtain ⟨found, -⟩ := truthy_eq_some.mp given
      simp only [found, Option.some.injEq, exists_eq_left']
      split
      · rename_i differ
        exact ⟨false, rfl, iff_of_false Bool.false_ne_true fun same => differ (same ▸ rfl)⟩
      · exact ⟨_, rfl, decide_eq_true_iff⟩

/-- The first guard lets a request pass that comes through the gateway and names a
consumer. -/
theorem apisixGuard_eq_ok (configured : config.gatewaySecret ≠ "")
    (isPrivate : route.isPublic = false) {consumer : Option GatewayConsumer} {answer : Bool} :
    ApisixGuard.canActivate config route headers consumer = .ok answer ↔
      answer = true ∧
      (∃ provided, headers config.gatewaySecretHeader = some provided ∧
        provided.toUTF8 = config.gatewaySecret.toUTF8) ∧
      ∃ found, consumer = some found ∧ found.username ≠ "" := by
  obtain ⟨valid, isValid, genuine⟩ := hasValidSecret_eq headers configured
  rw [← genuine]
  simp only [ApisixGuard.canActivate, isPrivate, isValid]
  cases valid with
  | false => simp [bind, Except.bind, throw, throwThe, MonadExceptOf.throw]
  | true =>
      cases named : truthy (consumer.map GatewayConsumer.username) with
      | none =>
          have unnamed : ¬ ∃ found, consumer = some found ∧ found.username ≠ "" := by
            rintro ⟨found, rfl, nonempty⟩
            rw [Option.map_some, truthy_eq_some.mpr ⟨rfl, nonempty⟩] at named
            cases named
          simp [bind, Except.bind, throw, throwThe, MonadExceptOf.throw, unnamed]
      | some username =>
          obtain ⟨isName, nonempty⟩ := truthy_eq_some.mp named
          obtain ⟨found, rfl, rfl⟩ := Option.map_eq_some_iff.mp isName
          constructor
          · intro passed
            exact ⟨(Except.ok.inj passed).symm, rfl, found, rfl, nonempty⟩
          · rintro ⟨rfl, -⟩
            rfl

theorem ok_true_eq_ok {answer : Bool} :
    (Except.ok true : Except ServiceError Bool) = .ok answer ↔ answer = true := by
  cases answer <;> simp

/-- The second guard lets a request pass whose key has the required scopes. -/
theorem permissionsGuard_eq_ok (isPrivate : route.isPublic = false)
    {consumer : Option GatewayConsumer} {answer : Bool} :
    PermissionsGuard.canActivate route consumer = .ok answer ↔
      answer = true ∧ (route.required.getD [] = [] ∨ ∃ found, consumer = some found ∧
        (found.role = some .admin ∨
          ∀ scope ∈ route.required.getD [], scope ∈ found.permissions)) := by
  simp only [PermissionsGuard.canActivate, isPrivate, Bool.false_eq_true, if_false]
  generalize route.required.getD [] = required
  cases required with
  | nil => simp
  | cons scope scopes =>
      cases consumer with
      | none => simp
      | some found =>
          have missing : ((scope :: scopes).filter fun wanted =>
              !found.permissions.contains wanted).isEmpty = true ↔
                ∀ wanted ∈ scope :: scopes, wanted ∈ found.permissions := by
            simp [List.isEmpty_iff, List.filter_eq_nil_iff]
          simp only [List.isEmpty_cons, Bool.false_eq_true, if_false, Option.some.injEq,
            exists_eq_left', ← missing, reduceCtorEq, false_or]
          by_cases isAdmin : found.role = some .admin
          · simp only [isAdmin, if_true, ok_true_eq_ok, true_or, and_true]
          · rw [if_neg isAdmin]
            split
            · rename_i granted
              simp only [ok_true_eq_ok, granted, or_true, and_true]
            · rename_i refused
              simp only [reduceCtorEq, isAdmin, refused, or_self, and_false]

/-- Both guards have to let the request pass. -/
theorem guards_eq_ok {first second : Except ServiceError Bool} {err err' : ServiceError} :
    (do
      if !(← first) then throw err
      if !(← second) then throw err' : Except ServiceError Unit) = .ok () ↔
      first = .ok true ∧ second = .ok true := by
  cases first with
  | error err => simp [bind, Except.bind]
  | ok answer =>
      cases answer with
      | false => simp [bind, Except.bind, throw, throwThe, MonadExceptOf.throw]
      | true =>
          cases second with
          | error err => simp [bind, Except.bind]
          | ok answer =>
              cases answer <;>
                simp [bind, Except.bind, throw, throwThe, MonadExceptOf.throw, pure, Except.pure]

/-- The pipeline lets exactly the authorized requests through. -/
theorem reachHandler_eq_ok (configured : config.gatewaySecret ≠ "")
    (isPrivate : route.isPublic = false) :
    reachHandler config route headers = .ok () ↔
      Authorized config headers (route.required.getD []) := by
  refine guards_eq_ok.trans ?_
  rw [apisixGuard_eq_ok configured isPrivate, permissionsGuard_eq_ok isPrivate]
  cases named : ApisixContextMiddleware.use config headers with
  | none =>
      have unnamed := use_eq_none.mp named
      constructor
      · rintro ⟨⟨-, -, found, isFound, -⟩, -⟩
        cases isFound
      · rintro ⟨-, identified, -⟩
        exact absurd identified unnamed
  | some consumer =>
      obtain ⟨nonempty, isRole, arePermissions⟩ := use_eq_some named
      have identified : ∃ name, headers config.consumerHeader = some name ∧ trim name ≠ "" := by
        by_contra unnamed
        rw [use_eq_none.mpr unnamed] at named
        cases named
      have role : consumer.role = some .admin ↔ ∃ role, headers config.roleHeader = some role ∧
          toLowerCase (trim role) = "admin" := by
        rw [isRole, parseRole_firstHeader]
      have granted : (∃ scopes, Grants (trim ((headers config.permissionsHeader).getD "")) scopes ∧
            ∀ scope ∈ route.required.getD [], scope ∈ scopes) ↔
          ∀ scope ∈ route.required.getD [], scope ∈ consumer.permissions := by
        rw [arePermissions]
        exact exists_grants_iff
      simp only [Option.some.injEq, exists_eq_left', true_and, role, ← granted]
      constructor
      · rintro ⟨⟨genuine, -⟩, permitted⟩
        exact ⟨genuine, identified, permitted⟩
      · rintro ⟨genuine, -, permitted⟩
        exact ⟨⟨genuine, nonempty⟩, permitted⟩

end Guards

/-! ## Two ways to write a list of scopes -/

section Forms

open ApisixContextMiddleware

/-- Letters, digits, `:.-_`, and whatever else has no meaning in either form. -/
def isPlain (char : Char) : Bool :=
  !Text.isSpace char && char ∉ [',', '[']

/-- `scopes.join(',')` -/
def commaForm (scopes : List String) : String :=
  ",".intercalate scopes

/-- A list of scopes that have a name each. -/
structure PlainScopes (scopes : List String) : Prop where
  nonempty : "" ∉ scopes
  plain : ∀ scope ∈ scopes, ∀ char ∈ scope.toList, isPlain char = true

/-- The scopes that a permissions header with this value grants. -/
def grantedBy (value : String) : List String :=
  parsePermissions (truthy (some (trim value)))

theorem parsePermissions_firstHeader {headers : Headers} {name value : String}
    (given : headers name = some value) :
    parsePermissions (firstHeader headers name) = grantedBy value := by
  rw [firstHeader, given, Option.map_some, grantedBy]

theorem grantedBy_of_trimmed {value : String} (nonempty : value ≠ "")
    (trimmed : Trimmed value.toList) : grantedBy value =
      if value.toList.head? = some '[' then parseArray value else parseItems value := by
  have same := Text.trim_eq_self trimmed
  have given : truthy (some value) = some value := truthy_eq_some.mpr ⟨rfl, nonempty⟩
  simp only [grantedBy, parsePermissions, same, given]

/-- The JSON form grants the scopes that it lists. -/
theorem grantedBy_stringify (scopes : List String) :
    grantedBy (Json.stringify scopes) = scopes := by
  have bracket : (Json.stringify scopes).toList.head? = some '[' := by
    simp [Json.stringify]
  have trimmed : Trimmed (Json.stringify scopes).toList := by
    constructor
    · intro char isHead
      rw [bracket] at isHead
      obtain rfl := Option.some.inj isHead
      decide
    · intro char isLast
      have close : (Json.stringify scopes).toList.getLast? = some ']' := by
        rw [Json.stringify, String.toList_ofList, List.getLast?_concat]
      rw [close] at isLast
      obtain rfl := Option.some.inj isLast
      decide
  have nonempty : Json.stringify scopes ≠ "" := by
    intro empty
    rw [empty] at bracket
    cases bracket
  rw [grantedBy_of_trimmed nonempty trimmed, if_pos bracket, parseArray, Json.parse_stringify]
  simp only [List.filterMap_map, Function.comp_def, Json.text?_ofString, List.filterMap_some]

/-- What stands in the comma form. -/
theorem mem_commaForm {scopes : List String} {char : Char}
    (member : char ∈ (commaForm scopes).toList) :
    char = ',' ∨ ∃ scope ∈ scopes, char ∈ scope.toList := by
  rw [commaForm, String.toList_intercalate] at member
  induction scopes with
  | nil => simp at member
  | cons first scopes ih =>
      cases scopes with
      | nil => exact .inr ⟨first, List.mem_singleton_self first, by simpa using member⟩
      | cons second scopes =>
          simp only [List.map_cons, List.intercalate_cons_cons, List.mem_append] at member ih
          rcases member with (own | comma) | rest
          · exact .inr ⟨first, List.mem_cons_self, own⟩
          · exact .inl (by simpa using comma)
          · rcases ih rest with comma | ⟨scope, listed, inScope⟩
            · exact .inl comma
            · exact .inr ⟨scope, List.mem_cons_of_mem first listed, inScope⟩

theorem trimmed_of_forall {chars : List Char} (text : ∀ char ∈ chars, Text.isSpace char = false) :
    Trimmed chars :=
  ⟨fun char isHead => text char (List.mem_of_mem_head? isHead),
    fun char isLast => text char (List.mem_of_mem_getLast? isLast)⟩

/-- The comma form grants the scopes that it lists, if each has a name. -/
theorem grantedBy_commaForm {scopes : List String} (plain : PlainScopes scopes) :
    grantedBy (commaForm scopes) = scopes := by
  have isText : ∀ scope ∈ scopes, ∀ char ∈ scope.toList,
      Text.isSpace char = false ∧ char ≠ ',' ∧ char ≠ '[' := by
    intro scope listed char inScope
    simpa [isPlain] using plain.plain scope listed char inScope
  have inForm : ∀ char ∈ (commaForm scopes).toList, Text.isSpace char = false ∧ char ≠ '[' := by
    intro char member
    rcases mem_commaForm member with rfl | ⟨scope, listed, inScope⟩
    · decide
    · exact ⟨(isText scope listed char inScope).1, (isText scope listed char inScope).2.2⟩
  cases scopes with
  | nil => decide
  | cons first rest =>
      have noBracket : (commaForm (first :: rest)).toList.head? ≠ some '[' := fun bracket =>
        (inForm '[' (List.mem_of_mem_head? bracket)).2 rfl
      have trimmed := trimmed_of_forall fun char member => (inForm char member).1
      have items : (commaForm (first :: rest)).toList.splitOn ',' =
          (first :: rest).map String.toList := by
        rw [commaForm, String.toList_intercalate]
        refine List.splitOn_intercalate ',' ?_ (by simp)
        intro chars member
        obtain ⟨scope, listed, rfl⟩ := List.mem_map.mp member
        exact fun inScope => (isText scope listed ',' inScope).2.1 rfl
      have nonempty : commaForm (first :: rest) ≠ "" := by
        intro blank
        rw [blank] at items
        have isBlank : [] = first.toList := (List.cons.inj items).1
        refine plain.nonempty ?_
        rw [← String.toList_eq_nil_iff.mp isBlank.symm]
        exact List.mem_cons_self
      have trimmedItems : ∀ scope ∈ first :: rest, trim scope = scope := fun scope listed =>
        Text.trim_eq_self
          (trimmed_of_forall fun char inScope => (isText scope listed char inScope).1)
      rw [grantedBy_of_trimmed nonempty trimmed, if_neg noBracket, parseItems, items, List.map_map]
      have kept : (first :: rest).map ((fun item => trim (String.ofList item)) ∘ String.toList) =
          first :: rest := by
        refine (List.map_congr_left fun scope listed => ?_).trans (List.map_id _)
        simp [trimmedItems scope listed]
      rw [kept, List.filter_eq_self]
      intro scope listed
      have named : scope ≠ "" := fun blank => plain.nonempty (blank ▸ listed)
      simpa using named

/-- Letters, digits and `:.-_` are plain. -/
theorem isPlain_of_isAlphanum {char : Char}
    (isName : char.isAlphanum = true ∨ char ∈ [':', '.', '-', '_']) : isPlain char = true := by
  rcases isName with alphanum | mark
  · have range : 48 ≤ char.toNat ∧ char.toNat ≤ 57 ∨ 65 ≤ char.toNat ∧ char.toNat ≤ 90 ∨
        97 ≤ char.toNat ∧ char.toNat ≤ 122 := by
      simp only [Char.isAlphanum, Char.isAlpha, Char.isUpper, Char.isLower, Char.isDigit,
        Bool.or_eq_true, Bool.and_eq_true, decide_eq_true_eq, ge_iff_le,
        UInt32.le_iff_toNat_le] at alphanum
      change ((65 ≤ char.toNat ∧ char.toNat ≤ 90) ∨ 97 ≤ char.toNat ∧ char.toNat ≤ 122) ∨
        48 ≤ char.toNat ∧ char.toNat ≤ 57 at alphanum
      omega
    have noSpace : Text.isSpace char = false := by
      simp only [Text.isSpace, List.mem_cons, List.not_mem_nil, or_false, Bool.or_eq_false_iff,
        Bool.and_eq_false_iff, decide_eq_false_iff_not]
      omega
    have noMark : char ∉ [',', '['] := by
      simp only [List.mem_cons, List.not_mem_nil, or_false]
      rintro (rfl | rfl) <;> revert range <;> decide
    simp [isPlain, noSpace, noMark]
  · simp only [List.mem_cons, List.not_mem_nil, or_false] at mark
    rcases mark with rfl | rfl | rfl | rfl <;> decide

end Forms

open ApisixContextMiddleware in
/-- The pipeline reaches the handler of a private route exactly with an authorized request,
and it reads the same scopes off both forms of a list of named scopes. -/
theorem pipeline_authorizes (config : ApisixConfig) (configured : config.gatewaySecret ≠ "") :
    (∀ route headers, route.isPublic = false →
      (reachHandler config route headers = .ok () ↔
        Authorized config headers (route.required.getD []))) ∧
    ∀ scopes headers headers', PlainScopes scopes →
      headers config.permissionsHeader = some (Json.stringify scopes) →
      headers' config.permissionsHeader = some (commaForm scopes) → ∀ scope,
        scope ∈ parsePermissions (firstHeader headers config.permissionsHeader) ↔
          scope ∈ parsePermissions (firstHeader headers' config.permissionsHeader) := by
  refine ⟨fun route headers isPrivate => reachHandler_eq_ok configured isPrivate, ?_⟩
  intro scopes headers headers' plain isJson isComma scope
  rw [parsePermissions_firstHeader isJson, parsePermissions_firstHeader isComma,
    grantedBy_stringify, grantedBy_commaForm plain]

namespace Sample

def apisix : ApisixConfig where
  gatewaySecret := "s3cret"
  gatewaySecretHeader := "x-gateway-secret"
  consumerHeader := "x-consumer-username"
  credentialHeader := "x-credential-identifier"
  environmentHeader := "x-consumer-env"
  roleHeader := "x-consumer-role"
  permissionsHeader := "x-consumer-permissions"

def readRoute : Route where
  isPublic := false
  required := some ["payments:read"]

/-- The headers of a user key with these permissions. -/
def userHeaders (permissions : String) : Headers :=
  fun name => [("x-gateway-secret", "s3cret"), ("x-consumer-username", " alice "),
    ("x-consumer-role", "user"), ("x-consumer-permissions", permissions)].lookup name

end Sample

open ApisixContextMiddleware in
theorem pipeline_authorizes_userHeaders :
    Authorized Sample.apisix (Sample.userHeaders "payments:write, payments:read")
        ["payments:read"] ∧
      ¬ Authorized Sample.apisix (Sample.userHeaders "[\"payments:read\",") ["payments:read"] ∧
      ∀ scope,
        scope ∈ parsePermissions (firstHeader (Sample.userHeaders
            (Json.stringify ["payments:read"])) Sample.apisix.permissionsHeader) ↔
          scope ∈ parsePermissions (firstHeader (Sample.userHeaders
            (commaForm ["payments:read"])) Sample.apisix.permissionsHeader) := by
  have configured : Sample.apisix.gatewaySecret ≠ "" := by decide
  have plain : PlainScopes ["payments:read"] := by
    refine ⟨by decide, fun scope listed char inScope => ?_⟩
    obtain rfl := List.mem_singleton.mp listed
    have names : "payments:read".toList.all
        (fun char => char.isAlphanum || char ∈ [':', '.', '-', '_']) = true := by decide
    refine isPlain_of_isAlphanum ?_
    simpa using List.all_eq_true.mp names char inScope
  obtain ⟨authorizes, grants⟩ := pipeline_authorizes Sample.apisix configured
  refine ⟨(authorizes Sample.readRoute _ rfl).mp (by decide +kernel), fun authorized => ?_,
    grants _ _ _ plain rfl rfl⟩
  have reached := (authorizes Sample.readRoute _ rfl).mpr authorized
  revert reached
  decide +kernel

open ApisixContextMiddleware in
/-- A scope without a name is granted by the JSON form only. -/
theorem not_pipeline_authorizes :
    ¬ ∀ (config : ApisixConfig) (scopes : List String) (headers headers' : Headers),
      (∀ scope ∈ scopes, ∀ char ∈ scope.toList,
        char.isAlphanum = true ∨ char ∈ [':', '.', '-', '_']) →
      headers config.permissionsHeader = some (Json.stringify scopes) →
      headers' config.permissionsHeader = some (commaForm scopes) → ∀ scope,
        scope ∈ parsePermissions (firstHeader headers config.permissionsHeader) ↔
          scope ∈ parsePermissions (firstHeader headers' config.permissionsHeader) := by
  intro same
  have isJson : Sample.userHeaders (Json.stringify [""]) Sample.apisix.permissionsHeader =
      some (Json.stringify [""]) := rfl
  have isComma : Sample.userHeaders (commaForm [""]) Sample.apisix.permissionsHeader =
      some (commaForm [""]) := rfl
  have letters : ∀ scope ∈ [""], ∀ char ∈ scope.toList,
      char.isAlphanum = true ∨ char ∈ [':', '.', '-', '_'] := by
    intro scope listed char inScope
    obtain rfl := List.mem_singleton.mp listed
    cases inScope
  have both := same Sample.apisix [""] _ _ letters isJson isComma ""
  rw [parsePermissions_firstHeader isJson, parsePermissions_firstHeader isComma,
    grantedBy_stringify] at both
  have granted := both.mp (List.mem_singleton_self "")
  revert granted
  decide

end CosmosPay

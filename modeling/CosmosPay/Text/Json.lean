import Mathlib.Data.List.Basic
import Mathlib.Data.List.Flatten

/-!
# JSON texts

`JSON.parse` by recursive descent.  A string is a list of UTF-16 code units, since an
escape may name half of a surrogate pair; the value of a number is left out.

`Derives` says which texts a value has, without any bound on the depth.  The parser
accepts exactly these, and it reads a printed list of strings back.
-/

namespace Text

/-! ## UTF-16 -/

/-- The code units of a character. -/
def utf16 (char : Char) : List Nat :=
  if char.toNat < 0x10000 then [char.toNat]
  else [0xD800 + (char.toNat - 0x10000) / 0x400, 0xDC00 + (char.toNat - 0x10000) % 0x400]

def isSurrogate (unit : Nat) : Bool :=
  0xD800 ≤ unit && unit < 0xE000

/-- The text of code units, unless a surrogate stands alone. -/
def decodeUtf16 : List Nat → Option (List Char)
  | [] => some []
  | [unit] => if isSurrogate unit then none else some [Char.ofNat unit]
  | unit :: next :: units =>
      if isSurrogate unit then
        if unit < 0xDC00 ∧ 0xDC00 ≤ next ∧ next < 0xE000 then
          (decodeUtf16 units).map
            (Char.ofNat (0x10000 + (unit - 0xD800) * 0x400 + (next - 0xDC00)) :: ·)
        else none
      else (decodeUtf16 (next :: units)).map (Char.ofNat unit :: ·)

theorem decodeUtf16_cons {unit : Nat} (scalar : isSurrogate unit = false) (units : List Nat) :
    decodeUtf16 (unit :: units) = (decodeUtf16 units).map (Char.ofNat unit :: ·) := by
  cases units with
  | nil => simp [decodeUtf16, scalar]
  | cons next units => simp [decodeUtf16, scalar]

theorem decodeUtf16_utf16_append (char : Char) (units : List Nat) :
    decodeUtf16 (utf16 char ++ units) = (decodeUtf16 units).map (char :: ·) := by
  have valid : char.toNat < 0xD800 ∨ 0xDFFF < char.toNat ∧ char.toNat < 0x110000 := char.valid
  unfold utf16
  split
  · have scalar : isSurrogate char.toNat = false := by
      simp only [isSurrogate, Bool.and_eq_false_iff, decide_eq_false_iff_not]
      omega
    rw [List.singleton_append, decodeUtf16_cons scalar, Char.ofNat_toNat]
  · rename_i large
    have high : isSurrogate (0xD800 + (char.toNat - 0x10000) / 0x400) = true := by
      simp only [isSurrogate, Bool.and_eq_true, decide_eq_true_eq]
      omega
    have pair : 0xD800 + (char.toNat - 0x10000) / 0x400 < 0xDC00 ∧
        0xDC00 ≤ 0xDC00 + (char.toNat - 0x10000) % 0x400 ∧
        0xDC00 + (char.toNat - 0x10000) % 0x400 < 0xE000 := by
      omega
    have whole : 0x10000 + (0xD800 + (char.toNat - 0x10000) / 0x400 - 0xD800) * 0x400 +
        (0xDC00 + (char.toNat - 0x10000) % 0x400 - 0xDC00) = char.toNat := by
      omega
    simp only [List.cons_append, List.nil_append, decodeUtf16]
    rw [if_pos high, if_pos pair, whole, Char.ofNat_toNat]

theorem decodeUtf16_flatMap (chars : List Char) :
    decodeUtf16 (chars.flatMap utf16) = some chars := by
  induction chars with
  | nil => rfl
  | cons char chars ih => rw [List.flatMap_cons, decodeUtf16_utf16_append, ih, Option.map_some]

/-! ## Values and scanners -/

inductive Json where
  | null
  | bool (value : Bool)
  | number
  | string (units : List Nat)
  | array (elements : List Json)
  | object (members : List (List Nat × Json))

namespace Json

def isBlank (char : Char) : Bool :=
  char = ' ' || char = '\t' || char = '\n' || char = '\r'

def skip (chars : List Char) : List Char :=
  chars.dropWhile isBlank

/-- One digit or more. -/
def digits? : List Char → Option (List Char)
  | char :: rest => if char.isDigit then some (rest.dropWhile Char.isDigit) else none
  | [] => none

def integer? : List Char → Option (List Char)
  | '0' :: rest => some rest
  | chars => digits? chars

def fraction? : List Char → Option (List Char)
  | '.' :: rest => digits? rest
  | chars => some chars

def sign : List Char → List Char
  | '+' :: rest => rest
  | '-' :: rest => rest
  | chars => chars

def exponent? : List Char → Option (List Char)
  | 'e' :: rest => digits? (sign rest)
  | 'E' :: rest => digits? (sign rest)
  | chars => some chars

def number? : List Char → Option (List Char)
  | '-' :: rest => do exponent? (← fraction? (← integer? rest))
  | chars => do exponent? (← fraction? (← integer? chars))

def hexDigit? (char : Char) : Option Nat :=
  if char.isDigit then some (char.toNat - '0'.toNat)
  else if 'a' ≤ char ∧ char ≤ 'f' then some (char.toNat - 'a'.toNat + 10)
  else if 'A' ≤ char ∧ char ≤ 'F' then some (char.toNat - 'A'.toNat + 10)
  else none

def hex4? (first second third fourth : Char) : Option Nat := do
  let first ← hexDigit? first
  let second ← hexDigit? second
  let third ← hexDigit? third
  let fourth ← hexDigit? fourth
  pure (((first * 16 + second) * 16 + third) * 16 + fourth)

def escape? : Char → Option Nat
  | '"' => some 0x22
  | '\\' => some 0x5C
  | '/' => some 0x2F
  | 'b' => some 0x08
  | 'f' => some 0x0C
  | 'n' => some 0x0A
  | 'r' => some 0x0D
  | 't' => some 0x09
  | _ => none

/-- The code units up to the closing quote, and what follows it. -/
def quoted : List Char → Option (List Nat × List Char)
  | [] => none
  | '"' :: rest => some ([], rest)
  | '\\' :: 'u' :: first :: second :: third :: fourth :: rest => do
      let unit ← hex4? first second third fourth
      let (units, rest) ← quoted rest
      pure (unit :: units, rest)
  | '\\' :: char :: rest => do
      let unit ← escape? char
      let (units, rest) ← quoted rest
      pure (unit :: units, rest)
  | char :: rest =>
      if char.toNat < 0x20 ∨ char = '\\' then none
      else do
        let (units, rest) ← quoted rest
        pure (utf16 char ++ units, rest)

/-- A value that is neither an array nor an object. -/
def scalar? : List Char → Option (Json × List Char)
  | 'n' :: 'u' :: 'l' :: 'l' :: rest => some (.null, rest)
  | 't' :: 'r' :: 'u' :: 'e' :: rest => some (.bool true, rest)
  | 'f' :: 'a' :: 'l' :: 's' :: 'e' :: rest => some (.bool false, rest)
  | '"' :: rest => (quoted rest).map fun (units, rest) => (.string units, rest)
  | chars => (number? chars).map fun rest => (.number, rest)

/-- A member's name, and what follows the colon. -/
def name? (chars : List Char) : Option (List Nat × List Char) :=
  match skip chars with
  | '"' :: rest => do
      let (units, rest) ← quoted rest
      match skip rest with
      | ':' :: rest => pure (units, rest)
      | _ => none
  | _ => none

/-! ## The parser -/

mutual

def value? : Nat → List Char → Option (Json × List Char)
  | 0, _ => none
  | fuel + 1, '[' :: rest =>
      match skip rest with
      | ']' :: rest => some (.array [], rest)
      | _ => (elements? fuel rest).map fun (elements, rest) => (.array elements, rest)
  | fuel + 1, '{' :: rest =>
      match skip rest with
      | '}' :: rest => some (.object [], rest)
      | _ => (members? fuel rest).map fun (members, rest) => (.object members, rest)
  | _ + 1, chars => scalar? chars

/-- One element or more, with the closing bracket. -/
def elements? : Nat → List Char → Option (List Json × List Char)
  | 0, _ => none
  | fuel + 1, chars => do
      let (first, rest) ← value? fuel (skip chars)
      match skip rest with
      | ']' :: rest => pure ([first], rest)
      | ',' :: rest => do
          let (others, rest) ← elements? fuel rest
          pure (first :: others, rest)
      | _ => none

/-- One member or more, with the closing brace. -/
def members? : Nat → List Char → Option (List (List Nat × Json) × List Char)
  | 0, _ => none
  | fuel + 1, chars => do
      let (name, rest) ← name? chars
      let (value, rest) ← value? fuel (skip rest)
      match skip rest with
      | '}' :: rest => pure ([(name, value)], rest)
      | ',' :: rest => do
          let (others, rest) ← members? fuel rest
          pure ((name, value) :: others, rest)
      | _ => none

end

/-- `JSON.parse` -/
def parse (text : String) : Option Json := do
  let (value, rest) ← value? text.toList.length (skip text.toList)
  if skip rest = [] then some value else none

/-! ## What the parser accepts -/

inductive Shape where
  | value (value : Json)
  | elements (elements : List Json)
  | members (members : List (List Nat × Json))

/-- The text that begins with the first list and ends before the second has the shape. -/
inductive Derives : Shape → List Char → List Char → Prop where
  | scalar {value : Json} {chars rest : List Char} (scalar : scalar? chars = some (value, rest)) :
      Derives (.value value) chars rest
  | emptyArray {chars rest : List Char} (close : skip chars = ']' :: rest) :
      Derives (.value (.array [])) ('[' :: chars) rest
  | array {elements : List Json} {chars rest : List Char}
      (inner : Derives (.elements elements) chars rest) :
      Derives (.value (.array elements)) ('[' :: chars) rest
  | emptyObject {chars rest : List Char} (close : skip chars = '}' :: rest) :
      Derives (.value (.object [])) ('{' :: chars) rest
  | object {members : List (List Nat × Json)} {chars rest : List Char}
      (inner : Derives (.members members) chars rest) :
      Derives (.value (.object members)) ('{' :: chars) rest
  | lastElement {value : Json} {chars middle rest : List Char}
      (first : Derives (.value value) (skip chars) middle) (close : skip middle = ']' :: rest) :
      Derives (.elements [value]) chars rest
  | element {value : Json} {elements : List Json} {chars middle next rest : List Char}
      (first : Derives (.value value) (skip chars) middle) (comma : skip middle = ',' :: next)
      (others : Derives (.elements elements) next rest) :
      Derives (.elements (value :: elements)) chars rest
  | lastMember {name : List Nat} {value : Json} {chars colon middle rest : List Char}
      (named : name? chars = some (name, colon))
      (first : Derives (.value value) (skip colon) middle) (close : skip middle = '}' :: rest) :
      Derives (.members [(name, value)]) chars rest
  | member {name : List Nat} {value : Json} {members : List (List Nat × Json)}
      {chars colon middle next rest : List Char} (named : name? chars = some (name, colon))
      (first : Derives (.value value) (skip colon) middle) (comma : skip middle = ',' :: next)
      (others : Derives (.members members) next rest) :
      Derives (.members ((name, value) :: members)) chars rest

theorem length_skip_le (chars : List Char) : (skip chars).length ≤ chars.length :=
  (List.dropWhile_suffix isBlank).length_le

theorem length_of_skip {chars rest : List Char} {char : Char} (split : skip chars = char :: rest) :
    rest.length < chars.length := by
  have bound := length_skip_le chars
  rw [split, List.length_cons] at bound
  exact bound

theorem length_digits? {chars rest : List Char} (read : digits? chars = some rest) :
    rest.length < chars.length := by
  cases chars with
  | nil => cases read
  | cons char chars =>
      simp only [digits?, Option.ite_none_right_eq_some, Option.some.injEq] at read
      have bound := (List.dropWhile_suffix (l := chars) Char.isDigit).length_le
      rw [← read.2, List.length_cons]
      omega

theorem length_integer? {chars rest : List Char} (read : integer? chars = some rest) :
    rest.length < chars.length := by
  unfold integer? at read
  split at read
  · obtain rfl := Option.some.inj read
    exact Nat.lt_succ_self _
  · exact length_digits? read

theorem length_fraction? {chars rest : List Char} (read : fraction? chars = some rest) :
    rest.length ≤ chars.length := by
  unfold fraction? at read
  split at read
  · have bound := length_digits? read
    simp only [List.length_cons]
    omega
  · obtain rfl := Option.some.inj read
    exact Nat.le_refl _

theorem length_sign_le (chars : List Char) : (sign chars).length ≤ chars.length := by
  unfold sign
  split <;> simp

theorem length_exponent? {chars rest : List Char} (read : exponent? chars = some rest) :
    rest.length ≤ chars.length := by
  unfold exponent? at read
  split at read
  · rename_i after
    have bound := length_digits? read
    have signed := length_sign_le after
    simp only [List.length_cons]
    omega
  · rename_i after
    have bound := length_digits? read
    have signed := length_sign_le after
    simp only [List.length_cons]
    omega
  · obtain rfl := Option.some.inj read
    exact Nat.le_refl _

theorem length_number? {chars rest : List Char} (read : number? chars = some rest) :
    rest.length < chars.length := by
  have unsigned : ∀ {chars : List Char},
      (do exponent? (← fraction? (← integer? chars)) : Option (List Char)) = some rest →
        rest.length < chars.length := by
    intro chars read
    obtain ⟨afterInteger, isInteger, read⟩ := Option.bind_eq_some_iff.mp read
    obtain ⟨afterFraction, isFraction, isExponent⟩ := Option.bind_eq_some_iff.mp read
    have first := length_integer? isInteger
    have second := length_fraction? isFraction
    have third := length_exponent? isExponent
    omega
  unfold number? at read
  split at read
  · have bound := unsigned read
    simp only [List.length_cons]
    omega
  · exact unsigned read

theorem length_quoted {chars rest : List Char} {units : List Nat}
    (read : quoted chars = some (units, rest)) : rest.length < chars.length := by
  fun_induction quoted chars generalizing units with
  | case1 => cases read
  | case2 after =>
      obtain ⟨-, rfl⟩ := Prod.mk.inj (Option.some.inj read)
      exact Nat.lt_succ_self _
  | case3 first second third fourth after ih =>
      obtain ⟨unit, -, read⟩ := Option.bind_eq_some_iff.mp read
      obtain ⟨⟨others, afterOthers⟩, inner, same⟩ := Option.bind_eq_some_iff.mp read
      obtain ⟨-, rfl⟩ := Prod.mk.inj (Option.some.inj same)
      have bound := ih inner
      simp only [List.length_cons]
      omega
  | case4 char after _ ih =>
      obtain ⟨unit, -, read⟩ := Option.bind_eq_some_iff.mp read
      obtain ⟨⟨others, afterOthers⟩, inner, same⟩ := Option.bind_eq_some_iff.mp read
      obtain ⟨-, rfl⟩ := Prod.mk.inj (Option.some.inj same)
      have bound := ih inner
      simp only [List.length_cons]
      omega
  | case5 => cases read
  | case6 char after _ _ _ _ ih =>
      obtain ⟨⟨others, afterOthers⟩, inner, same⟩ := Option.bind_eq_some_iff.mp read
      obtain ⟨-, rfl⟩ := Prod.mk.inj (Option.some.inj same)
      have bound := ih inner
      simp only [List.length_cons]
      omega

theorem length_scalar? {chars rest : List Char} {value : Json}
    (read : scalar? chars = some (value, rest)) : rest.length < chars.length := by
  unfold scalar? at read
  split at read
  · obtain ⟨-, rfl⟩ := Prod.mk.inj (Option.some.inj read)
    simp only [List.length_cons]
    omega
  · obtain ⟨-, rfl⟩ := Prod.mk.inj (Option.some.inj read)
    simp only [List.length_cons]
    omega
  · obtain ⟨-, rfl⟩ := Prod.mk.inj (Option.some.inj read)
    simp only [List.length_cons]
    omega
  · obtain ⟨⟨units, after⟩, inner, same⟩ := Option.map_eq_some_iff.mp read
    obtain ⟨-, rfl⟩ := Prod.mk.inj same
    exact Nat.lt_succ_of_lt (length_quoted inner)
  · obtain ⟨after, inner, same⟩ := Option.map_eq_some_iff.mp read
    obtain ⟨-, rfl⟩ := Prod.mk.inj same
    exact length_number? inner

theorem length_name? {chars rest : List Char} {name : List Nat}
    (read : name? chars = some (name, rest)) : rest.length < chars.length := by
  unfold name? at read
  split at read
  · rename_i after isQuote
    obtain ⟨⟨units, middle⟩, inner, colon⟩ := Option.bind_eq_some_iff.mp read
    have first := length_of_skip isQuote
    have second := length_quoted inner
    simp only at colon
    split at colon
    · rename_i isColon
      obtain ⟨-, rfl⟩ := Prod.mk.inj (Option.some.inj colon)
      have third := length_of_skip isColon
      omega
    · cases colon
  · cases read

/-- Something is read. -/
theorem Derives.length_lt {shape : Shape} {chars rest : List Char}
    (derives : Derives shape chars rest) : rest.length < chars.length := by
  induction derives with
  | scalar scalar => exact length_scalar? scalar
  | emptyArray close => exact Nat.lt_succ_of_lt (length_of_skip close)
  | array _ ih => exact Nat.lt_succ_of_lt ih
  | emptyObject close => exact Nat.lt_succ_of_lt (length_of_skip close)
  | object _ ih => exact Nat.lt_succ_of_lt ih
  | lastElement _ close ih =>
      have first := Nat.lt_of_lt_of_le ih (length_skip_le _)
      have last := length_of_skip close
      omega
  | element _ comma _ ih ihOthers =>
      have first := Nat.lt_of_lt_of_le ih (length_skip_le _)
      have next := length_of_skip comma
      omega
  | lastMember named _ close ih =>
      have name := length_name? named
      have first := Nat.lt_of_lt_of_le ih (length_skip_le _)
      have last := length_of_skip close
      omega
  | member named _ comma _ ih ihOthers =>
      have name := length_name? named
      have first := Nat.lt_of_lt_of_le ih (length_skip_le _)
      have next := length_of_skip comma
      omega

/-- The shape that a parser has read. -/
def Shape.Parsed (fuel : Nat) (chars rest : List Char) : Shape → Prop
  | .value json => value? fuel chars = some (json, rest)
  | .elements list => elements? fuel chars = some (list, rest)
  | .members list => members? fuel chars = some (list, rest)

theorem scalar?_bracket (rest : List Char) : scalar? ('[' :: rest) = none := by
  simp [scalar?, number?, integer?, digits?]

theorem scalar?_brace (rest : List Char) : scalar? ('{' :: rest) = none := by
  simp [scalar?, number?, integer?, digits?]

theorem value?_of_scalar? {fuel : Nat} {chars rest : List Char} {value : Json}
    (scalar : scalar? chars = some (value, rest)) :
    value? (fuel + 1) chars = some (value, rest) := by
  unfold value?
  split
  · rename_i zero
    cases zero
  · rw [scalar?_bracket] at scalar
    cases scalar
  · rw [scalar?_brace] at scalar
    cases scalar
  · exact scalar

/-- A list of elements does not begin with the closing bracket. -/
theorem Derives.not_close {elements : List Json} {chars rest after : List Char}
    (derives : Derives (.elements elements) chars rest) : skip chars ≠ ']' :: after := by
  intro close
  have noValue : ∀ {value : Json} {middle : List Char},
      ¬ Derives (.value value) (']' :: after) middle := by
    intro value middle bracket
    cases bracket with
    | scalar scalar => simp [scalar?, number?, integer?, digits?] at scalar
  cases derives with
  | lastElement first _ => exact noValue (close ▸ first)
  | element first _ _ => exact noValue (close ▸ first)

theorem Derives.not_brace {members : List (List Nat × Json)} {chars rest after : List Char}
    (derives : Derives (.members members) chars rest) : skip chars ≠ '}' :: after := by
  intro close
  have noName : name? chars = none := by simp [name?, close]
  cases derives with
  | lastMember named _ _ => exact absurd (noName.symm.trans named) (by simp)
  | member named _ _ _ => exact absurd (noName.symm.trans named) (by simp)

theorem value?_array {fuel : Nat} {chars : List Char}
    (inner : ∀ after, skip chars ≠ ']' :: after) : value? (fuel + 1) ('[' :: chars) =
      (elements? fuel chars).map fun (elements, rest) => (.array elements, rest) := by
  simp only [value?]

theorem value?_object {fuel : Nat} {chars : List Char}
    (inner : ∀ after, skip chars ≠ '}' :: after) : value? (fuel + 1) ('{' :: chars) =
      (members? fuel chars).map fun (members, rest) => (.object members, rest) := by
  simp only [value?]

/-- Enough fuel is at least one unit of it. -/
theorem Derives.exists_fuel {shape : Shape} {chars rest : List Char}
    (derives : Derives shape chars rest) {fuel : Nat}
    (enough : chars.length ≤ fuel + rest.length) : ∃ less, fuel = less + 1 := by
  have progress := derives.length_lt
  exact ⟨fuel - 1, by omega⟩

/-- What can be derived is parsed, with fuel for each character that is read. -/
theorem Derives.parsed {shape : Shape} {chars rest : List Char}
    (derives : Derives shape chars rest) (fuel : Nat)
    (enough : chars.length ≤ fuel + rest.length) : shape.Parsed fuel chars rest := by
  induction derives generalizing fuel with
  | scalar scalar =>
      obtain ⟨fuel, rfl⟩ := (Derives.scalar scalar).exists_fuel enough
      exact value?_of_scalar? scalar
  | emptyArray close =>
      obtain ⟨fuel, rfl⟩ := (Derives.emptyArray close).exists_fuel enough
      simp [Shape.Parsed, value?, close]
  | array inner ih =>
      obtain ⟨fuel, rfl⟩ := (Derives.array inner).exists_fuel enough
      rw [List.length_cons] at enough
      have parsed := ih fuel (by omega)
      rw [Shape.Parsed] at parsed
      rw [Shape.Parsed, value?_array fun _ => inner.not_close, parsed]
      rfl
  | emptyObject close =>
      obtain ⟨fuel, rfl⟩ := (Derives.emptyObject close).exists_fuel enough
      simp [Shape.Parsed, value?, close]
  | object inner ih =>
      obtain ⟨fuel, rfl⟩ := (Derives.object inner).exists_fuel enough
      rw [List.length_cons] at enough
      have parsed := ih fuel (by omega)
      rw [Shape.Parsed] at parsed
      rw [Shape.Parsed, value?_object fun _ => inner.not_brace, parsed]
      rfl
  | @lastElement value chars middle rest first close ih =>
      obtain ⟨fuel, rfl⟩ := (Derives.lastElement first close).exists_fuel enough
      have start := length_skip_le chars
      have last := length_of_skip close
      have parsed := ih fuel (by omega)
      rw [Shape.Parsed] at parsed
      simp [Shape.Parsed, elements?, parsed, close]
  | @element value elements chars middle next rest first comma others ih ihOthers =>
      obtain ⟨fuel, rfl⟩ := (Derives.element first comma others).exists_fuel enough
      have start := length_skip_le chars
      have read := first.length_lt
      have between := length_of_skip comma
      have left := others.length_lt
      have parsed := ih fuel (by omega)
      have parsedOthers := ihOthers fuel (by omega)
      simp only [Shape.Parsed] at parsed parsedOthers
      simp [Shape.Parsed, elements?, parsed, comma, parsedOthers]
  | @lastMember name value chars colon middle rest named first close ih =>
      obtain ⟨fuel, rfl⟩ := (Derives.lastMember named first close).exists_fuel enough
      have before := length_name? named
      have start := length_skip_le colon
      have last := length_of_skip close
      have parsed := ih fuel (by omega)
      rw [Shape.Parsed] at parsed
      simp [Shape.Parsed, members?, named, parsed, close]
  | @member name value members chars colon middle next rest named first comma others ih ihOthers =>
      obtain ⟨fuel, rfl⟩ := (Derives.member named first comma others).exists_fuel enough
      have before := length_name? named
      have start := length_skip_le colon
      have read := first.length_lt
      have between := length_of_skip comma
      have left := others.length_lt
      have parsed := ih fuel (by omega)
      have parsedOthers := ihOthers fuel (by omega)
      simp only [Shape.Parsed] at parsed parsedOthers
      simp [Shape.Parsed, members?, named, parsed, comma, parsedOthers]

/-- What is parsed can be derived. -/
theorem derives_of_parsed (fuel : Nat) :
    ∀ (shape : Shape) (chars rest : List Char), shape.Parsed fuel chars rest →
      Derives shape chars rest := by
  induction fuel with
  | zero =>
      intro shape chars rest parsed
      cases shape <;> simp [Shape.Parsed, value?, elements?, members?] at parsed
  | succ fuel ih =>
      intro shape chars rest parsed
      cases shape with
      | value json =>
          simp only [Shape.Parsed] at parsed
          unfold value? at parsed
          split at parsed
          · rename_i zero
            cases zero
          · rename_i less after isFuel
            obtain rfl := Nat.succ.inj isFuel
            split at parsed
            · rename_i close
              obtain ⟨rfl, rfl⟩ := Prod.mk.inj (Option.some.inj parsed)
              exact .emptyArray close
            · obtain ⟨⟨elements, last⟩, inner, same⟩ := Option.map_eq_some_iff.mp parsed
              obtain ⟨rfl, rfl⟩ := Prod.mk.inj same
              exact .array (ih (.elements elements) _ _ inner)
          · rename_i less after isFuel
            obtain rfl := Nat.succ.inj isFuel
            split at parsed
            · rename_i close
              obtain ⟨rfl, rfl⟩ := Prod.mk.inj (Option.some.inj parsed)
              exact .emptyObject close
            · obtain ⟨⟨members, last⟩, inner, same⟩ := Option.map_eq_some_iff.mp parsed
              obtain ⟨rfl, rfl⟩ := Prod.mk.inj same
              exact .object (ih (.members members) _ _ inner)
          · exact .scalar parsed
      | elements list =>
          simp only [Shape.Parsed, elements?] at parsed
          obtain ⟨⟨first, middle⟩, isFirst, parsed⟩ := Option.bind_eq_some_iff.mp parsed
          have derived := ih (.value first) _ _ isFirst
          simp only at parsed
          split at parsed
          · rename_i close
            obtain ⟨rfl, rfl⟩ := Prod.mk.inj (Option.some.inj parsed)
            exact .lastElement derived close
          · rename_i next comma
            obtain ⟨⟨others, last⟩, isOthers, same⟩ := Option.bind_eq_some_iff.mp parsed
            obtain ⟨rfl, rfl⟩ := Prod.mk.inj (Option.some.inj same)
            exact .element derived comma (ih (.elements others) _ _ isOthers)
          · cases parsed
      | members list =>
          simp only [Shape.Parsed, members?] at parsed
          obtain ⟨⟨name, colon⟩, isName, parsed⟩ := Option.bind_eq_some_iff.mp parsed
          obtain ⟨⟨first, middle⟩, isFirst, parsed⟩ := Option.bind_eq_some_iff.mp parsed
          have derived := ih (.value first) _ _ isFirst
          simp only at parsed
          split at parsed
          · rename_i close
            obtain ⟨rfl, rfl⟩ := Prod.mk.inj (Option.some.inj parsed)
            exact .lastMember isName derived close
          · rename_i next comma
            obtain ⟨⟨others, last⟩, isOthers, same⟩ := Option.bind_eq_some_iff.mp parsed
            obtain ⟨rfl, rfl⟩ := Prod.mk.inj (Option.some.inj same)
            exact .member isName derived comma (ih (.members others) _ _ isOthers)
          · cases parsed

/-- A text has a value if the value can be derived from all of it. -/
def Denotes (text : String) (value : Json) : Prop :=
  ∃ rest, Derives (.value value) (skip text.toList) rest ∧ skip rest = []

/-- The parser accepts exactly the texts that have a value. -/
theorem parse_eq_some {text : String} {value : Json} :
    parse text = some value ↔ Denotes text value := by
  constructor
  · intro parsed
    obtain ⟨⟨read, rest⟩, isRead, whole⟩ := Option.bind_eq_some_iff.mp parsed
    simp only [Option.ite_none_right_eq_some, Option.some.injEq] at whole
    obtain ⟨isEnd, rfl⟩ := whole
    exact ⟨rest, derives_of_parsed _ (.value read) _ _ isRead, isEnd⟩
  · rintro ⟨rest, derives, isEnd⟩
    have bound := length_skip_le text.toList
    have parsed := derives.parsed text.toList.length (by omega)
    simp only [Shape.Parsed] at parsed
    simp [parse, parsed, isEnd]

/-! ## Printing lists of strings -/

def hexDigit (number : Nat) : Char :=
  Nat.digitChar number

/-- A character in a string literal. -/
def escape (char : Char) : List Char :=
  match char with
  | '"' => ['\\', '"']
  | '\\' => ['\\', '\\']
  | '\n' => ['\\', 'n']
  | '\r' => ['\\', 'r']
  | '\t' => ['\\', 't']
  | _ =>
      if char.toNat = 0x08 then ['\\', 'b']
      else if char.toNat = 0x0C then ['\\', 'f']
      else if char.toNat < 0x20 then
        ['\\', 'u', '0', '0', hexDigit (char.toNat / 16), hexDigit (char.toNat % 16)]
      else [char]

/-- A string literal. -/
def quote (text : String) : List Char :=
  '"' :: text.toList.flatMap escape ++ ['"']

/-- `JSON.stringify` on a list of strings. -/
def stringify (strings : List String) : String :=
  String.ofList ('[' :: [','].intercalate (strings.map quote) ++ [']'])

theorem quoted_cons {char : Char} (noQuote : char ≠ '"') (noEscape : char ≠ '\\')
    (printable : ¬ char.toNat < 0x20) (chars : List Char) :
    quoted (char :: chars) =
      (quoted chars).map fun (units, rest) => (utf16 char ++ units, rest) := by
  rw [quoted]
  · rw [if_neg (by simp [noEscape, printable])]
    cases quoted chars <;> rfl
  · exact noQuote
  · rintro first second third fourth after rfl
    exact absurd rfl noEscape
  · rintro other after rfl
    exact absurd rfl noEscape

/-- An escape of two characters. -/
theorem quoted_escape {code char : Char} {unit : Nat} (escapes : escape? code = some unit)
    (names : utf16 char = [unit]) (chars : List Char) :
    quoted ('\\' :: code :: chars) =
      (quoted chars).map fun (units, rest) => (utf16 char ++ units, rest) := by
  have noUnicode : code ≠ 'u' := by
    rintro rfl
    cases escapes
  rw [quoted]
  · rw [escapes, names]
    cases quoted chars <;> rfl
  · rintro first second third fourth after rfl
    exact absurd rfl noUnicode

theorem hex4?_of_lt {number : Nat} (small : number < 0x20) :
    hex4? '0' '0' (hexDigit (number / 16)) (hexDigit (number % 16)) = some number := by
  revert number
  decide

theorem quoted_escape_append (char : Char) (chars : List Char) :
    quoted (escape char ++ chars) =
      (quoted chars).map fun (units, rest) => (utf16 char ++ units, rest) := by
  have ofNat : ∀ {number : Nat}, char.toNat = number → char = Char.ofNat number := by
    rintro number rfl
    exact (Char.ofNat_toNat char).symm
  unfold escape
  split
  · exact quoted_escape rfl rfl chars
  · exact quoted_escape rfl rfl chars
  · exact quoted_escape rfl rfl chars
  · exact quoted_escape rfl rfl chars
  · exact quoted_escape rfl rfl chars
  · rename_i noQuote noEscape _ _ _
    split
    · rename_i isBackspace
      rw [ofNat isBackspace]
      exact quoted_escape rfl rfl chars
    · split
      · rename_i isFormFeed
        rw [ofNat isFormFeed]
        exact quoted_escape rfl rfl chars
      · split
        · rename_i control
          have names : utf16 char = [char.toNat] := by
            rw [utf16, if_pos (by omega)]
          simp only [List.cons_append, List.nil_append, quoted]
          rw [hex4?_of_lt control, names]
          cases quoted chars <;> rfl
        · rename_i printable
          exact quoted_cons noQuote noEscape printable chars

theorem quoted_flatMap_escape (text rest : List Char) :
    quoted (text.flatMap escape ++ '"' :: rest) = some (text.flatMap utf16, rest) := by
  induction text with
  | nil => rfl
  | cons char text ih =>
      rw [List.flatMap_cons, List.append_assoc, quoted_escape_append, ih]
      rfl

/-- The value of a string. -/
def ofString (text : String) : Json :=
  .string (text.toList.flatMap utf16)

theorem derives_quote (text : String) (rest : List Char) :
    Derives (.value (ofString text)) (skip (quote text ++ rest)) rest := by
  have shown : skip (quote text ++ rest) = quote text ++ rest := rfl
  rw [shown]
  refine .scalar ?_
  have read := quoted_flatMap_escape text.toList rest
  simp [quote, scalar?, read, ofString]

theorem derives_strings (first : String) (strings : List String) (rest : List Char) :
    Derives (.elements ((first :: strings).map ofString))
      ([','].intercalate ((first :: strings).map quote) ++ ']' :: rest) rest := by
  induction strings generalizing first with
  | nil =>
      simp only [List.map_cons, List.map_nil, List.intercalate_singleton]
      exact .lastElement (derives_quote first _) rfl
  | cons second strings ih =>
      have split : [','].intercalate ((first :: second :: strings).map quote) ++ ']' :: rest =
          quote first ++ ',' :: ([','].intercalate ((second :: strings).map quote) ++
            ']' :: rest) := by
        simp [List.intercalate_cons_cons]
      rw [split]
      exact .element (derives_quote first _) rfl (ih second)

/-- A printed list of strings is read back. -/
theorem parse_stringify (strings : List String) :
    parse (stringify strings) = some (.array (strings.map ofString)) := by
  refine parse_eq_some.mpr ⟨[], ?_, rfl⟩
  rw [stringify, String.toList_ofList]
  cases strings with
  | nil => exact .emptyArray rfl
  | cons first strings => exact .array (derives_strings first strings [])

/-- A string, if the value is one that has no lone surrogate. -/
def text? : Json → Option String
  | .string units => (decodeUtf16 units).map String.ofList
  | _ => none

@[simp]
theorem text?_ofString (text : String) : (ofString text).text? = some text := by
  simp [text?, ofString, decodeUtf16_flatMap]

end Json

end Text

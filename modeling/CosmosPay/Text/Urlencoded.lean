import Mathlib.Data.List.Basic

/-!
# `application/x-www-form-urlencoded`

A list of name-value pairs as `URLSearchParams` keeps it, and its string form:
letters, digits and `*-._` stand for themselves, a space becomes `+`, and every
other UTF-8 byte becomes a percent triplet.  Parsing a serialized list gives it back.
-/

namespace Text

/-- The name-value pairs of a query, in order. -/
abbrev QueryParams : Type :=
  List (String × String)

/-- `params.set(name, value)`: replace the first pair of that name and drop the
others, or append the pair. -/
def QueryParams.set (params : QueryParams) (name value : String) : QueryParams :=
  if params.any (·.1 = name) then
    params.takeWhile (·.1 ≠ name) ++
      (name, value) :: (params.dropWhile (·.1 ≠ name)).tail.filter (·.1 ≠ name)
  else params ++ [(name, value)]

/-- Bytes that the serializer leaves as they are. -/
def isUnreserved (byte : UInt8) : Bool :=
  ('a'.toNat ≤ byte.toNat && byte.toNat ≤ 'z'.toNat) ||
    ('A'.toNat ≤ byte.toNat && byte.toNat ≤ 'Z'.toNat) ||
    ('0'.toNat ≤ byte.toNat && byte.toNat ≤ '9'.toNat) ||
    byte.toNat ∈ ['*'.toNat, '-'.toNat, '.'.toNat, '_'.toNat]

def upperHexDigit (number : Nat) : Char :=
  if number < 10 then Char.ofNat ('0'.toNat + number) else Char.ofNat ('A'.toNat + (number - 10))

def encodeByte (byte : UInt8) : List Char :=
  if isUnreserved byte then [Char.ofNat byte.toNat]
  else if byte.toNat = ' '.toNat then ['+']
  else ['%', upperHexDigit (byte.toNat / 16), upperHexDigit (byte.toNat % 16)]

def encodeComponent (text : String) : List Char :=
  text.toUTF8.toList.flatMap encodeByte

/-- `params.toString()` -/
def QueryParams.serialize (params : QueryParams) : String :=
  String.ofList (List.intercalate ['&'] (params.map fun (name, value) =>
    encodeComponent name ++ '=' :: encodeComponent value))

/-! ## The parser -/

def hexValue (byte : UInt8) : Option Nat :=
  if '0'.toNat ≤ byte.toNat ∧ byte.toNat ≤ '9'.toNat then some (byte.toNat - '0'.toNat)
  else if 'A'.toNat ≤ byte.toNat ∧ byte.toNat ≤ 'F'.toNat then some (byte.toNat - 'A'.toNat + 10)
  else if 'a'.toNat ≤ byte.toNat ∧ byte.toNat ≤ 'f'.toNat then some (byte.toNat - 'a'.toNat + 10)
  else none

/-- The byte that a percent triplet stands for. -/
def tripletByte (percent first second : UInt8) : Option UInt8 :=
  if percent = '%'.toUInt8 then do
    let high ← hexValue first
    let low ← hexValue second
    pure (.ofNat (16 * high + low))
  else none

def percentDecode : List UInt8 → List UInt8
  | percent :: first :: second :: rest =>
      match tripletByte percent first second with
      | some byte => byte :: percentDecode rest
      | none => percent :: percentDecode (first :: second :: rest)
  | short => short

def plusToSpace (byte : UInt8) : UInt8 :=
  if byte = '+'.toUInt8 then ' '.toUInt8 else byte

/-- A name or a value; `none` if its bytes are not UTF-8. -/
def decodeComponent (bytes : List UInt8) : Option String :=
  String.fromUTF8? ⟨(percentDecode (bytes.map plusToSpace)).toArray⟩

def decodePair (part : List UInt8) : Option (String × String) := do
  let name ← decodeComponent (part.takeWhile (· ≠ '='.toUInt8))
  let value ← decodeComponent ((part.dropWhile (· ≠ '='.toUInt8)).drop 1)
  pure (name, value)

/-- `new URLSearchParams(query)` -/
def QueryParams.parse (query : String) : Option QueryParams :=
  ((query.toUTF8.toList.splitOn '&'.toUInt8).filter (· ≠ [])).mapM decodePair

/-! ## Lengths -/

theorem toList_eq_data (bytes : ByteArray) : bytes.toList = bytes.data.toList := by
  have loops : ∀ index collected, ByteArray.toList.loop bytes index collected =
      collected.reverse ++ bytes.data.toList.drop index := by
    intro index collected
    induction index, collected using ByteArray.toList.loop.induct bytes with
    | case1 index collected inside ih =>
        have bound : index < bytes.data.toList.length := by simpa using inside
        rw [ByteArray.toList.loop, if_pos inside, ih, List.drop_eq_getElem_cons bound]
        simp [ByteArray.get!, inside]
    | case2 index collected outside =>
        have bound : bytes.data.toList.length ≤ index := by simpa using outside
        rw [ByteArray.toList.loop, if_neg outside, List.drop_eq_nil_of_le bound]
        simp
  simpa [ByteArray.toList] using loops 0 []

/-- A text is encoded character by character. -/
theorem encodeComponent_eq_flatMap (text : String) :
    encodeComponent text =
      text.toList.flatMap fun char => (String.utf8EncodeChar char).flatMap encodeByte := by
  unfold encodeComponent
  rw [toList_eq_data, String.toUTF8_eq_toByteArray, ← String.utf8Encode_toList, List.utf8Encode]
  simp [List.flatMap_assoc]

theorem length_le_intercalate {α : Type} {separator part : List α} {parts : List (List α)}
    (member : part ∈ parts) : part.length ≤ (List.intercalate separator parts).length := by
  induction parts with
  | nil => cases member
  | cons first parts ih =>
      cases parts with
      | nil => simp_all
      | cons second parts =>
          rw [List.intercalate_cons_cons]
          simp only [List.length_append]
          rcases List.mem_cons.mp member with rfl | later
          · omega
          · have bound := ih later
            omega

/-- A query is at least as long as each of its values is when it is encoded. -/
theorem length_le_serialize {params : QueryParams} {name value : String}
    (member : (name, value) ∈ params) :
    (encodeComponent value).length ≤ params.serialize.length := by
  have bound : (encodeComponent name ++ '=' :: encodeComponent value).length ≤
      (List.intercalate ['&'] (params.map fun (name, value) =>
        encodeComponent name ++ '=' :: encodeComponent value)).length :=
    length_le_intercalate (List.mem_map.mpr ⟨_, member, rfl⟩)
  simp only [List.length_append, List.length_cons] at bound
  simp only [QueryParams.serialize, String.length_ofList]
  omega

/-! ## Round trip -/

/-- A property of bytes is checked digit by digit, so that no recursion is deep. -/
theorem forall_byte {P : UInt8 → Prop}
    (small : ∀ high < 16, ∀ low < 16, P (.ofNat (16 * high + low))) (byte : UInt8) : P byte := by
  have bound := byte.toNat_lt
  have holds := small (byte.toNat / 16) (by omega) (byte.toNat % 16) (by omega)
  rwa [Nat.div_add_mod, UInt8.ofNat_toNat] at holds

theorem unreserved_kept : ∀ byte : UInt8, isUnreserved byte = true →
    byte.toNat < 128 ∧ (Char.ofNat byte.toNat).toUInt8 = byte ∧ plusToSpace byte = byte ∧
      byte ≠ '%'.toUInt8 :=
  forall_byte (by decide +kernel)

theorem triplet_decoded : ∀ byte : UInt8,
    ['%', upperHexDigit (byte.toNat / 16), upperHexDigit (byte.toNat % 16)].map
        (fun char => plusToSpace char.toUInt8) =
      ['%', upperHexDigit (byte.toNat / 16), upperHexDigit (byte.toNat % 16)].map Char.toUInt8 ∧
    tripletByte '%'.toUInt8 (upperHexDigit (byte.toNat / 16)).toUInt8
      (upperHexDigit (byte.toNat % 16)).toUInt8 = some byte :=
  forall_byte (by decide +kernel)

/-- Characters that separate nothing in a query. -/
def IsPlain (char : Char) : Prop :=
  char.toNat < 128 ∧ char ≠ '#' ∧ char.toUInt8 ≠ '&'.toUInt8 ∧ char.toUInt8 ≠ '='.toUInt8

instance (char : Char) : Decidable (IsPlain char) :=
  inferInstanceAs (Decidable (_ ∧ _))

theorem isPlain_unreserved : ∀ byte : UInt8, isUnreserved byte = true →
    IsPlain (Char.ofNat byte.toNat) :=
  forall_byte (by decide +kernel)

theorem isPlain_upperHexDigit : ∀ digit < 16, IsPlain (upperHexDigit digit) := by
  decide +kernel

theorem encodeByte_plain (byte : UInt8) : ∀ char ∈ encodeByte byte, IsPlain char := by
  have bound := byte.toNat_lt
  unfold encodeByte
  split
  · rename_i unreserved
    simpa using isPlain_unreserved byte unreserved
  · split
    · simp only [List.mem_singleton, forall_eq]
      decide
    · simp only [List.forall_mem_cons, List.not_mem_nil, false_implies, implies_true, and_true]
      exact ⟨by decide, isPlain_upperHexDigit _ (by omega), isPlain_upperHexDigit _ (by omega)⟩

theorem percentDecode_cons {byte : UInt8} (plain : byte ≠ '%'.toUInt8) (rest : List UInt8) :
    percentDecode (byte :: rest) = byte :: percentDecode rest := by
  match rest with
  | [] => rfl
  | [first] => rfl
  | first :: second :: others => simp [percentDecode, tripletByte, plain]

/-- Decoding undoes the encoding of one byte. -/
theorem percentDecode_encodeByte (byte : UInt8) (rest : List UInt8) :
    percentDecode ((encodeByte byte).map (fun char => plusToSpace char.toUInt8) ++ rest) =
      byte :: percentDecode rest := by
  unfold encodeByte
  split
  · rename_i unreserved
    obtain ⟨-, back, kept, plain⟩ := unreserved_kept byte unreserved
    rw [List.map_singleton, back, kept, List.singleton_append, percentDecode_cons plain]
  · split
    · rename_i isSpace
      have same : byte = ' '.toUInt8 := UInt8.toNat_inj.mp isSpace
      rw [same]
      exact percentDecode_cons (by decide) rest
    · obtain ⟨kept, decoded⟩ := triplet_decoded byte
      rw [kept]
      simp only [List.map_cons, List.map_nil, List.cons_append, List.nil_append, percentDecode,
        decoded]

theorem percentDecode_encodeBytes (bytes rest : List UInt8) :
    percentDecode ((bytes.flatMap encodeByte).map (fun char => plusToSpace char.toUInt8) ++ rest) =
      bytes ++ percentDecode rest := by
  induction bytes with
  | nil => rfl
  | cons byte bytes ih =>
      rw [List.flatMap_cons, List.map_append, List.append_assoc, percentDecode_encodeByte, ih,
        List.cons_append]

/-- A component is read back. -/
theorem decodeComponent_encodeComponent (text : String) :
    decodeComponent ((encodeComponent text).map Char.toUInt8) = some text := by
  have bytes : percentDecode (((encodeComponent text).map Char.toUInt8).map plusToSpace) =
      text.toUTF8.toList := by
    have decoded := percentDecode_encodeBytes text.toUTF8.toList []
    rw [List.append_nil] at decoded
    rw [List.map_map]
    exact decoded.trans (List.append_nil _)
  rw [decodeComponent, bytes, toList_eq_data, Array.toArray_toList]
  simp [String.fromUTF8?, String.fromUTF8, text.isValidUTF8]

theorem plain_of_mem_encodeComponent {text : String} {char : Char}
    (member : char ∈ encodeComponent text) : IsPlain char := by
  obtain ⟨byte, -, encoded⟩ := List.mem_flatMap.mp member
  exact encodeByte_plain byte char encoded

/-- An ASCII text has one byte for each character. -/
theorem toUTF8_ofList {chars : List Char} (ascii : ∀ char ∈ chars, char.toNat < 128) :
    (String.ofList chars).toUTF8.toList = chars.map Char.toUInt8 := by
  rw [toList_eq_data, String.toUTF8_eq_toByteArray, String.toByteArray_ofList, List.utf8Encode]
  simp only [List.data_toByteArray]
  induction chars with
  | nil => rfl
  | cons char chars ih =>
      have small : char.toNat < 128 := ascii char List.mem_cons_self
      have single : char.utf8Size = 1 := by
        have bound : char.val ≤ 127 := UInt32.le_iff_toNat_le.mpr (Nat.le_of_lt_succ small)
        simp [Char.utf8Size, bound]
      rw [List.flatMap_cons, String.utf8EncodeChar_eq_singleton single,
        ih fun other member => ascii other (List.mem_cons_of_mem char member)]
      rfl

/-- What the serializer makes of a pair. -/
def encodePair (pair : String × String) : List Char :=
  encodeComponent pair.1 ++ '=' :: encodeComponent pair.2

theorem decodePair_encodePair (pair : String × String) :
    decodePair ((encodePair pair).map Char.toUInt8) = some pair := by
  have name : ∀ byte ∈ (encodeComponent pair.1).map Char.toUInt8,
      decide (byte ≠ '='.toUInt8) = true := by
    intro byte member
    obtain ⟨char, isChar, rfl⟩ := List.mem_map.mp member
    exact decide_eq_true (plain_of_mem_encodeComponent isChar).2.2.2
  have mapped : (encodePair pair).map Char.toUInt8 =
      (encodeComponent pair.1).map Char.toUInt8 ++
        '='.toUInt8 :: (encodeComponent pair.2).map Char.toUInt8 := by
    rw [encodePair, List.map_append, List.map_cons]
  have stop : ∀ rest : List UInt8, ('='.toUInt8 :: rest).takeWhile (· ≠ '='.toUInt8) = [] ∧
      ('='.toUInt8 :: rest).dropWhile (· ≠ '='.toUInt8) = '='.toUInt8 :: rest := by
    simp
  rw [decodePair, mapped, List.takeWhile_append_of_pos name, List.dropWhile_append_of_pos name,
    (stop _).1, (stop _).2, List.append_nil, List.drop_one, List.tail_cons,
    decodeComponent_encodeComponent, decodeComponent_encodeComponent]
  rfl

theorem mem_of_mem_intercalate {α : Type} {separator item : α} {parts : List (List α)}
    (member : item ∈ List.intercalate [separator] parts) :
    item = separator ∨ ∃ part ∈ parts, item ∈ part := by
  induction parts with
  | nil => cases member
  | cons first parts ih =>
      cases parts with
      | nil => exact .inr ⟨first, List.mem_cons_self, by simpa using member⟩
      | cons second parts =>
          rw [List.intercalate_cons_cons] at member
          rcases List.mem_append.mp member with begun | later
          · rcases List.mem_append.mp begun with own | isSeparator
            · exact .inr ⟨first, List.mem_cons_self, own⟩
            · exact .inl (List.mem_singleton.mp isSeparator)
          · rcases ih later with isSeparator | ⟨part, isPart, own⟩
            · exact .inl isSeparator
            · exact .inr ⟨part, List.mem_cons_of_mem first isPart, own⟩

theorem map_intercalate {α β : Type} (convert : α → β) (separator : α) (parts : List (List α)) :
    (List.intercalate [separator] parts).map convert =
      List.intercalate [convert separator] (parts.map (List.map convert)) := by
  induction parts with
  | nil => rfl
  | cons first parts ih =>
      cases parts with
      | nil => simp
      | cons second parts =>
          simp only [List.map_cons, List.intercalate_cons_cons, List.map_append] at ih ⊢
          rw [ih, List.map_nil]

theorem decodePairs (params : QueryParams) :
    (params.map fun pair => (encodePair pair).map Char.toUInt8).mapM decodePair = some params := by
  induction params with
  | nil => rfl
  | cons pair params ih => simp [decodePair_encodePair, ih]

theorem plain_of_mem_encodePair {pair : String × String} {char : Char}
    (member : char ∈ encodePair pair) :
    char.toNat < 128 ∧ char ≠ '#' ∧ char.toUInt8 ≠ '&'.toUInt8 := by
  rcases List.mem_append.mp member with name | rest
  · have plain := plain_of_mem_encodeComponent name
    exact ⟨plain.1, plain.2.1, plain.2.2.1⟩
  · rcases List.mem_cons.mp rest with rfl | value
    · decide
    · have plain := plain_of_mem_encodeComponent value
      exact ⟨plain.1, plain.2.1, plain.2.2.1⟩

theorem serialize_eq (params : QueryParams) :
    params.serialize = String.ofList (List.intercalate ['&'] (params.map encodePair)) :=
  rfl

/-- A serialized query is ASCII and has no fragment. -/
theorem plain_of_mem_serialize {params : QueryParams} {char : Char}
    (member : char ∈ params.serialize.toList) : char.toNat < 128 ∧ char ≠ '#' := by
  rw [serialize_eq, String.toList_ofList] at member
  rcases mem_of_mem_intercalate member with rfl | ⟨part, isPart, inside⟩
  · decide
  · obtain ⟨pair, -, rfl⟩ := List.mem_map.mp isPart
    have plain := plain_of_mem_encodePair inside
    exact ⟨plain.1, plain.2.1⟩

/-- A serialized query is read back. -/
theorem parse_serialize (params : QueryParams) :
    QueryParams.parse params.serialize = some params := by
  have ascii : ∀ char ∈ List.intercalate ['&'] (params.map encodePair), char.toNat < 128 := by
    intro char member
    have inside : char ∈ params.serialize.toList := by
      rwa [serialize_eq, String.toList_ofList]
    exact (plain_of_mem_serialize inside).1
  have bytes : params.serialize.toUTF8.toList = List.intercalate ['&'.toUInt8]
      (params.map fun pair => (encodePair pair).map Char.toUInt8) := by
    rw [serialize_eq, toUTF8_ofList ascii, map_intercalate, List.map_map]
    rfl
  cases params with
  | nil =>
      rw [QueryParams.parse, bytes]
      rfl
  | cons pair params =>
      rw [QueryParams.parse, bytes, List.splitOn_intercalate _ ?_ (by simp)]
      · rw [List.filter_eq_self.mpr, decodePairs]
        intro part isPart
        obtain ⟨other, -, rfl⟩ := List.mem_map.mp isPart
        simp [encodePair]
      · intro part isPart isAmpersand
        obtain ⟨other, -, rfl⟩ := List.mem_map.mp isPart
        obtain ⟨char, inside, same⟩ := List.mem_map.mp isAmpersand
        exact (plain_of_mem_encodePair inside).2.2 same

end Text

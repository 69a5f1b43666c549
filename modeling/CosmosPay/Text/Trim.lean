import Mathlib.Data.List.DropRight

/-!
# Trimming

`String.prototype.trim` drops white space and line terminators from both ends.
-/

namespace Text

def isSpace (char : Char) : Bool :=
  char.toNat ∈ [9, 10, 11, 12, 13, 32, 0xA0, 0x1680, 0x2028, 0x2029, 0x202F, 0x205F, 0x3000,
      0xFEFF] ||
    (0x2000 ≤ char.toNat && char.toNat ≤ 0x200A)

def trimChars (chars : List Char) : List Char :=
  (chars.dropWhile isSpace).rdropWhile isSpace

def trim (text : String) : String :=
  String.ofList (trimChars text.toList)

/-- No white space at either end. -/
structure Trimmed (chars : List Char) : Prop where
  head : ∀ char ∈ chars.head?, isSpace char = false
  last : ∀ char ∈ chars.getLast?, isSpace char = false

theorem Trimmed.trimChars_eq {chars : List Char} (trimmed : Trimmed chars) :
    trimChars chars = chars := by
  have front : chars.dropWhile isSpace = chars := by
    cases chars with
    | nil => rfl
    | cons char rest =>
        have isText := trimmed.head char rfl
        rw [List.dropWhile_cons, if_neg (by simp [isText])]
  rw [trimChars, front, List.rdropWhile_eq_self_iff]
  intro nonempty
  simp [trimmed.last _ (List.getLast?_eq_some_getLast nonempty)]

theorem trimmed_trimChars (chars : List Char) : Trimmed (trimChars chars) := by
  constructor
  · intro char isHead
    have first : char ∈ (chars.dropWhile isSpace).head? := by
      obtain ⟨rest, split⟩ := List.rdropWhile_prefix isSpace (l := chars.dropWhile isSpace)
      cases kept : trimChars chars with
      | nil =>
          rw [kept] at isHead
          cases isHead
      | cons other others =>
          rw [kept] at isHead
          rw [← split, show List.rdropWhile isSpace (chars.dropWhile isSpace) = other :: others
            from kept]
          exact isHead
    have found := List.head?_dropWhile_not isSpace chars
    rw [Option.mem_def.mp first] at found
    simpa using found
  · intro char isLast
    have nonempty : trimChars chars ≠ [] := by
      intro empty
      rw [empty] at isLast
      cases isLast
    have last := List.rdropWhile_last_not isSpace _ nonempty
    rw [List.getLast?_eq_some_getLast nonempty] at isLast
    obtain rfl := Option.some.inj isLast
    exact Bool.eq_false_iff.mpr last

@[simp]
theorem trim_trim (text : String) : trim (trim text) = trim text := by
  simp [trim, (trimmed_trimChars text.toList).trimChars_eq]

theorem trim_eq_self {text : String} (trimmed : Trimmed text.toList) : trim text = text := by
  rw [trim, trimmed.trimChars_eq, String.ofList_toList]

/-- `String.prototype.toLowerCase`, on ASCII letters. -/
def toLowerCase (text : String) : String :=
  String.ofList (text.toList.map Char.toLower)

end Text

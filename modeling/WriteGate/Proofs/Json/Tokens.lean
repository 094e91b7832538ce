import Mathlib.Data.List.TakeWhile
import WriteGate.Json.Reading
import WriteGate.Json.Writing

/-!
# Strings and numbers read back

The two kinds of token that carry data. A string is written character by
character, each by itself or escaped, and it is read in the same steps, so one
character at a time is enough: whatever stands behind it, the character read is
the one that was written (`readChar?_escapeChar`), and no character is written
so that it would be taken for the end of the string.

A number is written in digits and ends where no character of a number follows.
Its digits have no leading zero, and that of zero is not negative, which is all
that the reading asks for.
-/

namespace WriteGate.Json

/-! ## Characters of strings -/

theorem hexValue?_digitChar : ∀ n < 16, hexValue? (Nat.digitChar n) = some n := by
  decide

/-- **Four digits denote the number that they write.** -/
theorem readFourDigits?_fourDigits {n : Nat} (h : n < 0x10000) (rest : List Char) :
    readFourDigits? (fourDigits n ++ rest) = some (n, rest) := by
  have hfirst := hexValue?_digitChar (n / 4096) (by omega)
  have hsecond := hexValue?_digitChar (n / 256 % 16) (by omega)
  have hthird := hexValue?_digitChar (n / 16 % 16) (by omega)
  have hfourth := hexValue?_digitChar (n % 16) (by omega)
  have hsum : 4096 * (n / 4096) + 256 * (n / 256 % 16) + 16 * (n / 16 % 16) + n % 16 = n := by
    omega
  show readFourDigits? (Nat.digitChar (n / 4096) :: Nat.digitChar (n / 256 % 16)
    :: Nat.digitChar (n / 16 % 16) :: Nat.digitChar (n % 16) :: rest) = some (n, rest)
  simp only [readFourDigits?, hfirst, hsecond, hthird, hfourth, Option.bind_eq_bind,
    Option.bind_some, hsum]

theorem readCodePoint?_fourDigits {c : Char} (h : c.toNat < 0x20) (rest : List Char) :
    readCodePoint? (fourDigits c.toNat ++ rest) = some (c, rest) := by
  have hleading : ¬ (0xD800 ≤ c.toNat ∧ c.toNat < 0xDC00) := by omega
  have htrailing : ¬ (0xDC00 ≤ c.toNat ∧ c.toNat < 0xE000) := by omega
  rw [readCodePoint?, readFourDigits?_fourDigits (by omega)]
  simp only [Option.bind_eq_bind, Option.bind_some, if_neg hleading, if_neg htrailing,
    Char.ofNat_toNat]

/-- **A character is read as it was written**, whatever follows. -/
theorem readChar?_escapeChar (c : Char) (rest : List Char) :
    readChar? (escapeChar c ++ rest) = some (c, rest) := by
  unfold escapeChar
  iterate 7
    split
    · next h => rw [beq_iff_eq.1 h]; rfl
  split
  · next h => exact readCodePoint?_fourDigits h rest
  · next hslash _ _ _ _ _ hcontrol =>
    show readChar? (c :: rest) = some (c, rest)
    unfold readChar?
    dsimp only
    rw [if_neg hslash, if_neg hcontrol]

/-- No character is written with a quotation mark in front. -/
theorem head?_escapeChar (c : Char) : ∃ first tail, escapeChar c = first :: tail ∧ first ≠ '"' := by
  unfold escapeChar
  iterate 8
    split
    · exact ⟨_, _, rfl, by decide⟩
  next hquote _ _ _ _ _ _ _ => exact ⟨c, [], rfl, by simpa using hquote⟩

/-- **The characters of a string are read back**, in as many steps and one more for the
end. -/
theorem readString?_escape {steps : Nat} (read chars rest : List Char)
    (h : chars.length < steps) :
    readString? steps read (chars.flatMap escapeChar ++ '"' :: rest)
      = some (String.ofList (read.reverse ++ chars), rest) := by
  induction chars generalizing steps read with
  | nil =>
    obtain ⟨steps, rfl⟩ := Nat.exists_eq_succ_of_ne_zero (Nat.ne_zero_of_lt h)
    rw [List.append_nil]
    rfl
  | cons c chars ih =>
    obtain ⟨steps, rfl⟩ := Nat.exists_eq_succ_of_ne_zero (Nat.ne_zero_of_lt h)
    obtain ⟨first, tail, htext, hfirst⟩ := head?_escapeChar c
    have hread := readChar?_escapeChar c (chars.flatMap escapeChar ++ '"' :: rest)
    rw [List.flatMap_cons, List.append_assoc]
    rw [htext, List.cons_append] at hread ⊢
    rw [readString?]
    simp only [beq_eq_false_iff_ne.2 hfirst, Bool.false_eq_true, if_false, hread]
    rw [ih (c :: read) (Nat.lt_of_succ_lt_succ h), List.reverse_cons, List.append_assoc]
    rfl

theorem toList_quoted (text : String) :
    (quoted text).toList = '"' :: (text.toList.flatMap escapeChar ++ ['"']) := by
  simp [quoted, String.toList_append]

/-- No string is longer than it is in writing. -/
theorem length_le_length_escape (chars : List Char) :
    chars.length ≤ (chars.flatMap escapeChar).length := by
  induction chars with
  | nil => exact Nat.le_refl 0
  | cons c chars ih =>
    obtain ⟨first, tail, htext, -⟩ := head?_escapeChar c
    rw [List.flatMap_cons, htext]
    simp only [List.length_cons, List.length_append]
    omega

/-- **A string is read back** behind its opening mark. -/
theorem readString?_quoted {steps : Nat} {text : String} (rest : List Char)
    (h : (quoted text).toList.length ≤ steps + 1) :
    readString? steps [] (text.toList.flatMap escapeChar ++ '"' :: rest)
      = some (text, rest) := by
  have hlength := length_le_length_escape text.toList
  rw [toList_quoted, List.length_cons, List.length_append, List.length_singleton] at h
  rw [readString?_escape [] text.toList rest (by omega)]
  simp

/-! ## Numbers -/

/-- The digits of a number begin with a zero only if it is zero. -/
theorem head?_toDigits {n : Nat} (h : 0 < n) : (Nat.toDigits 10 n).head? ≠ some '0' := by
  induction n using Nat.strongRecOn with
  | _ n ih =>
    by_cases hn : n < 10
    · rw [Nat.toDigits_of_lt_base hn]
      simp [Nat.ne_of_gt h]
    · rw [Nat.toDigits_of_base_le (by decide) (by omega),
        List.head?_append, Option.or_of_isSome (by simp [Nat.toDigits_ne_nil])]
      exact ih (n / 10) (by omega) (by omega)

/-- The digits of a number write a whole number without a leading zero. -/
theorem isWhole_toDigits (n : Nat) : isWhole (Nat.toDigits 10 n) = true := by
  by_cases hn : n = 0
  · rw [hn]
    rfl
  · have hhead := head?_toDigits (Nat.pos_of_ne_zero hn)
    cases hdigits : Nat.toDigits 10 n with
    | nil => exact absurd hdigits Nat.toDigits_ne_nil
    | cons first digits =>
      rw [hdigits] at hhead
      have hfirst : first ≠ '0' := fun h => hhead (congrArg some h)
      unfold isWhole
      split
      · next heq => cases heq
      · rfl
      · next heq => cases heq; simpa using hfirst

theorem isDigit_of_mem_toDigits {n : Nat} {c : Char} (h : c ∈ Nat.toDigits 10 n) :
    c.isDigit = true :=
  Nat.isDigit_of_mem_toDigits (by decide) (by decide) h

theorem takeWhile_toDigits (n : Nat) :
    (Nat.toDigits 10 n).takeWhile Char.isDigit = Nat.toDigits 10 n :=
  List.takeWhile_eq_self_iff.2 fun _ => isDigit_of_mem_toDigits

theorem dropWhile_toDigits (n : Nat) : (Nat.toDigits 10 n).dropWhile Char.isDigit = [] :=
  List.dropWhile_eq_nil_iff.2 fun _ => isDigit_of_mem_toDigits

/-- **Digits are a literal of their number.** -/
theorem ofLiteral?_toDigits (n : Nat) : ofLiteral? (Nat.toDigits 10 n) = some (.int n) := by
  have hsign : ((Nat.toDigits 10 n).head? == some '-') = false := by
    rw [beq_eq_false_iff_ne]
    intro h
    exact absurd (isDigit_of_mem_toDigits (List.mem_of_mem_head? h)) (by decide)
  simp [ofLiteral?, hsign, takeWhile_toDigits, dropWhile_toDigits, isWhole_toDigits,
    Nat.ofDigitChars_ten_toDigits]

theorem ofLiteral?_neg_toDigits {n : Nat} (h : 0 < n) :
    ofLiteral? ('-' :: Nat.toDigits 10 n) = some (.int (-n)) := by
  simp [ofLiteral?, takeWhile_toDigits, dropWhile_toDigits, isWhole_toDigits,
    Nat.ofDigitChars_ten_toDigits, Nat.ne_of_gt h]

/-- An integer in writing: its digits, behind a sign if it is negative. -/
theorem toList_toString (i : Int) :
    (toString i).toList = match i with
      | .ofNat n => Nat.toDigits 10 n
      | .negSucc n => '-' :: Nat.toDigits 10 (n + 1) := by
  cases i with
  | ofNat n => exact Nat.toList_repr
  | negSucc n =>
    show ("-" ++ Nat.repr (n + 1)).toList = _
    rw [String.toList_append, Nat.toList_repr]
    rfl

/-- **An integer in writing is a literal of it.** -/
theorem ofLiteral?_toString (i : Int) : ofLiteral? (toString i).toList = some (.int i) := by
  rw [toList_toString]
  cases i with
  | ofNat n => exact ofLiteral?_toDigits n
  | negSucc n => exact ofLiteral?_neg_toDigits (Nat.succ_pos n)

theorem isLiteralChar_of_mem_toString {i : Int} {c : Char} (h : c ∈ (toString i).toList) :
    isLiteralChar c = true := by
  have hdigit : ∀ {n}, c ∈ Nat.toDigits 10 n → isLiteralChar c = true := by
    intro n h
    simp [isLiteralChar, isDigit_of_mem_toDigits h]
  rw [toList_toString] at h
  cases i with
  | ofNat n => exact hdigit h
  | negSucc n =>
    rcases List.mem_cons.1 h with rfl | h
    · rfl
    · exact hdigit h

/-- **Where a token ends**: no character of a number follows. -/
def Delimited (rest : List Char) : Prop := ∀ c ∈ rest.head?, isLiteralChar c = false

/-- **An integer is read back** where it ends. -/
theorem readNumber?_toString (i : Int) {rest : List Char} (h : Delimited rest) :
    readNumber? ((toString i).toList ++ rest) = some (.int i, rest) := by
  have hliteral : ∀ c ∈ (toString i).toList, isLiteralChar c = true :=
    fun c => isLiteralChar_of_mem_toString
  have htake : rest.takeWhile isLiteralChar = [] := by
    cases rest with
    | nil => rfl
    | cons c rest => rw [List.takeWhile_cons_of_neg (by simp [h c rfl])]
  have hdrop : rest.dropWhile isLiteralChar = rest := by
    cases rest with
    | nil => rfl
    | cons c rest => rw [List.dropWhile_cons_of_neg (by simp [h c rfl])]
  rw [readNumber?, List.takeWhile_append_of_pos hliteral, List.dropWhile_append_of_pos hliteral,
    htake, hdrop, List.append_nil, ofLiteral?_toString, Option.map_some]

end WriteGate.Json

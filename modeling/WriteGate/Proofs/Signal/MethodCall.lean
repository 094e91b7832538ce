import Mathlib.Data.List.Forall2
import WriteGate.Proofs.Pattern.Pieces
import WriteGate.Signal.Catalog

/-!
# Calls of methods

Two signals stand for calls of methods, one for those that write and one for
those that encrypt. Both ask for the same shape, a dot, the name of a method
directly behind it, white space or none, and an opening parenthesis, and differ
in the names only. The method that encrypts is spelled in one way. The methods
that write are taken in any letter case, and this reaches one character beyond
ASCII: the long s is a form of the small one, and `writelines` ends in it.

The shape can be read off a text from left to right. A dot begins a call exactly
when the whole word behind it is such a name and the first character behind that
word that is no white space opens a parenthesis. So a name that is longer or
shorter does not count, and neither does one with a space in front of it; but
what is no call at one dot leaves the dots behind it alone.
-/

namespace WriteGate

namespace Text

/-! ## Letters in any case -/

/-- **The forms of a small ASCII letter**: the letter, its capital, and for two letters a
character beyond ASCII. -/
def letterForms (letter : Char) : List Char :=
  [letter, letter.toUpper] ++
    if letter = 's' then ['\u017F'] else if letter = 'k' then ['\u212A'] else []

/-- **A word spelled in any letter case**: each of its characters is a form of the letter in
its place. -/
def SpelledAnyCase (spelling : List Char) (word : String) : Prop :=
  List.Forall₂ (fun c letter => c ∈ letterForms letter) spelling word.toList

theorem mem_letterForms {c letter : Char} :
    c ∈ letterForms letter ↔ (c = letter ∨ c = letter.toUpper)
      ∨ (letter = 's' ∧ c = '\u017F') ∨ (letter = 'k' ∧ c = '\u212A') := by
  unfold letterForms
  split
  · next hs => simp [hs, or_assoc]
  · split
    · next hk => simp [hk, or_assoc]
    · next hs hk => simp [hs, hk]

theorem isLower_iff {c : Char} : c.isLower = true ↔ 0x61 ≤ c.toNat ∧ c.toNat ≤ 0x7A := by
  unfold Char.isLower
  rw [Bool.and_eq_true, decide_eq_true_eq, decide_eq_true_eq]
  rfl

theorem toLower_eq_iff {c letter : Char} (h : letter.isLower = true) :
    c.toLower = letter ↔ c = letter ∨ c = letter.toUpper := by
  rw [isLower_iff] at h
  -- a small letter and its capital have codes 32 apart
  unfold Char.toLower Char.toUpper
  simp only [Char.ext_iff, ← UInt32.toNat_inj, UInt32.le_iff_toNat_le, ge_iff_le]
  split <;> split <;> grind [UInt32.toNat_add, Char.toNat_val]

/-- **A character is folded to a small letter when it is a form of it.** -/
theorem foldCase_eq_iff_mem_letterForms {c letter : Char} (h : letter.isLower = true) :
    foldCase c = letter ↔ c ∈ letterForms letter := by
  have hlower : ∀ d : Char, d.isLower = false → letter ≠ d := by
    rintro d hd rfl
    rw [h] at hd
    cases hd
  rw [mem_letterForms, ← toLower_eq_iff h]
  unfold foldCase
  split
  · next hlong =>
    subst hlong
    simp [hlower '\u017F' (by decide), eq_comm]
  · split
    · next hkelvin =>
      subst hkelvin
      simp [hlower '\u212A' (by decide), eq_comm]
    · next hlong hkelvin => simp [hlong, hkelvin]

/-- The long s and the kelvin sign. -/
example : isLetterCase 's' '\u017F' = true ∧ isLetterCase 'k' '\u212A' = true := by decide

/-- A word of small letters is folded to exactly when it is spelled, in any case. -/
theorem map_foldCase_eq_iff_spelledAnyCase {spelling : List Char} {word : String}
    (h : word.toList.all Char.isLower = true) :
    spelling.map foldCase = word.toList ↔ SpelledAnyCase spelling word := by
  unfold SpelledAnyCase
  generalize word.toList = letters at h
  induction letters generalizing spelling with
  | nil => simp
  | cons letter letters ih =>
    rw [List.all_cons, Bool.and_eq_true] at h
    rw [List.map_eq_cons_iff, List.forall₂_cons_right_iff]
    simp only [foldCase_eq_iff_mem_letterForms h.1, ih h.2]
    constructor
    · rintro ⟨c, rest, rfl, hc, hrest⟩
      exact ⟨c, rest, hc, hrest, rfl⟩
    · rintro ⟨c, rest, hc, hrest, rfl⟩
      exact ⟨c, rest, rfl, hc, hrest⟩

/-! ## Words and white space -/

theorem isWord_eq_false_of_isBlank {c : Char} (h : isBlank c = true) : isWord c = false := by
  have hwords : ∀ n ∈ List.range' 0x09 5 ++ [0x20, 0x85, 0xA0, 0x1680] ++ List.range' 0x2000 11
      ++ [0x2028, 0x2029, 0x202F, 0x205F, 0x3000], isWord (Char.ofNat n) = false := by
    decide +kernel
  rw [← Char.ofNat_toNat c]
  refine hwords _ ?_
  simp only [isBlank, Bool.or_eq_true, Bool.and_eq_true, decide_eq_true_eq, beq_iff_eq] at h
  simp only [List.mem_append, List.mem_range'_1, List.mem_cons, List.not_mem_nil, or_false]
  omega

theorem isWord_of_mem_letterForms {c letter : Char} (h : letter.isLower = true)
    (hc : c ∈ letterForms letter) : isWord c = true := by
  have hwords : ∀ n ∈ List.range' 0x61 26, (letterForms (Char.ofNat n)).all isWord = true := by
    decide +kernel
  rw [isLower_iff] at h
  refine List.all_eq_true.1 (hwords letter.toNat (List.mem_range'_1.2 ?_)) c ?_
  · exact ⟨h.1, Nat.lt_succ_of_le h.2⟩
  · rwa [Char.ofNat_toNat]

/-- A word of small letters is one word in any letter case. -/
theorem SpelledAnyCase.isWord {spelling : List Char} {word : String}
    (hletters : word.toList.all Char.isLower = true) (h : SpelledAnyCase spelling word) :
    ∀ c ∈ spelling, isWord c = true := by
  rw [List.all_eq_true] at hletters
  unfold SpelledAnyCase at h
  generalize word.toList = letters at hletters h
  induction h with
  | nil => exact fun c hc => absurd hc List.not_mem_nil
  | @cons c letter spelling letters hc hrest ih =>
    rw [List.forall_mem_cons] at hletters ⊢
    exact ⟨isWord_of_mem_letterForms hletters.1 hc, ih hletters.2⟩

end Text

namespace Signal

open Pattern

/-! ## The shape of a call -/

/-- **A call of a method** with one of some names, up to the parenthesis of its
arguments. -/
structure MethodCall (IsName : List Char → Prop) where
  /-- The name of the method. -/
  name : List Char
  /-- What stands between the name and the parenthesis. -/
  gap : List Char
  /-- The name is one of those asked for. -/
  isName : IsName name
  /-- There may be white space behind the name. -/
  blank_gap : ∀ c ∈ gap, Text.isBlank c = true

/-- **The text of a call.** -/
def MethodCall.spelling {IsName : List Char → Prop} (call : MethodCall IsName) : List Char :=
  ['.'] ++ call.name ++ call.gap ++ ['(']

/-- The names of methods that write. -/
def IsWritingName (name : List Char) : Prop :=
  Text.SpelledAnyCase name "write" ∨ Text.SpelledAnyCase name "writelines"

/-- The name of the method that encrypts. -/
def IsEncryptingName (name : List Char) : Prop := name = "encrypt".toList

/-- **A text continues a call**: the whole word at its front is one of the names, and the first
character behind that word that is no white space opens a parenthesis. -/
def ContinuesCall (IsName : List Char → Prop) (text : List Char) : Prop :=
  IsName (text.takeWhile Text.isWord)
    ∧ ((text.dropWhile Text.isWord).dropWhile Text.isBlank).head? = some '('

/-! ## Calls in a text -/

variable {IsName : List Char → Prop}

/-- A gap and a parenthesis hold no word at their front. -/
theorem takeWhile_isWord_gap {gap : List Char} (h : ∀ c ∈ gap, Text.isBlank c = true)
    (after : List Char) :
    (gap ++ '(' :: after).takeWhile Text.isWord = []
      ∧ (gap ++ '(' :: after).dropWhile Text.isWord = gap ++ '(' :: after := by
  have hparen : Text.isWord '(' = false := by decide
  cases gap with
  | nil => simp [hparen]
  | cons c gap => simp [Text.isWord_eq_false_of_isBlank (h c (List.mem_cons_self ..))]

/-- **Behind the dot of a call its text is continued.** -/
theorem exists_spelling_append_iff
    (hword : ∀ name, IsName name → ∀ c ∈ name, Text.isWord c = true) {rest : List Char} :
    (∃ (call : MethodCall IsName) (after : List Char), '.' :: rest = call.spelling ++ after) ↔
      ContinuesCall IsName rest := by
  constructor
  · rintro ⟨call, after, h⟩
    have hrest : rest = call.name ++ (call.gap ++ '(' :: after) := by
      simpa [MethodCall.spelling] using h
    obtain ⟨htake, hdrop⟩ := takeWhile_isWord_gap call.blank_gap after
    have hname := hword call.name call.isName
    unfold ContinuesCall
    rw [hrest, List.takeWhile_append_of_pos hname, List.dropWhile_append_of_pos hname, htake,
      hdrop, List.append_nil, List.dropWhile_append_of_pos call.blank_gap]
    exact ⟨call.isName, rfl⟩
  · rintro ⟨hname, hparen⟩
    obtain ⟨after, hafter⟩ := List.head?_eq_some_iff.1 hparen
    refine ⟨⟨rest.takeWhile Text.isWord, (rest.dropWhile Text.isWord).takeWhile Text.isBlank,
      hname, List.all_eq_true.1 List.all_takeWhile⟩, after, ?_⟩
    have hrest : rest = rest.takeWhile Text.isWord ++
        ((rest.dropWhile Text.isWord).takeWhile Text.isBlank ++ '(' :: after) := by
      rw [← hafter, List.takeWhile_append_dropWhile, List.takeWhile_append_dropWhile]
    simpa [MethodCall.spelling] using hrest

/-- **A call stands at the front of a text or behind its first character.** -/
theorem exists_call_cons_iff
    (hword : ∀ name, IsName name → ∀ c ∈ name, Text.isWord c = true) {c : Char}
    {rest : List Char} :
    (∃ (call : MethodCall IsName) (before after : List Char),
        c :: rest = before ++ call.spelling ++ after) ↔
      (c = '.' ∧ ContinuesCall IsName rest)
        ∨ ∃ (call : MethodCall IsName) (before after : List Char),
          rest = before ++ call.spelling ++ after := by
  rw [← exists_spelling_append_iff hword]
  constructor
  · rintro ⟨call, before, after, h⟩
    cases before with
    | nil =>
      obtain ⟨rfl, -⟩ : c = '.' ∧ _ := List.cons_eq_cons.1 h
      exact .inl ⟨rfl, call, after, h⟩
    | cons d before =>
      obtain ⟨-, hrest⟩ := List.cons_eq_cons.1 h
      exact .inr ⟨call, before, after, hrest⟩
  · rintro (⟨rfl, call, after, h⟩ | ⟨call, before, after, rfl⟩)
    · exact ⟨call, [], after, h⟩
    · exact ⟨call, c :: before, after, rfl⟩

/-! ## The patterns -/

variable {before piece after : List Char}

theorem matches_writeMethod_iff :
    writeMethod.Matches before piece after ↔
      ∃ call : MethodCall IsWritingName, piece = call.spelling := by
  have hwrite : "write".toList.all Char.isLower = true := by decide
  have hwritelines : "writelines".toList.all Char.isLower = true := by decide
  simp only [writeMethod, matches_inOrder_cons, matches_exactly, Matches, matches_wordAnyCase,
    Text.map_foldCase_eq_iff_spelledAnyCase hwrite,
    Text.map_foldCase_eq_iff_spelledAnyCase hwritelines, matches_gap, matches_inOrder_nil]
  constructor
  · rintro ⟨_, _, rfl, rfl, name, _, rfl, hname, gap, _, rfl, hgap, _, _, rfl, rfl, rfl⟩
    exact ⟨⟨name, gap, hname, hgap⟩, by simp [MethodCall.spelling]⟩
  · rintro ⟨call, rfl⟩
    simp only [MethodCall.spelling, List.append_assoc]
    exact ⟨_, _, rfl, rfl, call.name, _, rfl, call.isName, call.gap, _, rfl, call.blank_gap,
      _, [], rfl, rfl, rfl⟩

theorem matches_encryptMethod_iff :
    encryptMethod.Matches before piece after ↔
      ∃ call : MethodCall IsEncryptingName, piece = call.spelling := by
  simp only [encryptMethod, matches_inOrder_cons, matches_word, matches_gap, matches_exactly,
    matches_inOrder_nil]
  constructor
  · rintro ⟨_, _, rfl, rfl, gap, _, rfl, hgap, _, _, rfl, rfl, rfl⟩
    exact ⟨⟨"encrypt".toList, gap, rfl, hgap⟩, by simp [MethodCall.spelling]⟩
  · rintro ⟨⟨name, gap, rfl, hgap⟩, rfl⟩
    exact ⟨".encrypt".toList, gap ++ ['('], by simp [MethodCall.spelling], rfl, gap, _, rfl, hgap,
      _, [], rfl, rfl, rfl⟩

/-! ## The signals -/

/-- **A signal that stands for calls** of methods with one of some names. -/
structure StandsForCalls (s : Signal) (IsName : List Char → Prop) : Prop where
  /-- A text carries the signal exactly when such a call stands in it. -/
  carriedBy_iff : ∀ text : String, s.carriedBy text = true ↔
    ∃ (call : MethodCall IsName) (before after : List Char),
      text.toList = before ++ call.spelling ++ after
  /-- Empty text does not carry it. -/
  carriedBy_nil : s.carriedBy "" = false
  /-- Longer text carries it when its first character is the dot of a call, or else when the
  text behind that character carries it. -/
  carriedBy_cons : ∀ (c : Char) (rest : List Char),
    s.carriedBy (String.ofList (c :: rest)) = true ↔
      (c = '.' ∧ ContinuesCall IsName rest) ∨ s.carriedBy (String.ofList rest) = true

/-- A signal stands for calls as soon as its pattern matches calls. -/
theorem StandsForCalls.of_matches {s : Signal}
    (hword : ∀ name, IsName name → ∀ c ∈ name, Text.isWord c = true)
    (h : ∀ before piece after : List Char, s.pattern.Matches before piece after ↔
      ∃ call : MethodCall IsName, piece = call.spelling) :
    s.StandsForCalls IsName := by
  have hcarried : ∀ text : String, s.carriedBy text = true ↔
      ∃ (call : MethodCall IsName) (before after : List Char),
        text.toList = before ++ call.spelling ++ after := by
    intro text
    rw [Signal.carriedBy_iff]
    exact occurs_iff_of_matches h
  refine ⟨hcarried, ?_, ?_⟩
  · rw [← Bool.not_eq_true, hcarried]
    rintro ⟨call, before, after, hnil⟩
    simp [MethodCall.spelling] at hnil
  · intro c rest
    rw [hcarried, hcarried, String.toList_ofList, String.toList_ofList]
    exact exists_call_cons_iff hword

/-- **What calls of methods are, exactly.** One signal stands for the calls of `write` and
`writelines` in any letter case, the other for the calls of `encrypt` as it is spelled.
Nothing else between a dot and a parenthesis makes a call, and every dot of the text may
begin one. -/
theorem method_calls_exactly :
    diskWriteCall.StandsForCalls IsWritingName ∧ encryptCall.StandsForCalls IsEncryptingName := by
  constructor
  · refine .of_matches ?_ fun _ _ _ => matches_writeMethod_iff
    rintro name (hwrite | hwritelines)
    · exact hwrite.isWord (by decide)
    · exact hwritelines.isWord (by decide)
  · refine .of_matches ?_ fun _ _ _ => matches_encryptMethod_iff
    rintro name rfl
    exact List.all_eq_true.1 (by decide)

/-- The long s ends the name of a method that writes; a space behind the dot ends the call, and
the next dot begins another. -/
example : diskWriteCall.carriedBy "out.writeline\u017F (rows)" = true
    ∧ diskWriteCall.carriedBy "out. write(x)" = false
    ∧ diskWriteCall.carriedBy "out. write(x.write\n(y))" = true := by
  decide +kernel

end Signal

end WriteGate

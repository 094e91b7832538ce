import Mathlib.Data.List.DropRight
import WriteGate.Proofs.Pattern.Pieces
import WriteGate.Signal.Catalog

/-!
# Imports of the cryptography package

An import begins a line, up to white space. The pattern of the signal says this
with an anchor to the line and a run of white space behind it, and the run may
cross lines, so the anchor need not be on the line of the import at all. What it
comes to is simpler: on the line of the import itself nothing but white space
stands in front of it. The blank lines that the run can cross add nothing, for
the last of them could have been the one that it begins behind.

Only a line feed begins a line here. Other separators, a lone carriage return
among them, are white space like any other, so an import behind one of them
counts if the line in front of the separator is blank, and not otherwise.
-/

namespace WriteGate

namespace Text

/-! ## Lines that are blank so far -/

/-- **The line that a text ends on**: what stands behind its last line feed, or all of the
text if there is none. -/
def lastLine (text : List Char) : List Char := text.rtakeWhile (· != '\n')

/-- **A text ends on a blank line** when that line is white space so far. -/
def EndsBlank (text : List Char) : Prop := ∀ c ∈ lastLine text, isBlank c = true

theorem endsBlank_nil : EndsBlank [] := fun _ hc => absurd hc List.not_mem_nil

/-- **A line feed begins a blank line, white space continues one**, and nothing else does
either. -/
theorem endsBlank_concat {text : List Char} {c : Char} :
    EndsBlank (text ++ [c]) ↔ c = '\n' ∨ (isBlank c = true ∧ EndsBlank text) := by
  unfold EndsBlank lastLine
  rw [List.rtakeWhile_concat]
  by_cases hc : c = '\n'
  · simp [hc]
  · simp [hc, or_imp, forall_and, and_comm]

theorem endsBlank_append {text gap : List Char} (h : EndsBlank text)
    (hgap : ∀ c ∈ gap, isBlank c = true) : EndsBlank (text ++ gap) := by
  induction gap using List.reverseRecOn with
  | nil => rwa [List.append_nil]
  | append_singleton gap c ih =>
    rw [List.forall_mem_append] at hgap
    rw [← List.append_assoc, endsBlank_concat]
    exact .inr ⟨hgap.2 c (List.mem_singleton_self c), ih hgap.1⟩

/-- A text that ends on a blank line does so without what stands in front. -/
theorem EndsBlank.of_append {front text : List Char} (h : EndsBlank (front ++ text)) :
    EndsBlank text := by
  induction text using List.reverseRecOn with
  | nil => exact endsBlank_nil
  | append_singleton text c ih =>
    rw [← List.append_assoc, endsBlank_concat] at h
    rw [endsBlank_concat]
    exact h.imp_right (And.imp_right ih)

theorem EndsBlank.append_left {front text : List Char} (h : EndsBlank text)
    (hfront : ∀ c ∈ front, isBlank c = true) : EndsBlank (front ++ text) := by
  induction text using List.reverseRecOn with
  | nil =>
    rw [List.append_nil, ← List.nil_append front]
    exact endsBlank_append endsBlank_nil hfront
  | append_singleton text c ih =>
    rw [endsBlank_concat] at h
    rw [← List.append_assoc, endsBlank_concat]
    exact h.imp_right (And.imp_right ih)

/-- **A blank line is white space behind the beginning of a line.** -/
theorem endsBlank_iff_exists {text : List Char} :
    EndsBlank text ↔ ∃ front gap, text = front ++ gap
      ∧ (front = [] ∨ front.getLast? = some '\n')
      ∧ ∀ c ∈ gap, isBlank c = true ∧ c ≠ '\n' := by
  constructor
  · intro h
    induction text using List.reverseRecOn with
    | nil => exact ⟨[], [], rfl, .inl rfl, fun c hc => absurd hc List.not_mem_nil⟩
    | append_singleton text c ih =>
      by_cases hc : c = '\n'
      · -- the line begins here
        refine ⟨text ++ [c], [], (List.append_nil _).symm, .inr ?_, fun d hd => ?_⟩
        · rw [hc, List.getLast?_concat]
        · exact absurd hd List.not_mem_nil
      · obtain ⟨hblank, htext⟩ := (endsBlank_concat.1 h).resolve_left hc
        obtain ⟨front, gap, rfl, hstart, hgap⟩ := ih htext
        refine ⟨front, gap ++ [c], List.append_assoc .., hstart, ?_⟩
        rw [List.forall_mem_append]
        exact ⟨hgap, List.forall_mem_singleton.2 ⟨hblank, hc⟩⟩
  · rintro ⟨front, gap, rfl, hstart, hgap⟩
    refine endsBlank_append ?_ fun c hc => (hgap c hc).1
    rcases List.eq_nil_or_concat front with rfl | ⟨init, c, rfl⟩
    · exact endsBlank_nil
    · rw [List.concat_eq_append] at hstart ⊢
      refine endsBlank_concat.2 (.inl ?_)
      simpa using hstart

end Text

namespace Signal

open Pattern

/-! ## The shape of an import -/

/-- **An import that names the package first.** -/
structure CryptographyImport where
  /-- The keyword. -/
  keyword : List Char
  /-- What stands between the keyword and the name of the package. -/
  gap : List Char
  /-- There are two keywords for imports. -/
  keyword_eq : keyword = "from".toList ∨ keyword = "import".toList
  /-- Something stands behind the keyword. -/
  gap_ne_nil : gap ≠ []
  /-- It is white space, line ends included. -/
  blank_gap : ∀ c ∈ gap, Text.isBlank c = true

/-- **The text of an import.** -/
def CryptographyImport.spelling (i : CryptographyImport) : List Char :=
  i.keyword ++ i.gap ++ "cryptography".toList

/-- An import stands at the front of no white space. -/
theorem CryptographyImport.exists_spelling_eq_cons (i : CryptographyImport) :
    ∃ c rest, i.spelling = c :: rest ∧ Text.isBlank c = false := by
  unfold spelling
  rcases i.keyword_eq with h | h
  · rw [h]
    exact ⟨'f', _, rfl, by decide⟩
  · rw [h]
    exact ⟨'i', _, rfl, by decide⟩

theorem CryptographyImport.endsInWord (i : CryptographyImport) (before : List Char) :
    EndsInWord (before ++ i.spelling) := by
  refine ⟨'y', ?_, by decide⟩
  simp [spelling]

/-! ## The pattern with any white space in front -/

/-- The pattern of imports, with some characters in front of them on their line. -/
def importBehind (indent : Char → Bool) : Pattern :=
  inOrder
    [lineStart, run indent,
      either (inOrder [word "from", space, word "cryptography"])
        (inOrder [word "import", space, word "cryptography"]),
      wordBoundary]

variable {before piece after text : List Char} {indent : Char → Bool}

theorem matches_keyword_iff :
    (either (inOrder [word "from", space, word "cryptography"])
        (inOrder [word "import", space, word "cryptography"])).Matches before piece after ↔
      ∃ i : CryptographyImport, piece = i.spelling := by
  simp only [Matches, matches_inOrder_cons, matches_word, matches_space, matches_inOrder_nil]
  constructor
  · rintro (⟨_, _, rfl, rfl, gap, _, rfl, ⟨hne, hgap⟩, _, _, rfl, rfl, rfl⟩
      | ⟨_, _, rfl, rfl, gap, _, rfl, ⟨hne, hgap⟩, _, _, rfl, rfl, rfl⟩)
    · exact ⟨⟨_, gap, .inl rfl, hne, hgap⟩, by simp [CryptographyImport.spelling]⟩
    · exact ⟨⟨_, gap, .inr rfl, hne, hgap⟩, by simp [CryptographyImport.spelling]⟩
  · rintro ⟨⟨keyword, gap, hkeyword, hne, hgap⟩, rfl⟩
    simp only [CryptographyImport.spelling, List.append_assoc]
    exact hkeyword.imp
      (fun h => ⟨_, _, rfl, h, _, _, rfl, ⟨hne, hgap⟩, _, [], rfl, rfl, rfl⟩)
      (fun h => ⟨_, _, rfl, h, _, _, rfl, ⟨hne, hgap⟩, _, [], rfl, rfl, rfl⟩)

theorem matches_importBehind_iff :
    (importBehind indent).Matches before piece after ↔
      ∃ (front : List Char) (i : CryptographyImport), piece = front ++ i.spelling
        ∧ (before = [] ∨ before.getLast? = some '\n') ∧ (∀ c ∈ front, indent c = true)
        ∧ ¬ BeginsWithWord after := by
  unfold importBehind
  simp only [matches_inOrder_cons, matches_keyword_iff, matches_inOrder_nil]
  constructor
  · rintro ⟨_, _, rfl, ⟨rfl, hstart⟩, front, _, rfl, hfront, _, _, rfl, ⟨i, rfl⟩, _, _, rfl,
      ⟨rfl, hboundary⟩, rfl⟩
    have hend := i.endsInWord (before ++ [] ++ front)
    refine ⟨front, i, by simp, hstart, hfront, fun hword => ?_⟩
    exact hboundary (iff_of_true hend (by simpa using hword))
  · rintro ⟨front, i, rfl, hstart, hfront, hword⟩
    have hend := i.endsInWord (before ++ [] ++ front)
    refine ⟨[], _, rfl, ⟨rfl, hstart⟩, front, _, rfl, hfront, i.spelling, [], by simp,
      ⟨i, rfl⟩, [], [], rfl, ⟨rfl, fun h => ?_⟩, rfl⟩
    exact hword (by simpa using h.1 hend)

/-- **An import counts where its line is blank in front of it** and no word goes on behind it.
It does not matter whether the pattern lets the white space in front cross lines. -/
theorem occurs_importBehind_iff (hblank : ∀ c, indent c = true → Text.isBlank c = true)
    (hline : ∀ c, Text.isBlank c = true → c ≠ '\n' → indent c = true) :
    (importBehind indent).Occurs text ↔
      ∃ (i : CryptographyImport) (before after : List Char),
        text = before ++ i.spelling ++ after ∧ Text.EndsBlank before ∧ ¬ BeginsWithWord after := by
  unfold Occurs
  simp only [matches_importBehind_iff]
  constructor
  · rintro ⟨start, _, after, rfl, front, i, rfl, hstart, hfront, hword⟩
    refine ⟨i, start ++ front, after, by simp, ?_, hword⟩
    have hempty : Text.EndsBlank start :=
      Text.endsBlank_iff_exists.2 ⟨start, [], (List.append_nil _).symm, hstart,
        fun c hc => absurd hc List.not_mem_nil⟩
    exact Text.endsBlank_append hempty fun c hc => hblank c (hfront c hc)
  · rintro ⟨i, before, after, rfl, hbefore, hword⟩
    obtain ⟨start, front, rfl, hstart, hfront⟩ := Text.endsBlank_iff_exists.1 hbefore
    refine ⟨start, front ++ i.spelling, after, by simp, front, i, rfl, hstart, ?_, hword⟩
    exact fun c hc => hline c (hfront c hc).1 (hfront c hc).2

/-- **A text imports the package exactly when an import that counts stands in it.** -/
theorem carriedBy_cryptoImport_iff (text : String) :
    cryptoImport.carriedBy text = true ↔
      ∃ (i : CryptographyImport) (before after : List Char),
        text.toList = before ++ i.spelling ++ after ∧ Text.EndsBlank before
          ∧ ¬ BeginsWithWord after := by
  rw [carriedBy_iff]
  show (importBehind Text.isBlank).Occurs text.toList ↔ _
  exact occurs_importBehind_iff (fun _ h => h) (fun _ h _ => h)

/-- **White space at the front of a text changes nothing**, the blank lines in it
included. -/
theorem exists_import_append_iff {front : List Char}
    (hfront : ∀ c ∈ front, Text.isBlank c = true) (text : List Char) :
    (∃ (i : CryptographyImport) (before after : List Char),
        front ++ text = before ++ i.spelling ++ after ∧ Text.EndsBlank before
          ∧ ¬ BeginsWithWord after) ↔
      ∃ (i : CryptographyImport) (before after : List Char),
        text = before ++ i.spelling ++ after ∧ Text.EndsBlank before
          ∧ ¬ BeginsWithWord after := by
  constructor
  · rintro ⟨i, before, after, htext, hbefore, hword⟩
    rw [List.append_assoc] at htext
    rcases List.append_eq_append_iff.1 htext with ⟨z, rfl, rfl⟩ | ⟨z, rfl, hz⟩
    · exact ⟨i, z, after, (List.append_assoc ..).symm, hbefore.of_append, hword⟩
    · cases z with
      | nil => exact ⟨i, [], after, hz.symm, Text.endsBlank_nil, hword⟩
      | cons c z =>
        -- the import would begin with white space
        obtain ⟨d, rest, hspelling, hd⟩ := i.exists_spelling_eq_cons
        rw [hspelling] at hz
        obtain ⟨rfl, -⟩ := List.cons_eq_cons.1 hz
        have hblank := hfront d (List.mem_append_right before (List.mem_cons_self ..))
        rw [hd] at hblank
        cases hblank
  · rintro ⟨i, before, after, rfl, hbefore, hword⟩
    exact ⟨i, front ++ before, after, by simp only [List.append_assoc],
      hbefore.append_left hfront, hword⟩

/-- A text imports the package exactly when it does so without the white space at its
front. -/
theorem carriedBy_dropWhile_isBlank (text : String) :
    cryptoImport.carriedBy (String.ofList (text.toList.dropWhile Text.isBlank)) =
      cryptoImport.carriedBy text := by
  have hfront : ∀ c ∈ text.toList.takeWhile Text.isBlank, Text.isBlank c = true :=
    List.all_eq_true.1 List.all_takeWhile
  have htext := exists_import_append_iff hfront (text.toList.dropWhile Text.isBlank)
  rw [List.takeWhile_append_dropWhile] at htext
  rw [Bool.eq_iff_iff, carriedBy_cryptoImport_iff, carriedBy_cryptoImport_iff,
    String.toList_ofList]
  exact htext.symm

/-- **What imports the package, exactly.** A text carries the signal when an import with one of
the two keywords stands in it, in front of which its own line is blank and behind which no
word goes on. Which of the white space in front the pattern takes makes no difference, and
white space at the front of the text changes nothing. A line feed begins a blank line; other
white space, a carriage return included, only continues one, and whatever is no white space
ends it. -/
theorem imports_exactly :
    (∀ text : String, cryptoImport.carriedBy text = true ↔
        ∃ (i : CryptographyImport) (before after : List Char),
          text.toList = before ++ i.spelling ++ after ∧ Text.EndsBlank before
            ∧ ¬ BeginsWithWord after)
      ∧ (∀ text : List Char, cryptoImport.pattern.Occurs text ↔
        (importBehind fun c => Text.isBlank c && c != '\n').Occurs text)
      ∧ (∀ text : String,
        cryptoImport.carriedBy (String.ofList (text.toList.dropWhile Text.isBlank)) =
          cryptoImport.carriedBy text)
      ∧ ∀ (line : List Char) (c : Char),
        Text.EndsBlank (line ++ [c]) ↔
          c = '\n' ∨ (Text.isBlank c = true ∧ Text.EndsBlank line) := by
  refine ⟨carriedBy_cryptoImport_iff, fun text => ?_, carriedBy_dropWhile_isBlank,
    fun _ _ => Text.endsBlank_concat⟩
  show (importBehind Text.isBlank).Occurs text ↔ _
  rw [occurs_importBehind_iff (fun _ h => h) (fun _ h _ => h), occurs_importBehind_iff]
  · intro c h
    exact ((Bool.and_eq_true _ _).mp h).1
  · intro c hblank hfeed
    exact (Bool.and_eq_true _ _).mpr ⟨hblank, bne_iff_ne.2 hfeed⟩

/-- A carriage return begins no line, and a line feed may stand within an import. -/
example : cryptoImport.carriedBy "x = 1\rimport cryptography" = false
    ∧ cryptoImport.carriedBy "\r\n\r import\n\ncryptography" = true := by
  decide +kernel

end Signal

end WriteGate

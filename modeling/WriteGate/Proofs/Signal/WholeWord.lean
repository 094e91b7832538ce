import Mathlib.Data.List.Infix
import Mathlib.Data.List.SplitBy
import WriteGate.Proofs.Pattern.Pieces
import WriteGate.Proofs.Pattern.Surroundings
import WriteGate.Signal.Catalog

/-!
# Names that stand by themselves

A text falls into *stretches*: maximal runs of word characters, and between them
maximal runs of other characters. Every word boundary is a cut between two
stretches, and every cut is a word boundary. So a name that begins and ends with
a word character, asked for between two boundaries, is not searched for among
all the pieces of the text. It stands there exactly when its own stretches are
stretches of the text, one behind the other: for a plain name one stretch, for a
name with a dot in it three, of which the dot is the middle one.

None of these names runs over a line, so whether one stands in a text is a
question for each of its lines.
-/

namespace WriteGate

namespace Text

/-! ## Stretches -/

/-- Whether two characters are both word characters or both not. -/
def sameKind (c d : Char) : Bool := isWord c == isWord d

/-- **The stretches of a text**: its maximal runs of word characters and of other characters,
in order. -/
def stretches (text : List Char) : List (List Char) := text.splitBy sameKind

/-- **A cut into stretches.** -/
structure IsCut (text : List Char) (runs : List (List Char)) : Prop where
  /-- The stretches make up the text. -/
  flatten : runs.flatten = text
  /-- There are no empty ones. -/
  nonempty : [] ∉ runs
  /-- The characters of a stretch are word characters, all or none. -/
  uniform : ∀ run ∈ runs, (∀ c ∈ run, isWord c = true) ∨ ∀ c ∈ run, isWord c = false
  /-- Where one stretch ends and the next begins, one of the neighbours is a word character
  and the other is not. -/
  alternate : runs.IsChain fun run next =>
    ∃ c ∈ run.getLast?, ∃ d ∈ next.head?, isWord c ≠ isWord d

/-- Characters of one kind with their neighbours are all of one kind, and the other way
round. -/
theorem isChain_sameKind_iff {run : List Char} :
    (run.IsChain fun c d => sameKind c d = true) ↔
      (∀ c ∈ run, isWord c = true) ∨ ∀ c ∈ run, isWord c = false := by
  induction run with
  | nil => simp
  | cons c run ih =>
    cases run with
    | nil => simp
    | cons d run =>
      rw [List.isChain_cons_cons, ih]
      simp only [sameKind, beq_iff_eq, List.forall_mem_cons]
      cases isWord c <;> cases isWord d <;> simp

/-- Neighbours of different kinds, where one run ends and the next begins. -/
theorem exists_isWord_ne_iff {run next : List Char} :
    (∃ c ∈ run.getLast?, ∃ d ∈ next.head?, isWord c ≠ isWord d) ↔
      ∃ hrun hnext, sameKind (run.getLast hrun) (next.head hnext) = false := by
  constructor
  · rintro ⟨c, hc, d, hd, hne⟩
    refine ⟨List.ne_nil_of_mem (List.mem_of_mem_getLast? hc),
      List.ne_nil_of_mem (List.mem_of_mem_head? hd), ?_⟩
    rw [List.getLast_of_mem_getLast? hc, List.head_of_mem_head? hd]
    simpa [sameKind] using hne
  · rintro ⟨hrun, hnext, hkind⟩
    refine ⟨_, List.getLast_mem_getLast? hrun, _, List.head_mem_head? hnext, ?_⟩
    simpa [sameKind] using hkind

/-- **There is one cut into stretches.** -/
theorem isCut_iff {text : List Char} {runs : List (List Char)} :
    IsCut text runs ↔ stretches text = runs := by
  unfold stretches
  rw [List.splitBy_eq_iff]
  constructor
  · rintro ⟨hflatten, hnonempty, huniform, hchain⟩
    refine ⟨hflatten.symm, hnonempty, ?_, hchain.imp fun _ _ => exists_isWord_ne_iff.1⟩
    exact fun run hrun => isChain_sameKind_iff.2 (huniform run hrun)
  · rintro ⟨hflatten, hnonempty, huniform, hchain⟩
    refine ⟨hflatten.symm, hnonempty, ?_, hchain.imp fun _ _ => exists_isWord_ne_iff.2⟩
    exact fun run hrun => isChain_sameKind_iff.1 (huniform run hrun)

end Text

namespace Pattern

open Text

/-! ## Boundaries are cuts -/

/-- **At a word boundary a text is cut.** -/
theorem stretches_append {left right : List Char}
    (h : ¬ (EndsInWord left ↔ BeginsWithWord right)) :
    stretches (left ++ right) = stretches left ++ stretches right := by
  refine List.splitBy_append fun c hc d hd => ?_
  rw [Option.mem_def] at hc hd
  have hleft : EndsInWord left ↔ isWord c = true := by
    simp [EndsInWord, hc]
  have hright : BeginsWithWord right ↔ isWord d = true := by
    simp [BeginsWithWord, hd]
  rw [hleft, hright, ← Bool.eq_iff_iff] at h
  simpa [sameKind] using h

/-- **Across a cut no word goes on**: not both neighbours are word characters. -/
theorem not_within_word {text : List Char} {front back : List (List Char)}
    (h : stretches text = front ++ back) :
    ¬ (EndsInWord front.flatten ∧ BeginsWithWord back.flatten) := by
  rintro ⟨⟨c, hc, hcword⟩, ⟨d, hd, hdword⟩⟩
  obtain ⟨-, hnonempty, -, halternate⟩ := isCut_iff.2 h
  rcases List.eq_nil_or_concat front with rfl | ⟨init, run, rfl⟩
  · cases hc
  · cases back with
    | nil => cases hd
    | cons next rest =>
      -- the neighbours are the last character of one stretch and the first of the next
      rw [List.concat_eq_append] at *
      have hrun : run ≠ [] := by
        rintro rfl
        simp at hnonempty
      have hnext : next ≠ [] := by
        rintro rfl
        simp at hnonempty
      rw [List.flatten_append, List.flatten_singleton, List.getLast?_append_of_ne_nil _ hrun] at hc
      rw [List.flatten_cons, List.head?_append_of_ne_nil _ hnext] at hd
      obtain ⟨c', hc', d', hd', hne⟩ := (List.isChain_append.1 halternate).2.2 run
        (by simp) next (by simp)
      rw [Option.mem_def, hc, Option.some.injEq] at hc'
      rw [Option.mem_def, hd, Option.some.injEq] at hd'
      rw [← hc', ← hd', hcword, hdword] at hne
      exact hne rfl

end Pattern

namespace Signal

open Pattern Text

/-! ## Names -/

theorem beginsWithWord_append_of_left {left : List Char} (h : BeginsWithWord left)
    (right : List Char) : BeginsWithWord (left ++ right) := by
  obtain ⟨c, hc, hword⟩ := h
  exact ⟨c, by simp [hc], hword⟩

theorem endsInWord_append_of_right {right : List Char} (h : EndsInWord right)
    (left : List Char) : EndsInWord (left ++ right) := by
  obtain ⟨c, hc, hword⟩ := h
  exact ⟨c, by simp [hc], hword⟩

theorem matches_wholeWord_iff {name : String} {before piece after : List Char} :
    (wholeWord name).Matches before piece after ↔
      piece = name.toList ∧ ¬ (EndsInWord before ↔ BeginsWithWord (piece ++ after))
        ∧ ¬ (EndsInWord (before ++ piece) ↔ BeginsWithWord after) := by
  unfold wholeWord
  simp only [matches_inOrder_cons, matches_word, matches_inOrder_nil]
  constructor
  · rintro ⟨_, _, rfl, ⟨rfl, hfront⟩, _, _, rfl, rfl, _, _, rfl, ⟨rfl, hback⟩, rfl⟩
    simp only [List.nil_append, List.append_nil] at hfront hback ⊢
    exact ⟨trivial, hfront, hback⟩
  · rintro ⟨rfl, hfront, hback⟩
    refine ⟨[], _, rfl, ⟨rfl, hfront⟩, _, [], (List.append_nil _).symm, rfl, [], [], rfl,
      ⟨rfl, ?_⟩, rfl⟩
    simp only [List.nil_append, List.append_nil]
    exact hback

/-- **A name stands by itself exactly when its stretches are stretches of the text**, one
behind the other. -/
theorem occurs_wholeWord_iff {name : String} (hfront : BeginsWithWord name.toList)
    (hback : EndsInWord name.toList) {text : List Char} :
    (wholeWord name).Occurs text ↔ stretches name.toList <:+: stretches text := by
  have hflatten := (isCut_iff.2 (rfl : stretches name.toList = _)).flatten
  unfold Occurs
  simp only [matches_wholeWord_iff]
  constructor
  · rintro ⟨before, _, after, rfl, rfl, hbefore, hafter⟩
    have hname := beginsWithWord_append_of_left hfront after
    have hcut : ¬ (EndsInWord before ↔ BeginsWithWord name.toList) := by
      rwa [iff_true_intro hfront, ← iff_true_intro hname]
    exact ⟨stretches before, stretches after,
      by rw [stretches_append hafter, stretches_append hcut]⟩
  · rintro ⟨front, back, htext⟩
    have hwhole : text = front.flatten ++ name.toList ++ back.flatten := by
      rw [← (isCut_iff.2 htext.symm).flatten, List.flatten_append, List.flatten_append, hflatten]
    refine ⟨front.flatten, name.toList, back.flatten, hwhole, rfl, fun h => ?_, fun h => ?_⟩
    · -- a word would go on into the name
      have hcut : stretches text = front ++ (stretches name.toList ++ back) := by
        rw [← htext, List.append_assoc]
      have hname := beginsWithWord_append_of_left hfront back.flatten
      refine not_within_word hcut ⟨h.2 hname, ?_⟩
      rwa [List.flatten_append, hflatten]
    · -- a word would go on behind the name
      have hname := endsInWord_append_of_right hback front.flatten
      refine not_within_word htext.symm ⟨?_, h.1 hname⟩
      rwa [List.flatten_append, hflatten]

/-- A name of one stretch stands by itself exactly when it is a stretch of the text. -/
theorem occurs_wholeWord_iff_mem {name : String} (hfront : BeginsWithWord name.toList)
    (hback : EndsInWord name.toList) (hname : stretches name.toList = [name.toList])
    {text : List Char} : (wholeWord name).Occurs text ↔ name.toList ∈ stretches text := by
  rw [occurs_wholeWord_iff hfront hback, hname]
  exact List.singleton_infix_iff ..

/-- Whether a text carries one of the signals for names is a question for each of its lines. -/
theorem carriedBy_lines {s : Signal} (hs : s.pattern.staysOnLine = true) (front back : String) :
    s.carriedBy (front ++ "\n" ++ back) = (s.carriedBy front || s.carriedBy back) := by
  have htext : (front ++ "\n" ++ back).toList = front.toList ++ '\n' :: back.toList := by
    rw [String.toList_append, String.toList_append, List.append_assoc]
    rfl
  rw [Bool.eq_iff_iff, Bool.or_eq_true, carriedBy_iff, carriedBy_iff, carriedBy_iff, htext]
  exact occurs_lines_iff hs

/-- **Names are whole words.** The stretches of a text are its one cut into maximal runs of
word characters and of others. The cipher is named exactly when its name is a stretch. A
wrapper is named exactly when `secure_save` is one, or when `SecureStorage` and `save` are
stretches with a single dot for the stretch between them. Both are questions for each line
of the text. -/
theorem names_are_whole_words :
    (∀ (text : List Char) (runs : List (List Char)), IsCut text runs ↔ stretches text = runs)
      ∧ (∀ text : String, cipherIdentifier.carriedBy text = true ↔
        "Fernet".toList ∈ stretches text.toList)
      ∧ (∀ text : String, safeWrapper.carriedBy text = true ↔
        "secure_save".toList ∈ stretches text.toList
          ∨ ["SecureStorage".toList, ['.'], "save".toList] <:+: stretches text.toList)
      ∧ ∀ s ∈ [cipherIdentifier, safeWrapper], ∀ front back : String,
        s.carriedBy (front ++ "\n" ++ back) = (s.carriedBy front || s.carriedBy back) := by
  refine ⟨fun _ _ => isCut_iff, fun text => ?_, fun text => ?_, fun s hs => carriedBy_lines ?_⟩
  · rw [carriedBy_iff]
    exact occurs_wholeWord_iff_mem ⟨'F', rfl, by decide⟩ ⟨'t', rfl, by decide⟩ (by decide)
  · rw [carriedBy_iff]
    show (either (wholeWord "secure_save") (wholeWord "SecureStorage.save")).Occurs _ ↔ _
    have hdotted : stretches "SecureStorage.save".toList =
        ["SecureStorage".toList, ['.'], "save".toList] := by decide
    rw [occurs_either_iff, ← hdotted, occurs_wholeWord_iff_mem ⟨'s', rfl, by decide⟩
      ⟨'e', rfl, by decide⟩ (by decide), occurs_wholeWord_iff ⟨'S', rfl, by decide⟩
      ⟨'e', rfl, by decide⟩]
  · revert hs
    cases s <;> decide +kernel

/-- A letter with an accent of its own behind the name is part of the word. -/
example : cipherIdentifier.carriedBy "Fernet\u0301" = false
    ∧ safeWrapper.carriedBy "x=SecureStorage.save(y)" = true
    ∧ safeWrapper.carriedBy "SecureStorage. save" = false := by
  decide +kernel

end Signal

end WriteGate

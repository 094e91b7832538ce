import WriteGate.Proofs.Pattern.Edges
import WriteGate.Proofs.Text.Newline

/-!
# Matches under the reading of line ends

A text and its reading differ in their line ends only, and most patterns do not
tell line ends apart. This module says which patterns keep their matches on the
way from a text to its reading, and which on the way back.

The two ways ask for different things. On the way back a line feed may turn out
to be a carriage return or a pair of both, so a pattern must take a carriage
return wherever it takes a line feed. On the way to the reading carriage returns
become line feeds, so it is the other way round; and here two characters may
become one. A match that is cut between them, or begins or ends there, has no
counterpart unless its edges rule that out.

An anchor to the line is kept on the way to the reading, where lines only become
more, and a word boundary on both, since line ends of any kind are no part of
words.
-/

namespace WriteGate

open Text

/-! ## The surroundings -/

theorem Text.isWord_feed (c : Char) : isWord (feed c) = isWord c := by
  by_cases hc : c = '\r'
  · subst hc
    decide
  · rw [feed_of_ne hc]

/-- A neighbour that is a line end is no word character, whichever line end it is. -/
theorem Text.exists_isWord_feed_iff (neighbour : Option Char) :
    (∃ c, neighbour.map feed = some c ∧ isWord c = true) ↔
      ∃ c, neighbour = some c ∧ isWord c = true := by
  cases neighbour with
  | none => simp
  | some c => simp [isWord_feed]

namespace Pattern

theorem endsInWord_iff_of_readsAs {text reading : List Char} (h : ReadsAs text reading) :
    EndsInWord reading ↔ EndsInWord text := by
  unfold EndsInWord
  rw [h.getLast?_eq]
  exact exists_isWord_feed_iff text.getLast?

theorem beginsWithWord_iff_of_readsAs {text reading : List Char} (h : ReadsAs text reading) :
    BeginsWithWord reading ↔ BeginsWithWord text := by
  unfold BeginsWithWord
  rw [h.head?_eq]
  exact exists_isWord_feed_iff text.head?

theorem lineStart_of_readsAs {text reading : List Char} (h : ReadsAs text reading)
    (hstart : text = [] ∨ text.getLast? = some '\n') :
    reading = [] ∨ reading.getLast? = some '\n' := by
  rcases hstart with rfl | hlast
  · cases h
    exact .inl rfl
  · refine .inr ?_
    rw [h.getLast?_eq, hlast]
    rfl

/-! ## From a text to its reading -/

/-- Whether a class that takes a carriage return also takes a line feed. -/
def takesFeed (accepts : Char → Bool) : Bool := !accepts '\r' || accepts '\n'

/-- Whether a pattern is a single character. -/
def isOne : Pattern → Bool
  | one _ => true
  | _ => false

/-- Whether a pattern is a run. -/
def isRun : Pattern → Bool
  | run _ => true
  | _ => false

/-- **Whether the matches of a pattern carry over** from a text to its reading. In a
sequence no cut may part a pair, unless one character stands before the cut and a run
behind it: then the character takes the place of the pair, and the run is shorter. -/
def carriesOver : Pattern → Bool
  | empty => true
  | one accepts => takesFeed accepts
  | run accepts => takesFeed accepts
  | andThen first second =>
    first.carriesOver && second.carriesOver
      && ((first.isOne && second.isRun) || !(first.mayEnd '\r' && second.mayBegin '\n'))
  | either first second => first.carriesOver && second.carriesOver
  | lineStart => true
  | wordBoundary => true

/-- A run of a text is a run of its reading. -/
theorem forall_mem_of_takesFeed {accepts : Char → Bool} (haccepts : takesFeed accepts = true)
    {text reading : List Char} (h : ReadsAs text reading)
    (hall : ∀ c ∈ text, accepts c = true) : ∀ c ∈ reading, accepts c = true := by
  intro c hc
  rcases h.mem_text_of_mem hc with hc | ⟨rfl, hreturn⟩
  · exact hall c hc
  · have hr := hall _ hreturn
    simpa [takesFeed, hr] using haccepts

/-- A single character of a text is one of its reading. -/
theorem exists_eq_singleton_of_readsAs {c : Char} {reading : List Char}
    (h : ReadsAs [c] reading) : ∃ d, reading = [d] := by
  cases h with
  | same _ hrest =>
    cases hrest
    exact ⟨c, rfl⟩
  | single hrest =>
    cases hrest
    exact ⟨'\n', rfl⟩

/-- Where one character and a run behind it stand on the two sides of a pair, the character
takes the place of the pair, and the run is shorter. -/
theorem matches_andThen_of_partsPair {first second : Pattern} (hone : first.isOne = true)
    (hrun : second.isRun = true) (hp₁ : first.carriesOver = true)
    (hp₂ : second.carriesOver = true)
    {before before' left right piece' after after' behind : List Char}
    (hparts : ReadsAs.PartsPair left right piece') (hfirst : first.Matches before left behind)
    (hsecond : second.Matches (before ++ left) right after) :
    (first.andThen second).Matches before' piece' after' := by
  obtain ⟨left, right, x, y, rfl, rfl, rfl, hx, hy⟩ := hparts
  cases first with
  | one accepts =>
    cases second with
    | run accepts' =>
      obtain ⟨c, hc, haccepts⟩ := hfirst
      obtain rfl : left = [] := by simpa using congrArg List.length hc
      cases hc
      cases hx
      have hfeed : accepts '\n' = true := by
        simpa [carriesOver, takesFeed, haccepts] using hp₁
      refine ⟨['\n'], y, rfl, ⟨'\n', rfl, hfeed⟩, ?_⟩
      exact forall_mem_of_takesFeed hp₂ hy (fun d hd => hsecond d (List.mem_cons_of_mem _ hd))
    | _ => cases hrun
  | _ => cases hone

/-- Matches with other edges than those of a pair stand on the two sides of none. -/
theorem not_partsPair_of_matches {first second : Pattern}
    (hedges : (!(first.mayEnd '\r' && second.mayBegin '\n')) = true)
    {before left right behind front after reading : List Char}
    (hfirst : first.Matches before left behind) (hsecond : second.Matches front right after) :
    ¬ ReadsAs.PartsPair left right reading := by
  rintro ⟨left, right, x, y, rfl, rfl, -, -, -⟩
  have hend := mayEnd_of_matches hfirst
  have hbegin := mayBegin_of_matches hsecond
  simp [hend, hbegin] at hedges

/-- **A match carries over to the reading** if it stands between cuts that part no
pair. -/
theorem matches_of_carriesOver {p : Pattern} (hp : p.carriesOver = true)
    {before before' piece piece' after after' : List Char} (hbefore : ReadsAs before before')
    (hpiece : ReadsAs piece piece') (hafter : ReadsAs after after')
    (h : p.Matches before piece after) : p.Matches before' piece' after' := by
  induction p generalizing before before' piece piece' after after' with
  | empty =>
    obtain rfl : piece = [] := h
    cases hpiece
    rfl
  | one accepts =>
    obtain ⟨c, rfl, hc⟩ := h
    have hall := forall_mem_of_takesFeed hp hpiece (by simpa using hc)
    obtain ⟨d, rfl⟩ := exists_eq_singleton_of_readsAs hpiece
    exact ⟨d, rfl, hall d (List.mem_singleton_self d)⟩
  | run accepts => exact forall_mem_of_takesFeed hp hpiece h
  | andThen first second ih₁ ih₂ =>
    simp only [carriesOver, Bool.and_eq_true] at hp
    obtain ⟨⟨hp₁, hp₂⟩, hcut⟩ := hp
    obtain ⟨left, right, rfl, hfirst, hsecond⟩ := h
    -- the cut between the two carries over, or it parts a pair
    rcases hpiece.exists_of_append_left with ⟨left', right', rfl, hleft, hright⟩ | hparts
    · exact ⟨left', right', rfl, ih₁ hp₁ hbefore hleft (hright.append hafter) hfirst,
        ih₂ hp₂ (hbefore.append hleft) hright hafter hsecond⟩
    · rcases (Bool.or_eq_true _ _).mp hcut with hshape | hedges
      · obtain ⟨hone, hrun⟩ := (Bool.and_eq_true _ _).mp hshape
        exact matches_andThen_of_partsPair hone hrun hp₁ hp₂ hparts hfirst hsecond
      · exact absurd hparts (not_partsPair_of_matches hedges hfirst hsecond)
  | either first second ih₁ ih₂ =>
    obtain ⟨hp₁, hp₂⟩ := (Bool.and_eq_true _ _).mp hp
    exact h.imp (ih₁ hp₁ hbefore hpiece hafter) (ih₂ hp₂ hbefore hpiece hafter)
  | lineStart =>
    obtain ⟨rfl, hstart⟩ := h
    cases hpiece
    exact ⟨rfl, lineStart_of_readsAs hbefore hstart⟩
  | wordBoundary =>
    obtain ⟨rfl, hboundary⟩ := h
    cases hpiece
    refine ⟨rfl, ?_⟩
    rwa [endsInWord_iff_of_readsAs hbefore, beginsWithWord_iff_of_readsAs hafter]

/-- Whether the edges of a match part no pair from its surroundings: it is not empty, does
not end with a carriage return, and does not begin with a line feed, unless it begins a
line, behind another line feed. -/
def edgesPartNoPair (p : Pattern) : Bool :=
  !p.mayBeEmpty && !p.mayEnd '\r' && (p.anchored || !p.mayBegin '\n')

/-- **An occurrence in a text is one in its reading.** -/
theorem occurs_of_carriesOver {p : Pattern} (hp : p.carriesOver = true)
    (hedges : p.edgesPartNoPair = true) {text reading : List Char} (h : ReadsAs text reading)
    (hoccurs : p.Occurs text) : p.Occurs reading := by
  obtain ⟨before, piece, after, rfl, hmatches⟩ := hoccurs
  simp only [edgesPartNoPair, Bool.and_eq_true, Bool.not_eq_true', Bool.or_eq_true] at hedges
  obtain ⟨⟨hempty, hend⟩, hbegin⟩ := hedges
  rw [List.append_assoc] at h
  rcases h.exists_of_append_left with ⟨before', rest', rfl, hbefore, hrest⟩ | hparts
  · rcases hrest.exists_of_append_left with ⟨piece', after', rfl, hpiece, hafter⟩ | hparts
    · refine ⟨before', piece', after', (List.append_assoc ..).symm, ?_⟩
      exact matches_of_carriesOver hp hbefore hpiece hafter hmatches
    · -- the match would end with the carriage return of a pair
      obtain ⟨left, right, x, y, rfl, -, -, -, -⟩ := hparts
      rw [mayEnd_of_matches hmatches] at hend
      cases hend
  · -- the match would begin with the line feed of a pair
    obtain ⟨left, right, x, y, rfl, hfeed, -, -, -⟩ := hparts
    cases piece with
    | nil =>
      rw [mayBeEmpty_of_matches hmatches] at hempty
      cases hempty
    | cons c piece =>
      obtain rfl : c = '\n' := (List.cons.inj hfeed).1
      rcases hbegin with hanchored | hnot
      · have hstart := lineStart_of_anchored hanchored hmatches
        simp at hstart
      · rw [mayBegin_of_matches hmatches] at hnot
        cases hnot

/-! ## From a reading back to the text -/

/-- **Whether the matches of a pattern carry back** from the reading of a text to the text
itself. An anchor to the line does not: the line may begin behind a carriage return. -/
def carriesBack : Pattern → Bool
  | empty => true
  | one accepts => !accepts '\n'
  | run accepts => !accepts '\n' || accepts '\r'
  | andThen first second => first.carriesBack && second.carriesBack
  | either first second => first.carriesBack && second.carriesBack
  | lineStart => false
  | wordBoundary => true

/-- **A match carries back to the text.** -/
theorem matches_of_carriesBack {p : Pattern} (hp : p.carriesBack = true)
    {before before' piece piece' after after' : List Char} (hbefore : ReadsAs before before')
    (hpiece : ReadsAs piece piece') (hafter : ReadsAs after after')
    (h : p.Matches before' piece' after') : p.Matches before piece after := by
  induction p generalizing before before' piece piece' after after' with
  | empty =>
    obtain rfl : piece' = [] := h
    cases hpiece
    rfl
  | one accepts =>
    obtain ⟨c, rfl, hc⟩ := h
    cases hpiece with
    | same _ hrest =>
      cases hrest
      exact ⟨c, rfl, hc⟩
    | single hrest => simp [carriesBack, hc] at hp
    | pair hrest => simp [carriesBack, hc] at hp
  | run accepts =>
    intro c hc
    rcases hpiece.mem_reading_of_mem hc with hc | ⟨rfl, hfeed⟩
    · exact h c hc
    · have hn := h _ hfeed
      simpa [carriesBack, hn] using hp
  | andThen first second ih₁ ih₂ =>
    obtain ⟨hp₁, hp₂⟩ := (Bool.and_eq_true _ _).mp hp
    obtain ⟨left', right', rfl, hfirst, hsecond⟩ := h
    -- on the way back every cut carries over
    obtain ⟨left, right, rfl, hleft, hright⟩ := hpiece.exists_of_append_right
    exact ⟨left, right, rfl, ih₁ hp₁ hbefore hleft (hright.append hafter) hfirst,
      ih₂ hp₂ (hbefore.append hleft) hright hafter hsecond⟩
  | either first second ih₁ ih₂ =>
    obtain ⟨hp₁, hp₂⟩ := (Bool.and_eq_true _ _).mp hp
    exact h.imp (ih₁ hp₁ hbefore hpiece hafter) (ih₂ hp₂ hbefore hpiece hafter)
  | lineStart => cases hp
  | wordBoundary =>
    obtain ⟨rfl, hboundary⟩ := h
    cases hpiece
    refine ⟨rfl, ?_⟩
    rwa [endsInWord_iff_of_readsAs hbefore, beginsWithWord_iff_of_readsAs hafter] at hboundary

/-- **An occurrence in a reading is one in the text.** -/
theorem occurs_of_carriesBack {p : Pattern} (hp : p.carriesBack = true)
    {text reading : List Char} (h : ReadsAs text reading) (hoccurs : p.Occurs reading) :
    p.Occurs text := by
  obtain ⟨before', piece', after', rfl, hmatches⟩ := hoccurs
  obtain ⟨front, after, rfl, hfront, hafter⟩ := h.exists_of_append_right
  obtain ⟨before, piece, rfl, hbefore, hpiece⟩ := hfront.exists_of_append_right
  exact ⟨before, piece, after, rfl,
    matches_of_carriesBack hp hbefore hpiece hafter hmatches⟩

end Pattern

end WriteGate

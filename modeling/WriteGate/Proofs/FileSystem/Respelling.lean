import WriteGate.Proofs.FileSystem.SourceName

/-!
# One place, many spellings

A path can be written in longer ways that say the same (`Respells`): with a dot and a
slash in front, with a slash doubled, with a dot between slashes. Its real pieces are then
what they were, and its way is the same but for a step that stays in place. Such a
step can be taken wherever another step comes after it, since both ask for a
directory to start from. So a longer spelling leads where the path leads.

There is one limit to this. A path has a greatest size, in which what says nothing
counts like all the rest, so a path that leads somewhere leads nowhere when it is spelled too
long (`leadsTo_iff_of_respells`).
-/

namespace WriteGate

namespace FileSystem

open WriteGate.Path

variable {fs : FileSystem} {n : Nat} {s : Stage} {l d : Location} {ahead behind : List Step}
  {path path' : String}

/-! ## Steps that stay in place -/

/-- **A walk over steps and those behind them** gets to the end of the first steps and goes on
from there. -/
theorem walks_onwards_iff :
    fs.Walks .find n (s.onwards behind) ⟨d, []⟩ ↔
      ∃ k m l, n = k + m ∧ fs.Walks .find k s ⟨l, []⟩ ∧ fs.Walks .find m ⟨l, behind⟩ ⟨d, []⟩ := by
  constructor
  · intro h
    generalize hstart : s.onwards behind = start at h
    generalize hend : (⟨d, []⟩ : Stage) = stop at h
    induction h generalizing s with
    | stay =>
      subst hend
      obtain ⟨l, ahead⟩ := s
      obtain ⟨rfl, hahead⟩ := Stage.mk.inj hstart
      obtain ⟨rfl, rfl⟩ := List.append_eq_nil_iff.1 hahead
      exact ⟨0, 0, l, rfl, .stay, .stay⟩
    | @go k n _ u _ first later ih =>
      subst hstart
      obtain ⟨l, ahead⟩ := s
      cases ahead with
      | nil =>
        subst hend
        exact ⟨0, k + n, l, (Nat.zero_add _).symm, .stay, .go first later⟩
      | cons next rest =>
        obtain ⟨v, rfl, hmove⟩ := first.of_onwards (List.cons_ne_nil next rest)
        obtain ⟨i, j, l', rfl, hto, hfrom⟩ := ih rfl hend
        exact ⟨k + i, j, l', (Nat.add_assoc ..).symm, .go hmove hto, hfrom⟩
  · rintro ⟨k, m, l, rfl, hto, hfrom⟩
    exact (hto.onwards behind).trans hfrom

/-- **A step that stays in place makes no difference** to a walk that has another step to
take from there. -/
theorem walks_here_iff (hbehind : behind ≠ []) :
    fs.Walks .find n ⟨l, .here :: behind⟩ ⟨d, []⟩ ↔ fs.Walks .find n ⟨l, behind⟩ ⟨d, []⟩ := by
  constructor
  · intro h
    cases h with
    | go first later =>
      cases first with
      | here => rwa [Nat.zero_add]
  · intro h
    cases h with
    | stay => exact absurd rfl hbehind
    | go first later =>
      rw [← Nat.zero_add (_ + _)]
      exact .go (.here first.entryAt?_location) (.go first later)

theorem walks_append_here_iff (hbehind : behind ≠ []) :
    fs.Walks .find n ⟨l, ahead ++ .here :: behind⟩ ⟨d, []⟩ ↔
      fs.Walks .find n ⟨l, ahead ++ behind⟩ ⟨d, []⟩ := by
  show fs.Walks .find n (Stage.onwards ⟨l, ahead⟩ (.here :: behind)) ⟨d, []⟩ ↔
    fs.Walks .find n (Stage.onwards ⟨l, ahead⟩ behind) ⟨d, []⟩
  rw [walks_onwards_iff, walks_onwards_iff]
  simp only [walks_here_iff hbehind]

end FileSystem

namespace Path

variable {path path' : String}

/-! ## Longer spellings -/

/-- **A longer spelling of a path** that says the same. -/
inductive Respells : String → String → Prop
  /-- A relative path with a dot and a slash in front. -/
  | dotInFront {path : String} (hne : path ≠ "") (hrelative : isAbsolute path = false) :
      Respells path ("./" ++ path)
  /-- A path with one of its slashes doubled. -/
  | doubled (before behind : String) :
      Respells (before ++ "/" ++ behind) (before ++ "//" ++ behind)
  /-- A path with a dot between two pieces, and a slash on either side of it. -/
  | dotBetween (before behind : String) :
      Respells (before ++ "/" ++ behind) (before ++ "/./" ++ behind)

/-- Only dots and slashes are added. -/
theorem Respells.nul_mem_iff (h : Respells path path') :
    '\x00' ∈ path'.toList ↔ '\x00' ∈ path.toList := by
  cases h <;> simp

theorem Respells.ne_empty (h : Respells path path') : path ≠ "" ∧ path' ≠ "" := by
  cases h with
  | dotInFront hne => exact ⟨hne, by simp⟩
  | doubled before behind => simp
  | dotBetween before behind => simp

theorem Respells.utf8ByteSize_lt (h : Respells path path') :
    path.utf8ByteSize < path'.utf8ByteSize := by
  have hslash : "/".utf8ByteSize = 1 := rfl
  have hdotSlash : "./".utf8ByteSize = 2 := rfl
  have hdoubled : "//".utf8ByteSize = 2 := rfl
  have hdot : "/./".utf8ByteSize = 3 := rfl
  cases h <;> simp only [String.utf8ByteSize_append] <;> omega

/-- **A longer spelling may be walked if the path may**, and it is not too long. -/
theorem Respells.checkSpelling_iff (h : Respells path path') :
    FileSystem.checkSpelling path' = .ok () ↔
      FileSystem.checkSpelling path = .ok () ∧ path'.utf8ByteSize ≤ maxSize := by
  have hsize := h.utf8ByteSize_lt
  simp only [FileSystem.checkSpelling_eq_ok_iff, h.nul_mem_iff, ne_eq, h.ne_empty.1, h.ne_empty.2,
    not_false_eq_true, true_and]
  grind

theorem Respells.realPieces_eq (h : Respells path path') :
    realPieces path'.toList = realPieces path.toList := by
  cases h with
  | dotInFront =>
    have hfront : ("./" ++ path).toList = ['.'] ++ '/' :: path.toList := by simp
    rw [hfront, realPieces_append_slash, realPieces_dot, List.nil_append]
  | doubled before behind => simp
  | dotBetween before behind =>
    have hbetween : (before ++ "/./" ++ behind).toList
        = before.toList ++ '/' :: (['.'] ++ '/' :: behind.toList) := by simp
    rw [hbetween]
    simp only [realPieces_append_slash]
    simp

theorem Respells.isAbsolute_eq (h : Respells path path') :
    isAbsolute path' = isAbsolute path := by
  -- behind a slash, what follows does not matter
  have habsolute (before rest : String) :
      isAbsolute (before ++ ("/" ++ rest)) = isAbsolute (before ++ "/") := by
    rw [← String.append_assoc]
    exact isAbsolute_append (by simp) rest
  cases h with
  | dotInFront hne hrelative =>
    rw [hrelative, isAbsolute_append (by decide)]
    rfl
  | doubled before behind =>
    rw [String.append_assoc, String.append_assoc, habsolute]
    exact habsolute before ("/" ++ behind)
  | dotBetween before behind =>
    rw [String.append_assoc, String.append_assoc, habsolute]
    exact habsolute before ("./" ++ behind)

theorem way_slash (hne : path ≠ "") : way .find ("/" ++ path) = way .find path := by
  unfold way
  rw [pieces_slash, endsInSlash_append "/" hne]

/-- A dot in front is a step in place. -/
theorem way_dotSlash (rest : String) :
    way .find ("./" ++ rest) = .here :: way .find ("/" ++ rest) :=
  way_append "." rest

/-- **The way stays the same, but for a step in place** in front of another step. -/
theorem Respells.way_eq (h : Respells path path') :
    way .find path' = way .find path
      ∨ ∃ ahead behind, behind ≠ [] ∧ way .find path = ahead ++ behind
        ∧ way .find path' = ahead ++ .here :: behind := by
  have hslash (rest : String) : "/" ++ rest ≠ "" := by simp
  cases h with
  | dotInFront hne =>
    refine .inr ⟨[], way .find path, way_ne_nil .find hne, rfl, ?_⟩
    rw [way_dotSlash, way_slash hne, List.nil_append]
  | doubled before behind =>
    have hdoubled : before ++ "//" ++ behind = before ++ ("/" ++ ("/" ++ behind)) :=
      String.append_assoc
    have hsingle : before ++ "/" ++ behind = before ++ ("/" ++ behind) := String.append_assoc
    rw [hdoubled, hsingle, way_append before ("/" ++ behind), way_slash (hslash behind),
      way_append before behind]
    exact .inl rfl
  | dotBetween before behind =>
    have hbetween : before ++ "/./" ++ behind = before ++ ("/" ++ ("./" ++ behind)) :=
      String.append_assoc
    refine .inr ⟨(pieces before).map Step.ofPiece, way .find ("/" ++ behind),
      way_ne_nil .find (hslash behind), ?_, ?_⟩
    · rw [String.append_assoc, way_append]
    · rw [hbetween, way_append, way_slash (by simp), way_dotSlash]

end Path

namespace FileSystem

open WriteGate.Path

variable {fs : FileSystem} {n : Nat} {l : Location} {path path' : String}

/-- The walk of a longer spelling gets where that of the path gets. -/
theorem walks_outset_iff_of_respells (h : Respells path path') :
    fs.Walks .find n (fs.outset .find path') ⟨l, []⟩ ↔
      fs.Walks .find n (fs.outset .find path) ⟨l, []⟩ := by
  have hstart : startOf fs.workingDirectory path' = startOf fs.workingDirectory path := by
    rw [startOf, startOf, h.isAbsolute_eq]
  rw [outset, outset, hstart]
  rcases h.way_eq with hway | ⟨ahead, behind, hbehind, hway, hway'⟩
  · rw [hway]
  · rw [hway, hway', walks_append_here_iff hbehind]

/-- **A longer spelling leads where the path leads**, as long as it is not too long. -/
theorem leadsTo_iff_of_respells (h : Respells path path') :
    fs.LeadsTo path' l ↔ fs.LeadsTo path l ∧ path'.utf8ByteSize ≤ maxSize := by
  rw [LeadsTo, LeadsTo, h.checkSpelling_iff]
  simp only [walks_outset_iff_of_respells h]
  exact and_right_comm

end FileSystem

end WriteGate

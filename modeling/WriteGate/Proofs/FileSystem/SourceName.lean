import WriteGate.Proofs.FileSystem.Ways

/-!
# The name that a path ends with

Whether a path names a source file is decided by its last real piece, and this
module says which part of the path that is. A path with a real piece is read as three
texts (`LastPiece`): what leads up to the piece, the piece, and what stands behind
it and says nothing, slashes and single dots behind slashes. There may be much of that, and
the reading takes it off piece by piece from the end.

The piece names a source file if it ends in the extension and does not begin with
it. Nothing else in the path counts.
-/

namespace WriteGate.Path

variable {chars rest trailing name stem : List Char} {path path' : String}

/-- What is in a list is in it for a last time. -/
theorem exists_last_of_mem {c : Char} (h : c ∈ chars) :
    ∃ before behind, chars = before ++ c :: behind ∧ c ∉ behind := by
  obtain ⟨behind, before, hreverse, hbehind⟩ :=
    List.eq_append_cons_of_mem (List.mem_reverse.2 h)
  refine ⟨before.reverse, behind.reverse, ?_, fun hmem => hbehind (List.mem_reverse.1 hmem)⟩
  simpa using congrArg List.reverse hreverse

/-! ## Extensions -/

/-- What stands behind the last dot is the extension, unless the name begins with that dot. -/
theorem extension?_append {ending : List Char} (h : '.' ∉ ending) :
    extension? (String.ofList (stem ++ '.' :: ending))
      = if stem = [] then none else some (String.ofList ending) := by
  have hends : ∀ c ∈ ending.reverse, (c != '.') = true := fun c hc => by
    simpa using fun heq : c = '.' => h (heq ▸ List.mem_reverse.1 hc)
  have hreverse : (stem ++ '.' :: ending).reverse = ending.reverse ++ '.' :: stem.reverse := by
    simp
  unfold extension?
  rw [String.toList_ofList, hreverse]
  dsimp only
  rw [List.takeWhile_append_of_pos hends, List.dropWhile_append_of_pos hends]
  simp

theorem extension?_of_not_mem (h : '.' ∉ name) : extension? (String.ofList name) = none := by
  have hends : ∀ c ∈ name.reverse, (c != '.') = true := fun c hc => by
    simpa using fun heq : c = '.' => h (heq ▸ List.mem_reverse.1 hc)
  unfold extension?
  rw [String.toList_ofList, ← List.append_nil name.reverse]
  dsimp only
  rw [List.dropWhile_append_of_pos hends]
  rfl

theorem extension?_eq_sourceExtension_iff :
    extension? (String.ofList name) = some sourceExtension ↔
      ∃ stem, stem ≠ [] ∧ name = stem ++ ".py".toList := by
  constructor
  · intro h
    by_cases hdot : '.' ∈ name
    · obtain ⟨stem, ending, rfl, hending⟩ := exists_last_of_mem hdot
      rw [extension?_append hending] at h
      by_cases hstem : stem = []
      · simp [hstem] at h
      · rw [if_neg hstem, Option.some.injEq] at h
        have hpy := congrArg String.toList h
        rw [String.toList_ofList] at hpy
        exact ⟨stem, hstem, by rw [hpy]; rfl⟩
    · rw [extension?_of_not_mem hdot] at h
      cases h
  · rintro ⟨stem, hstem, rfl⟩
    rw [show stem ++ ".py".toList = stem ++ '.' :: "py".toList from rfl,
      extension?_append (by decide), if_neg hstem, String.ofList_toList]
    rfl

/-! ## Real pieces -/

/-- The pieces of a path that lead somewhere else. -/
def realPieces (chars : List Char) : List (List Char) :=
  (splitSlashes chars).filter fun piece => piece ≠ [] ∧ piece ≠ ['.']

@[simp] theorem realPieces_nil : realPieces [] = [] := rfl

@[simp] theorem realPieces_dot : realPieces ['.'] = [] := rfl

@[simp] theorem realPieces_append_slash (chars rest : List Char) :
    realPieces (chars ++ '/' :: rest) = realPieces chars ++ realPieces rest := by
  rw [realPieces, splitSlashes_append, List.filter_append, realPieces, realPieces]

@[simp] theorem realPieces_slash (rest : List Char) :
    realPieces ('/' :: rest) = realPieces rest :=
  realPieces_append_slash [] rest

/-- A text without slashes is a piece, and is real or is not. -/
theorem realPieces_of_not_mem (h : '/' ∉ name) :
    realPieces name = if name ≠ [] ∧ name ≠ ['.'] then [name] else [] := by
  simp [realPieces, splitSlashes_of_not_mem h, List.filter_cons]

theorem ofList_eq_iff {piece : List Char} {text : String} :
    String.ofList piece = text ↔ piece = text.toList := by
  rw [← String.toList_inj, String.toList_ofList]

/-- The last real piece is the name that a path ends with, unless it goes up. -/
theorem fileName?_eq (path : String) :
    fileName? path
      = ((realPieces path.toList).getLast?.filter (· ≠ ['.', '.'])).map String.ofList := by
  have hpieces : (pieces path).filter (· != ".")
      = (realPieces path.toList).map String.ofList := by
    rw [pieces, realPieces, List.filter_map, List.filter_filter]
    refine congrArg _ (List.filter_congr fun piece _ => ?_)
    rw [Bool.eq_iff_iff]
    simp [ofList_eq_iff, and_comm]
  unfold fileName?
  rw [hpieces, List.getLast?_map]
  cases (realPieces path.toList).getLast? with
  | none => rfl
  | some piece =>
    by_cases h : piece = ['.', '.']
    · rw [h]
      rfl
    · simp [Option.filter, ofList_eq_iff, h]

/-- **A path names a source file by its last real piece.** -/
theorem namesSource_iff_getLast? :
    namesSource path = true ↔
      ∃ stem, stem ≠ [] ∧ (realPieces path.toList).getLast? = some (stem ++ ".py".toList) := by
  rw [namesSource, beq_iff_eq, fileName?_eq]
  cases (realPieces path.toList).getLast? with
  | none => simp
  | some piece =>
    by_cases h : piece = ['.', '.']
    · -- going up has no extension, and does not end in one
      subst h
      have hup : ∀ stem : List Char, ['.', '.'] ≠ stem ++ ['.', 'p', 'y'] := fun stem heq => by
        simpa [List.getLast?_append] using congrArg List.getLast? heq
      simpa [Option.filter] using fun stem _ => hup stem
    · simp only [Option.filter, ne_eq, h, not_false_eq_true, decide_true, if_true,
        Option.map_some, Option.bind_some, extension?_eq_sourceExtension_iff, Option.some.injEq]

/-- Paths with the same real pieces both name a source file, or neither does. -/
theorem namesSource_eq_of_realPieces_eq
    (h : realPieces path.toList = realPieces path'.toList) :
    namesSource path = namesSource path' := by
  rw [Bool.eq_iff_iff, namesSource_iff_getLast?, namesSource_iff_getLast?, h]

/-! ## The last real piece in the text -/

/-- **What says nothing behind a name**: slashes, and single dots behind slashes. -/
inductive Idle : List Char → Prop
  /-- Nothing at all. -/
  | nil : Idle []
  /-- A slash. -/
  | slash {rest : List Char} (h : Idle rest) : Idle ('/' :: rest)
  /-- A slash and a dot. -/
  | dot {rest : List Char} (h : Idle rest) : Idle ('/' :: '.' :: rest)

theorem Idle.append (h : Idle trailing) (h' : Idle rest) : Idle (trailing ++ rest) := by
  induction h with
  | nil => exact h'
  | slash _ ih => exact .slash ih
  | dot _ ih => exact .dot ih

/-- **A text by its last real piece.** -/
structure LastPiece where
  /-- What leads up to the piece. -/
  parent : List Char
  /-- The piece. -/
  name : List Char
  /-- What stands behind it. -/
  trailing : List Char
  /-- The piece begins where a piece may begin. -/
  opens : parent = [] ∨ parent.getLast? = some '/'
  /-- It is one piece. -/
  slash_not_mem : '/' ∉ name
  /-- It is a real one. -/
  real : name ≠ [] ∧ name ≠ ['.']
  /-- It is the last one. -/
  idle : Idle trailing

/-- The text with its three parts put together. -/
def LastPiece.spelling (p : LastPiece) : List Char := p.parent ++ p.name ++ p.trailing

/-- What says nothing adds no pieces. -/
theorem realPieces_append_idle (h : Idle trailing) (chars : List Char) :
    realPieces (chars ++ trailing) = realPieces chars := by
  induction h generalizing chars with
  | nil => rw [List.append_nil]
  | slash _ ih =>
    have hrest := ih []
    rw [List.nil_append] at hrest
    rw [realPieces_append_slash, hrest, realPieces_nil, List.append_nil]
  | @dot rest _ ih =>
    have hrest := ih ['.']
    rw [List.singleton_append] at hrest
    rw [realPieces_append_slash, hrest, realPieces_dot, List.append_nil]

theorem LastPiece.getLast?_realPieces (p : LastPiece) :
    (realPieces p.spelling).getLast? = some p.name := by
  have hname : realPieces p.name = [p.name] := by
    rw [realPieces_of_not_mem p.slash_not_mem, if_pos p.real]
  rw [spelling, realPieces_append_idle p.idle]
  rcases p.opens with hparent | hparent
  · rw [hparent, List.nil_append, hname]
    rfl
  · obtain ⟨before, hbefore⟩ := List.getLast?_eq_some_iff.1 hparent
    rw [hbefore, List.append_assoc, List.singleton_append, realPieces_append_slash, hname,
      List.getLast?_concat]

/-- **A text with a real piece has a last one**: what stands behind the last slash, or, if this
says nothing, the last real piece of what stands before it. -/
theorem exists_lastPiece (h : (realPieces chars).getLast? = some name) :
    ∃ p : LastPiece, chars = p.spelling ∧ p.name = name := by
  -- on the length, since what is taken off at the end may be of any length
  induction hlength : chars.length using Nat.strongRecOn generalizing chars with
  | ind n ih =>
    by_cases hslash : '/' ∈ chars
    · obtain ⟨before, behind, rfl, hbehind⟩ := exists_last_of_mem hslash
      rw [realPieces_append_slash, realPieces_of_not_mem hbehind] at h
      split at h
      · next hreal =>
        rw [List.getLast?_concat, Option.some.injEq] at h
        refine ⟨⟨before ++ ['/'], behind, [], .inr List.getLast?_concat, hbehind, hreal, .nil⟩,
          ?_, h⟩
        simp [LastPiece.spelling]
      · next hreal =>
        rw [List.append_nil] at h
        obtain ⟨p, hp, hname⟩ := ih before.length (by simp [← hlength]) h rfl
        have hidle : Idle ('/' :: behind) := by
          by_cases hnil : behind = []
          · rw [hnil]
            exact .slash .nil
          · obtain rfl : behind = ['.'] := by simpa [hnil] using hreal
            exact .dot .nil
        refine ⟨{ p with trailing := p.trailing ++ '/' :: behind, idle := p.idle.append hidle },
          ?_, hname⟩
        rw [hp]
        simp [LastPiece.spelling]
    · rw [realPieces_of_not_mem hslash] at h
      split at h
      · next hreal =>
        refine ⟨⟨[], chars, [], .inl rfl, hslash, hreal, .nil⟩, ?_, Option.some.inj h⟩
        simp [LastPiece.spelling]
      · cases h

/-! ## Paths that name source files -/

/-- **The last piece decides**: a path names a source file if this piece ends in the extension
and does not begin with it. -/
theorem LastPiece.namesSource_iff (p : LastPiece) (h : path.toList = p.spelling) :
    namesSource path = true ↔ ∃ stem, stem ≠ [] ∧ p.name = stem ++ ".py".toList := by
  rw [namesSource_iff_getLast?, h, p.getLast?_realPieces]
  simp only [Option.some.injEq]

/-- **A name that is no source file's**: it is nothing but the extension, it goes up, or it
has another extension. -/
def ForeignName (name : List Char) : Prop :=
  name = ".py".toList ∨ name = "..".toList
    ∨ ∃ stem ending, name = stem ++ '.' :: ending ∧ '.' ∉ ending ∧ ending ≠ "py".toList

theorem LastPiece.namesSource_eq_false (p : LastPiece) (h : path.toList = p.spelling)
    (hforeign : ForeignName p.name) : namesSource path = false := by
  rw [Bool.eq_false_iff, ne_eq, p.namesSource_iff h, ← extension?_eq_sourceExtension_iff]
  rcases hforeign with hname | hname | ⟨stem, ending, hname, hending, hother⟩
  · rw [hname]
    decide
  · rw [hname]
    decide
  · rw [hname, extension?_append hending]
    split
    · simp
    · rw [Option.some.injEq, ofList_eq_iff]
      exact hother

/-- **A path that is spelled like a source file.** -/
structure SourceSpelling where
  /-- What leads up to the name. -/
  parent : List Char
  /-- The name without its extension. -/
  stem : List Char
  /-- What stands behind the name. -/
  trailing : List Char
  /-- The name begins where a piece may begin. -/
  opens : parent = [] ∨ parent.getLast? = some '/'
  /-- The extension is not all of the name. -/
  stem_ne_nil : stem ≠ []
  /-- The name is one piece. -/
  slash_not_mem : '/' ∉ stem
  /-- It is the last one that says something. -/
  idle : Idle trailing

/-- The text of such a path. -/
def SourceSpelling.spelling (s : SourceSpelling) : List Char :=
  s.parent ++ s.stem ++ ".py".toList ++ s.trailing

/-- The reading of such a path by its last piece. -/
def SourceSpelling.lastPiece (s : SourceSpelling) : LastPiece where
  parent := s.parent
  name := s.stem ++ ".py".toList
  trailing := s.trailing
  opens := s.opens
  slash_not_mem := by
    rw [List.mem_append, not_or]
    exact ⟨s.slash_not_mem, by decide⟩
  real := by
    constructor
    · simp
    · intro h
      have := congrArg List.length h
      simp at this
  idle := s.idle

/-- **The paths that name source files are those that are spelled so.** -/
theorem namesSource_iff_exists_spelling :
    namesSource path = true ↔ ∃ s : SourceSpelling, path.toList = s.spelling := by
  constructor
  · intro h
    obtain ⟨stem, hstem, hlast⟩ := namesSource_iff_getLast?.1 h
    obtain ⟨p, hp, hname⟩ := exists_lastPiece hlast
    have hplain := p.slash_not_mem
    rw [hname, List.mem_append, not_or] at hplain
    refine ⟨⟨p.parent, stem, p.trailing, p.opens, hstem, hplain.1, p.idle⟩, ?_⟩
    simp [hp, LastPiece.spelling, SourceSpelling.spelling, hname]
  · rintro ⟨s, hs⟩
    refine (s.lastPiece.namesSource_iff ?_).2 ⟨s.stem, s.stem_ne_nil, rfl⟩
    rw [hs, SourceSpelling.spelling, List.append_assoc s.parent]
    rfl

end WriteGate.Path

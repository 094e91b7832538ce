import WriteGate.Proofs.FileSystem.Walking

/-!
# Paths behind paths

The way of a longer path begins with that of a shorter one: behind a slash the
pieces of the rest follow those of what stands before it, and a walk over both
is a walk over the first that goes on from where it arrived. Hence nothing is to
be found behind a file (`not_leads_behind_file`), and what is found behind a
directory, or may be put there, has a parent that is a directory.

A slash at the end is a step of its own. It stays in place, but only in a
directory, so whatever such a way arrives at is one.
-/

namespace WriteGate

namespace Path

/-! ## Pieces -/

theorem splitSlashes_ne_nil (chars : List Char) : splitSlashes chars ≠ [] := by
  cases chars with
  | nil => simp [splitSlashes]
  | cons c rest =>
    unfold splitSlashes
    split
    · exact List.cons_ne_nil _ _
    · split <;> exact List.cons_ne_nil _ _

/-- A slash separates the pieces before it from those behind it. -/
theorem splitSlashes_append (chars rest : List Char) :
    splitSlashes (chars ++ '/' :: rest) = splitSlashes chars ++ splitSlashes rest := by
  induction chars with
  | nil =>
    obtain ⟨piece, pieces, hrest⟩ := List.exists_cons_of_ne_nil (splitSlashes_ne_nil rest)
    simp [splitSlashes, hrest]
  | cons c chars ih =>
    obtain ⟨piece, pieces, hchars⟩ := List.exists_cons_of_ne_nil (splitSlashes_ne_nil chars)
    rw [List.cons_append, splitSlashes, ih, hchars, List.cons_append]
    simp only [splitSlashes, hchars]
    split <;> rfl

theorem splitSlashes_of_not_mem {chars : List Char} (h : '/' ∉ chars) :
    splitSlashes chars = [chars] := by
  induction chars with
  | nil => rfl
  | cons c chars ih =>
    rw [List.mem_cons, not_or] at h
    have hc : (c == '/') = false := by simpa using Ne.symm h.1
    simp [splitSlashes, ih h.2, hc]

theorem pieces_append (path rest : String) :
    pieces (path ++ "/" ++ rest) = pieces path ++ pieces rest := by
  have hslash : (path ++ "/" ++ rest).toList = path.toList ++ '/' :: rest.toList := by simp
  rw [pieces, hslash, splitSlashes_append, List.filter_append, List.map_append, pieces, pieces]

theorem pieces_slash (rest : String) : pieces ("/" ++ rest) = pieces rest := by
  have hempty : pieces "" = [] := rfl
  have := pieces_append "" rest
  rwa [hempty, List.nil_append, String.empty_append] at this

theorem pieces_of_not_mem {name : String} (hname : name ≠ "") (h : '/' ∉ name.toList) :
    pieces name = [name] := by
  have hne : name.toList ≠ [] := by simpa using hname
  simp [pieces, splitSlashes_of_not_mem h, hne]

/-- What does not end in a slash has a piece that says something. -/
theorem exists_mem_splitSlashes {chars : List Char} (hne : chars ≠ [])
    (h : chars.getLast? ≠ some '/') : ∃ piece ∈ splitSlashes chars, piece ≠ [] := by
  induction chars with
  | nil => exact absurd rfl hne
  | cons c chars ih =>
    obtain ⟨first, pieces, hchars⟩ := List.exists_cons_of_ne_nil (splitSlashes_ne_nil chars)
    simp only [splitSlashes, hchars]
    by_cases hc : c = '/'
    · -- the slash is not the last character, so the piece is behind it
      cases chars with
      | nil => exact absurd (congrArg some hc) h
      | cons c' chars =>
        obtain ⟨piece, hmem, hpiece⟩ := ih (List.cons_ne_nil _ _) (by simpa using h)
        rw [hchars] at hmem
        exact ⟨piece, by simp [hc, hmem], hpiece⟩
    · exact ⟨c :: first, by simp [hc], List.cons_ne_nil _ _⟩

theorem isAbsolute_append {path : String} (h : path ≠ "") (rest : String) :
    isAbsolute (path ++ rest) = isAbsolute path := by
  obtain ⟨c, chars, hpath⟩ := List.exists_cons_of_ne_nil (l := path.toList) (by simpa using h)
  simp [isAbsolute, hpath]

theorem endsInSlash_append (path : String) {rest : String} (h : rest ≠ "") :
    endsInSlash (path ++ rest) = endsInSlash rest := by
  have hne : rest.toList ≠ [] := by simpa using h
  simp [endsInSlash, List.getLast?_append, List.getLast?_eq_some_getLast hne]

/-! ## Ways -/

theorem way_ne_nil (purpose : Purpose) {path : String} (h : path ≠ "") :
    way purpose path ≠ [] := by
  unfold way
  dsimp only
  split
  · cases purpose <;> simp
  · next hslash =>
    obtain ⟨piece, hmem, hpiece⟩ : ∃ piece ∈ splitSlashes path.toList, piece ≠ [] :=
      exists_mem_splitSlashes (by simpa using h) (by simpa [endsInSlash] using hslash)
    have hpieces : pieces path ≠ [] := by
      rw [pieces, ne_eq, List.map_eq_nil_iff]
      exact List.ne_nil_of_mem (List.mem_filter.2 ⟨hmem, by simpa using hpiece⟩)
    simpa using hpieces

/-- A slash at the end is a step in place. -/
theorem getLast?_way {path : String} (h : endsInSlash path = true) (purpose : Purpose) :
    (way purpose path).getLast? = some .here := by
  cases purpose <;> simp [way, h]

/-- Without a slash at the end the way does not depend on what it is followed for. -/
theorem way_create_eq {path : String} (h : endsInSlash path = false) :
    way .create path = way .find path := by
  simp [way, h]

theorem way_name {name : String} (hname : name ≠ "") (h : '/' ∉ name.toList) :
    way .find ("/" ++ name) = [Step.ofPiece name] := by
  have hslash : endsInSlash name = false := by
    simpa [endsInSlash] using fun hlast => h (List.mem_of_getLast? hlast)
  simp [way, pieces_slash, pieces_of_not_mem hname h, endsInSlash_append "/" hname, hslash]

/-- **The way of a path begins with that of every path before a slash in it.** -/
theorem way_append (path rest : String) :
    way .find (path ++ ("/" ++ rest))
      = (pieces path).map Step.ofPiece ++ way .find ("/" ++ rest) := by
  have hpieces : pieces (path ++ ("/" ++ rest)) = pieces path ++ pieces ("/" ++ rest) := by
    rw [← String.append_assoc, pieces_append, pieces_slash]
  have hslash : endsInSlash (path ++ ("/" ++ rest)) = endsInSlash ("/" ++ rest) :=
    endsInSlash_append path (by simp)
  unfold way
  rw [hpieces, hslash, List.map_append]
  dsimp only
  split
  · rw [List.append_assoc]
  · rfl

end Path

namespace FileSystem

open WriteGate.Path

variable {fs : FileSystem} {purpose : Purpose} {k n : Nat} {s t : Stage}
  {l : Location} {path : String} {bytes : ByteArray}

/-! ## A slash at the end -/

/-- **A walk that will not leave a directory in the end**: its last step is to stay, or it has
been taken. -/
def EndsInDirectory (fs : FileSystem) (s : Stage) : Prop :=
  s.ahead.getLast? = some .here ∨ s.ahead = [] ∧ fs.entryAt? s.location = some .directory

theorem endsInDirectory_outset (h : endsInSlash path = true) :
    fs.EndsInDirectory (fs.outset purpose path) :=
  .inl (getLast?_way h purpose)

/-- The last step stays the last until it is taken. -/
theorem Moves.endsInDirectory (h : fs.Moves purpose k s t) (hs : fs.EndsInDirectory s) :
    fs.EndsInDirectory t := by
  have hlast : s.ahead.getLast? = some .here :=
    hs.resolve_right fun hnil => by cases h <;> cases hnil.1
  cases h with
  | @here l rest hdirectory =>
    cases rest with
    | nil => exact .inr ⟨rfl, hdirectory⟩
    | cons step rest => exact .inl (by simpa using hlast)
  | @up l rest hdirectory =>
    cases rest with
    | nil => simp at hlast
    | cons step rest => exact .inl (by simpa using hlast)
  | @entry l name rest e =>
    cases rest with
    | nil => simp at hlast
    | cons step rest => exact .inl (by simpa using hlast)
  | @link l name target rest =>
    cases rest with
    | nil => simp at hlast
    | cons step rest =>
      refine .inl ?_
      rw [List.getLast?_cons_cons] at hlast
      simp [wayThrough, List.getLast?_append, hlast]

theorem Walks.endsInDirectory (h : fs.Walks purpose n s t) (hs : fs.EndsInDirectory s) :
    fs.EndsInDirectory t := by
  induction h with
  | stay => exact hs
  | go first _ ih => exact ih (first.endsInDirectory hs)

/-- Where a destination is. -/
def Destination.location : Destination → Location
  | .present l => l
  | .vacant l => l

/-- **Behind a slash at the end there is a directory, or nothing**: not a file, and not a
free name either. -/
theorem Arrives.entryAt?_of_endsInDirectory {d : Destination} (h : fs.Arrives s d)
    (hs : fs.EndsInDirectory s) : fs.entryAt? d.location = some .directory := by
  cases h with
  | present =>
    rcases hs with hlast | ⟨-, hdirectory⟩
    · simp at hlast
    · exact hdirectory
  | vacant =>
    rcases hs with hlast | ⟨hnil, -⟩
    · simp at hlast
    · simp at hnil

theorem LeadsTo.entryAt?_of_endsInSlash (h : fs.LeadsTo path l)
    (hslash : endsInSlash path = true) : fs.entryAt? l = some .directory := by
  obtain ⟨-, n, -, hwalk⟩ := h
  exact Arrives.present.entryAt?_of_endsInDirectory
    (hwalk.endsInDirectory (endsInDirectory_outset hslash))

theorem LeadsToFile.endsInSlash_eq_false (h : fs.LeadsToFile path bytes) :
    endsInSlash path = false := by
  obtain ⟨l, hl, hfile⟩ := h
  refine Bool.eq_false_iff.2 fun hslash => ?_
  cases hfile.symm.trans (hl.entryAt?_of_endsInSlash hslash)

/-! ## One way behind another -/

/-- A stage with more steps behind those ahead of it. -/
def Stage.onwards (s : Stage) (behind : List Step) : Stage where
  location := s.location
  ahead := s.ahead ++ behind

/-- Behind a link in the middle of a way, the path of the link comes before the rest. -/
theorem wayThrough_find (target : String) (rest : List Step) :
    wayThrough .find target rest = way .find target ++ rest := by
  cases rest <;> simp [wayThrough]

/-- A move does not look at the steps behind. -/
theorem Moves.onwards (h : fs.Moves .find k s t) (behind : List Step) :
    fs.Moves .find k (s.onwards behind) (t.onwards behind) := by
  cases h with
  | here hdirectory => exact .here hdirectory
  | up hdirectory => exact .up hdirectory
  | entry hdirectory hsize hentry hlink => exact .entry hdirectory hsize hentry hlink
  | @link l name target rest hdirectory hsize hentry htarget =>
    have hrest : wayThrough .find target rest ++ behind
        = wayThrough .find target (rest ++ behind) := by
      rw [wayThrough_find, wayThrough_find, List.append_assoc]
    show fs.Moves .find 1 ⟨l, .entry name :: (rest ++ behind)⟩
      ⟨startOf l target, wayThrough .find target rest ++ behind⟩
    rw [hrest]
    exact .link hdirectory hsize hentry htarget

/-- A move that has a step to take is a move without the steps behind, too. -/
theorem Moves.of_onwards {behind : List Step} (h : fs.Moves .find k (s.onwards behind) t)
    (hne : s.ahead ≠ []) : ∃ u : Stage, t = u.onwards behind ∧ fs.Moves .find k s u := by
  obtain ⟨l, ahead⟩ := s
  obtain ⟨step, rest, rfl⟩ := List.exists_cons_of_ne_nil hne
  rw [Stage.onwards, List.cons_append] at h
  cases h with
  | here hdirectory => exact ⟨⟨l, rest⟩, rfl, .here hdirectory⟩
  | up hdirectory => exact ⟨⟨l.dropLast, rest⟩, rfl, .up hdirectory⟩
  | @entry _ name _ _ hdirectory hsize hentry hlink =>
    exact ⟨⟨l ++ [name], rest⟩, rfl, .entry hdirectory hsize hentry hlink⟩
  | @link _ name target _ hdirectory hsize hentry htarget =>
    refine ⟨⟨startOf l target, wayThrough .find target rest⟩, ?_,
      .link hdirectory hsize hentry htarget⟩
    simp only [Stage.onwards, wayThrough_find, List.append_assoc]

theorem Walks.onwards (h : fs.Walks .find n s t) (behind : List Step) :
    fs.Walks .find n (s.onwards behind) (t.onwards behind) := by
  induction h with
  | stay => exact .stay
  | go first _ ih => exact .go (first.onwards behind) ih

theorem Moves.entryAt?_location (h : fs.Moves purpose k s t) :
    fs.entryAt? s.location = some .directory := by
  cases h <;> assumption

/-- **What is one step behind a way is in a directory**: a walk that arrives there has passed
the end of the way, and was in a directory then. -/
theorem Walks.exists_directory {d : Destination} {step : Step}
    (h : fs.Walks .find n (s.onwards [step]) t) (harrives : fs.Arrives t d) :
    ∃ k ≤ n, ∃ l, fs.Walks .find k s ⟨l, []⟩ ∧ fs.entryAt? l = some .directory := by
  generalize hstart : s.onwards [step] = start at h
  induction h generalizing s with
  | stay =>
    subst hstart
    obtain ⟨l, ahead⟩ := s
    cases ahead with
    | nil =>
      cases harrives with
      | vacant hdirectory => exact ⟨0, Nat.le_refl 0, l, .stay, hdirectory⟩
    | cons first rest =>
      have hlong : (Stage.onwards ⟨l, first :: rest⟩ [step]).ahead.length = rest.length + 2 := by
        simp [Stage.onwards]
      generalize Stage.onwards ⟨l, first :: rest⟩ [step] = u at harrives hlong
      cases harrives <;> simp at hlong
  | @go k n _ u _ first later ih =>
    subst hstart
    obtain ⟨l, ahead⟩ := s
    cases ahead with
    | nil => exact ⟨0, Nat.zero_le _, l, .stay, first.entryAt?_location⟩
    | cons next rest =>
      obtain ⟨u, rfl, hmove⟩ := first.of_onwards (List.cons_ne_nil next rest)
      obtain ⟨m, hm, l', hwalk, hdirectory⟩ := ih harrives rfl
      exact ⟨k + m, by omega, l', .go hmove hwalk, hdirectory⟩

/-! ## Behind files and in directories -/

theorem startOf_append (fs : FileSystem) (hne : path ≠ "") (rest : String) :
    startOf fs.workingDirectory (path ++ rest) = startOf fs.workingDirectory path := by
  rw [startOf, startOf, isAbsolute_append hne]

/-- What stands before a part of a path may be walked if the whole may. -/
theorem checkSpelling_of_append {rest : String} (hne : path ≠ "")
    (h : checkSpelling (path ++ rest) = .ok ()) : checkSpelling path = .ok () := by
  obtain ⟨hnul, -, hsize⟩ := checkSpelling_eq_ok_iff.1 h
  rw [String.toList_append, List.mem_append, not_or] at hnul
  rw [String.utf8ByteSize_append] at hsize
  exact checkSpelling_eq_ok_iff.2 ⟨hnul.1, hne, by omega⟩

/-- **Nothing is behind a file**: a path that goes on from one, or only has a slash more, leads
nowhere. -/
theorem not_leads_behind_file (h : fs.LeadsToFile path bytes) (rest : String) :
    ¬ fs.Leads (path ++ ("/" ++ rest)) := by
  have hslash := h.endsInSlash_eq_false
  obtain ⟨l, ⟨hspelling, n, -, hwalk⟩, hfile⟩ := h
  have hway : way .find path = (pieces path).map Step.ofPiece := by simp [way, hslash]
  have houtset : fs.outset .find (path ++ ("/" ++ rest))
      = (fs.outset .find path).onwards (way .find ("/" ++ rest)) := by
    rw [outset, startOf_append fs (checkSpelling_eq_ok_iff.1 hspelling).2.1, way_append, ← hway]
    rfl
  have hne : way .find ("/" ++ rest) ≠ [] := way_ne_nil .find (by simp)
  obtain ⟨step, later, hbehind⟩ := List.exists_cons_of_ne_nil hne
  have hthere := hwalk.onwards (way .find ("/" ++ rest))
  rw [← houtset, hbehind] at hthere
  exact not_leads_of_deadEnd hthere (.notDirectory (by rw [hfile]; simp))

/-- **What a name is found or free in is a directory**, and the path before the name leads
to it. -/
theorem leadsToDirectory_of_arrivesWithin {name : String} {d : Destination} (hne : path ≠ "")
    (hname : name ≠ "") (hplain : '/' ∉ name.toList)
    (hspelling : checkSpelling (path ++ ("/" ++ name)) = .ok ())
    (h : fs.ArrivesWithin .find linkBudget (fs.outset .find (path ++ ("/" ++ name))) d) :
    fs.LeadsToDirectory path := by
  obtain ⟨n, t, hn, hwalk, harrives⟩ := h
  rw [outset, startOf_append fs hne, way_append, way_name hname hplain] at hwalk
  obtain ⟨k, hk, l, hbefore, hdirectory⟩ :=
    Walks.exists_directory (s := ⟨startOf fs.workingDirectory path, _⟩) hwalk harrives
  refine ⟨l, ⟨checkSpelling_of_append hne hspelling, k, Nat.le_trans hk hn, ?_⟩, hdirectory⟩
  by_cases hslash : endsInSlash path = true
  · have hway : way .find path = (pieces path).map Step.ofPiece ++ [.here] := by
      simp [way, hslash]
    rw [outset, hway]
    exact (hbefore.onwards [.here]).trans (.go (.here hdirectory) .stay)
  · have hway : way .find path = (pieces path).map Step.ofPiece := by simp [way, hslash]
    rw [outset, hway]
    exact hbefore

end FileSystem

end WriteGate

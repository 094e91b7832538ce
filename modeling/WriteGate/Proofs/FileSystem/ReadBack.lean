import WriteGate.Proofs.FileSystem.PutFile
import WriteGate.Proofs.FileSystem.Ways

/-!
# What is written is read back

A file is written where the walk of its path arrives, and the file that is read
under the path afterwards is this one (`Rewrites`). Two things stand between. The
walk of a writing differs from that of a reading: a path or a link with a slash at
the end asks for a directory when it is read and cannot be written at all. And the
file system that is read is another one: an entry has been put into it, and the
walk must not have passed where it was put.

The second point is clear if the place was free or had a file. A walk passes
directories and links, and neither was there. Nothing more is assumed, not even
that locations have directories above them: a walk that has followed a link is not
below it, and never gets there again.
-/

namespace WriteGate.FileSystem

open WriteGate.Path

variable {fs after : FileSystem} {purpose : Purpose} {k n : Nat} {s t : Stage}
  {l place : Location} {path : String} {bytes : ByteArray} {d : Destination}

/-! ## Writing and reading go the same way -/

/-- A move on the way to write is a move on the way to read, unless it comes to where only a
directory will do. -/
theorem Moves.find_of_create (h : fs.Moves .create k s t) :
    fs.Moves .find k s t ∨ fs.EndsInDirectory t := by
  cases h with
  | here hdirectory => exact .inl (.here hdirectory)
  | up hdirectory => exact .inl (.up hdirectory)
  | entry hdirectory hsize hentry hlink => exact .inl (.entry hdirectory hsize hentry hlink)
  | @link l name target rest hdirectory hsize hentry htarget =>
    have hfind : fs.Moves .find 1 ⟨l, .entry name :: rest⟩
        ⟨startOf l target, wayThrough .find target rest⟩ :=
      .link hdirectory hsize hentry htarget
    cases rest with
    | cons step rest => exact .inl hfind
    | nil =>
      cases hslash : endsInSlash target with
      | true => exact .inr (.inl (getLast?_way hslash .create))
      | false =>
        have hway : wayThrough .create target [] = wayThrough .find target [] :=
          way_create_eq hslash
        rw [hway]
        exact .inl hfind

theorem Walks.find_of_create (h : fs.Walks .create n s t) :
    fs.Walks .find n s t ∨ fs.EndsInDirectory t := by
  induction h with
  | stay => exact .inl .stay
  | go first later ih =>
    rcases first.find_of_create with hfind | hend
    · exact ih.imp_left (.go hfind)
    · exact .inr (later.endsInDirectory hend)

/-- **A path that can be written leads to where it is written.** -/
theorem walk_find_of_create (h : fs.walk .create path = .ok d)
    (hd : fs.entryAt? d.location ≠ some .directory) : fs.walk .find path = .ok d := by
  obtain ⟨hspelling, n, t, hn, hwalk, harrives⟩ := walk_eq_ok_iff.1 h
  have hend : ¬ fs.EndsInDirectory t := fun hend =>
    hd (harrives.entryAt?_of_endsInDirectory hend)
  have hslash : endsInSlash path = false := Bool.eq_false_iff.2 fun hslash =>
    hend (hwalk.endsInDirectory (endsInDirectory_outset hslash))
  have houtset : fs.outset .create path = fs.outset .find path := by
    rw [outset, outset, way_create_eq hslash]
  rw [houtset] at hwalk
  exact walk_eq_ok_iff.2 ⟨hspelling, n, t, hn, hwalk.find_of_create.resolve_right hend, harrives⟩

/-! ## Walks in a file system that was written to -/

theorem entryAt?_put_of_directory {e : Entry} (hplace : fs.entryAt? place ≠ some .directory)
    (h : fs.entryAt? l = some .directory) : (fs.put place e).entryAt? l = some .directory := by
  rw [entryAt?_put_of_ne fs e (by rintro rfl; exact hplace h), h]

/-- What is not a directory has a place in one. -/
theorem ne_nil_of_entryAt?_ne (h : fs.entryAt? place ≠ some .directory) : place ≠ [] := by
  rintro rfl
  exact h fs.entryAt?_root

/-- **A move stays possible** when a file is put somewhere. The exception is a link that the
file takes the place of, and behind that link the move is not below it. -/
theorem Moves.put (hplace : fs.entryAt? place ≠ some .directory)
    (h : fs.Moves purpose k s t) (bytes : ByteArray) :
    (fs.put place (.file bytes)).Moves purpose k s t
      ∨ (∃ target, fs.entryAt? place = some (.link target)) ∧ ¬ place <+: t.location := by
  cases h with
  | here hdirectory => exact .inl (.here (entryAt?_put_of_directory hplace hdirectory))
  | up hdirectory => exact .inl (.up (entryAt?_put_of_directory hplace hdirectory))
  | @entry l name rest e hdirectory hsize hentry hlink =>
    have hdirectory' := entryAt?_put_of_directory (e := .file bytes) hplace hdirectory
    by_cases hthere : l ++ [name] = place
    · refine .inl (.entry hdirectory' hsize (e := .file bytes) ?_ fun _ => Entry.noConfusion)
      rw [hthere]
      exact entryAt?_put_self fs _ (ne_nil_of_entryAt?_ne hplace)
    · refine .inl (.entry hdirectory' hsize ?_ hlink)
      rw [entryAt?_put_of_ne fs _ hthere, hentry]
  | @link l name target rest hdirectory hsize hentry htarget =>
    have hdirectory' := entryAt?_put_of_directory (e := .file bytes) hplace hdirectory
    by_cases hthere : l ++ [name] = place
    · refine .inr ⟨⟨target, hthere ▸ hentry⟩, fun hbelow => ?_⟩
      have hlength := hbelow.length_le
      rw [← hthere, List.length_append, List.length_singleton] at hlength
      have hstart : (startOf l target).length ≤ l.length := by
        unfold startOf
        split
        · exact Nat.zero_le _
        · exact Nat.le_refl _
      exact absurd (Nat.le_trans hlength hstart) (Nat.not_succ_le_self _)
    · refine .inl (.link hdirectory' hsize ?_ htarget)
      rw [entryAt?_put_of_ne fs _ hthere, hentry]

/-- A move that is not below a link does not get below it, for a link is no directory. -/
theorem Moves.not_isPrefix {target : String} (hlink : fs.entryAt? place = some (.link target))
    (h : fs.Moves purpose k s t) (hs : ¬ place <+: s.location) : ¬ place <+: t.location := by
  cases h with
  | here => exact hs
  | up => exact fun hbelow => hs (hbelow.trans (List.dropLast_prefix _))
  | @entry l name rest e _ _ hentry hnot =>
    intro hbelow
    rcases List.prefix_concat_iff.1 hbelow with hthere | hbelow
    · rw [hthere, hentry, Option.some.injEq] at hlink
      exact hnot _ hlink
    · exact hs hbelow
  | link =>
    intro hbelow
    unfold startOf at hbelow
    split at hbelow
    · rw [List.prefix_nil.1 hbelow, entryAt?_root] at hlink
      cases hlink
    · exact hs hbelow

theorem Walks.not_isPrefix {target : String} (hlink : fs.entryAt? place = some (.link target))
    (h : fs.Walks purpose n s t) (hs : ¬ place <+: s.location) : ¬ place <+: t.location := by
  induction h with
  | stay => exact hs
  | go first _ ih => exact ih (first.not_isPrefix hlink hs)

/-- **A walk to where a file is put stays a walk**, and so does every walk if the file does not
take the place of a link. -/
theorem Walks.put (hplace : fs.entryAt? place ≠ some .directory)
    (h : fs.Walks purpose n s t) (bytes : ByteArray)
    (hend : t.location = place ∨ ∀ target, fs.entryAt? place ≠ some (.link target)) :
    (fs.put place (.file bytes)).Walks purpose n s t := by
  induction h with
  | stay => exact .stay
  | go first later ih =>
    rcases first.put hplace bytes with hmove | ⟨⟨target, hlink⟩, hclear⟩
    · exact .go hmove (ih hend)
    · rcases hend with rfl | hnot
      · exact absurd (List.prefix_rfl) (later.not_isPrefix hlink hclear)
      · exact absurd hlink (hnot target)

/-! ## Reading back -/

/-- **Writing a file succeeds** where the walk of the path arrives, if no directory is there,
and puts the file in this place. -/
theorem putFile_eq_ok_iff :
    fs.putFile path bytes = .ok after ↔
      ∃ d, fs.walk .create path = .ok d ∧ fs.entryAt? d.location ≠ some .directory
        ∧ after = fs.put d.location (.file bytes) := by
  unfold putFile
  cases hwalk : fs.walk .create path with
  | error fault => simp [bind, Except.bind]
  | ok d =>
    simp only [bind, Except.bind, Except.ok.injEq, exists_eq_left']
    cases d with
    | vacant l =>
      obtain ⟨-, n, t, -, -, harrives⟩ := walk_eq_ok_iff.1 hwalk
      have hfree : fs.entryAt? l = none := by
        cases harrives
        assumption
      simp [Destination.location, hfree, eq_comm]
    | present l =>
      cases hentry : fs.entryAt? l with
      | none => simp [Destination.location, hentry, eq_comm]
      | some e => cases e <;> simp [Destination.location, hentry, eq_comm]

/-- **A file is written through a path**: one place has another content, which is the place
that the path leads to, and all else is as it was. -/
structure Rewrites (fs after : FileSystem) (path : String) (bytes : ByteArray)
    (place : Location) : Prop where
  /-- The path leads to the place when the file is written. -/
  leads : after.LeadsTo path place
  /-- If it led to anything before, it was to this place. -/
  place_of_leadsTo {l : Location} (h : fs.LeadsTo path l) : l = place
  /-- No directory was there. -/
  entryAt?_ne : fs.entryAt? place ≠ some .directory
  /-- The file is there. -/
  entryAt?_place : after.entryAt? place = some (.file bytes)
  /-- Everywhere else, nothing changes. -/
  entryAt?_of_ne {l : Location} (h : l ≠ place) : after.entryAt? l = fs.entryAt? l
  /-- Relative paths start from where they did. -/
  workingDirectory : after.workingDirectory = fs.workingDirectory
  /-- Other paths to the place lead there still. -/
  leadsTo {other : String} (h : fs.LeadsTo other place) : after.LeadsTo other place

/-- **Writing a file rewrites one place.** -/
theorem exists_rewrites (h : fs.putFile path bytes = .ok after) :
    ∃ place, fs.Rewrites after path bytes place := by
  obtain ⟨d, hcreate, hplace, rfl⟩ := putFile_eq_ok_iff.1 h
  have hfind := walk_find_of_create hcreate hplace
  obtain ⟨hspelling, n, t, hn, hwalk, harrives⟩ := walk_eq_ok_iff.1 hfind
  have hthere : (fs.put d.location (.file bytes)).entryAt? d.location = some (.file bytes) :=
    entryAt?_put_self fs _ (ne_nil_of_entryAt?_ne hplace)
  refine ⟨d.location, ⟨hspelling, ?_⟩, ?_, hplace, hthere, entryAt?_put_of_ne fs _, rfl, ?_⟩
  · -- the same walk, and a last move to the file if its name was free
    cases harrives with
    | present => exact ⟨n, hn, hwalk.put hplace bytes (.inl rfl)⟩
    | @vacant parent name hdirectory hsize hnone =>
      have hfree : ∀ target, fs.entryAt? (parent ++ [name]) ≠ some (.link target) := by
        intro target hlink
        rw [hnone] at hlink
        cases hlink
      have hlast : (fs.put (parent ++ [name]) (.file bytes)).Moves .find 0
          ⟨parent, [.entry name]⟩ ⟨parent ++ [name], []⟩ :=
        .entry (entryAt?_put_of_directory hplace hdirectory) hsize hthere
          fun _ => Entry.noConfusion
      exact ⟨n, hn, (hwalk.put hplace bytes (.inr hfree)).trans (.go hlast .stay)⟩
  · intro l hl
    have hpresent : fs.walk .find path = .ok (.present l) :=
      walk_eq_ok_iff.2 ⟨hl.1, hl.2.elim fun m hm => ⟨m, _, hm.1, hm.2, .present⟩⟩
    rw [hfind, Except.ok.injEq] at hpresent
    rw [hpresent]
    rfl
  · rintro other ⟨hother, m, hm, hreaches⟩
    exact ⟨hother, m, hm, hreaches.put hplace bytes (.inl rfl)⟩

/-- **What is written is read back.** -/
theorem Rewrites.contents (h : fs.Rewrites after path bytes place) :
    after.contents path = .ok bytes :=
  contents_eq_ok_iff.2 ⟨place, h.leads, h.entryAt?_place⟩

/-- Whatever path led to where the file is written, the file is read under it. -/
theorem Rewrites.contents_of_leadsTo {other : String} (h : fs.Rewrites after path bytes place)
    (hpath : fs.LeadsTo path l) (hother : fs.LeadsTo other l) :
    after.contents other = .ok bytes := by
  obtain rfl := h.place_of_leadsTo hpath
  exact contents_eq_ok_iff.2 ⟨l, h.leadsTo hother, h.entryAt?_place⟩

/-! ## Where no file can be put -/

/-- **A path under which nothing can be written**, by the ways in which this happens. -/
inductive Unwritable (fs : FileSystem) (path : String) : Prop
  /-- A directory is there. -/
  | directory (h : fs.LeadsToDirectory path)
  /-- What the file was to be in is missing, or is no directory. -/
  | parent {above name : String} (hpath : path = above ++ ("/" ++ name)) (hne : above ≠ "")
      (hname : name ≠ "") (hplain : '/' ∉ name.toList) (h : ¬ fs.LeadsToDirectory above)
  /-- The path is lost in links. -/
  | endless (h : fs.EndlessLinks path)

/-- Where a file can be put, the path leads to no directory. -/
theorem AcceptsFile.exists_walk_find (h : fs.AcceptsFile path) :
    ∃ d, fs.walk .find path = .ok d ∧ fs.entryAt? d.location ≠ some .directory := by
  obtain ⟨after, hafter⟩ := (fs.exists_putFile_iff path ByteArray.empty).2 h
  obtain ⟨d, hcreate, hplace, -⟩ := putFile_eq_ok_iff.1 hafter
  exact ⟨d, walk_find_of_create hcreate hplace, hplace⟩

theorem Unwritable.not_acceptsFile (h : fs.Unwritable path) : ¬ fs.AcceptsFile path := by
  intro haccepts
  obtain ⟨d, hfind, hplace⟩ := haccepts.exists_walk_find
  obtain ⟨hspelling, n, t, hn, hwalk, harrives⟩ := walk_eq_ok_iff.1 hfind
  cases h with
  | directory h =>
    obtain ⟨l, ⟨-, m, -, hwalk'⟩, hdirectory⟩ := h
    obtain ⟨-, rfl⟩ := hwalk.unique hwalk' harrives.halted halted_nil
    obtain rfl := harrives.unique .present
    exact hplace hdirectory
  | parent hpath hne hname hplain h =>
    subst hpath
    exact h (leadsToDirectory_of_arrivesWithin hne hname hplain hspelling
      ⟨n, t, hn, hwalk, harrives⟩)
  | endless h => exact h.not_halted hwalk harrives.halted

end WriteGate.FileSystem

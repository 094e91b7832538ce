import WriteGate.Proofs.FileSystem.Respelling
import WriteGate.Proofs.Run.Abort

/-!
# What is a target

A run evaluates the paths that lead somewhere and name a source file. The first is a
matter of the file system and the second of the path alone, and this module puts
together what is known of both: which spellings are those of source files, what a
longer spelling changes, and that what the path leads to has no say in it.

Two spellings of one path can only differ by being too long (`dots_in_front_too_long`).
-/

namespace WriteGate

namespace FileSystem

open WriteGate.Path

variable {fs : FileSystem} {path path' : String}

/-- **A longer spelling is a target if the path is**, as long as it is not too long. -/
theorem isTarget_iff_of_respells (h : Respells path path') :
    fs.snapshot.isTarget path' = true ↔
      fs.snapshot.isTarget path = true ∧ path'.utf8ByteSize ≤ maxSize := by
  rw [isTarget_snapshot_iff, isTarget_snapshot_iff, namesSource_eq_of_realPieces_eq h.realPieces_eq,
    Leads, Leads]
  simp only [leadsTo_iff_of_respells h]
  rw [exists_and_right, and_assoc]

theorem utf8ByteSize_le_of_isTarget (h : fs.snapshot.isTarget path = true) :
    path.utf8ByteSize ≤ maxSize := by
  obtain ⟨-, l, hspelling, -⟩ := isTarget_snapshot_iff.1 h
  exact (checkSpelling_eq_ok_iff.1 hspelling).2.2

/-! ## Targets -/

/-- **Targets are chosen by name.** A path is a target exactly if it leads somewhere, and to
a directory if it ends in a slash, and it is spelled like a source file. So the last real
piece of the path decides, and not what the path leads to: a link counts by its own name.
A piece that is the extension and no more, that has another extension, be it in another letter
case or longer, or that goes up is no target. A longer spelling of a path, with a dot and a
slash in front, a slash doubled or a dot between slashes, is a target if the path is one,
unless it is longer than a path may be. -/
theorem targets_chosen_by_name (fs : FileSystem) (path : String) :
    (fs.snapshot.isTarget path = true ↔
        fs.Leads path ∧ ∃ s : SourceSpelling, path.toList = s.spelling)
      ∧ (∀ l, fs.LeadsTo path l → endsInSlash path = true → fs.entryAt? l = some .directory)
      ∧ (∀ p : LastPiece, path.toList = p.spelling →
        (fs.snapshot.isTarget path = true ↔
          fs.Leads path ∧ ∃ stem, stem ≠ [] ∧ p.name = stem ++ ".py".toList)
        ∧ (ForeignName p.name → fs.snapshot.isTarget path = false))
      ∧ (∀ fs' : FileSystem, fs.Leads path → fs'.Leads path →
        fs.snapshot.isTarget path = fs'.snapshot.isTarget path)
      ∧ ∀ path', Respells path path' →
        (fs.snapshot.isTarget path' = true ↔
          fs.snapshot.isTarget path = true ∧ path'.utf8ByteSize ≤ maxSize) := by
  have htarget (fs : FileSystem) :
      fs.snapshot.isTarget path = true ↔ fs.Leads path ∧ namesSource path = true :=
    isTarget_snapshot_iff.trans and_comm
  refine ⟨?_, fun l hl hslash => hl.entryAt?_of_endsInSlash hslash,
    fun p hp => ⟨?_, fun hforeign => ?_⟩, fun fs' hleads hleads' => ?_,
    fun path' => isTarget_iff_of_respells⟩
  · rw [htarget, namesSource_iff_exists_spelling]
  · rw [htarget, p.namesSource_iff hp]
  · rw [Bool.eq_false_iff, ne_eq, htarget, p.namesSource_eq_false hp hforeign]
    exact fun h => Bool.false_ne_true h.2
  · rw [Bool.eq_iff_iff, htarget, htarget, iff_true_intro hleads, iff_true_intro hleads']

/-- A link to a file that is no source file, and a file that is none with a link to a source
file. -/
example :
    let fs : FileSystem :=
      { entries := [(["a.py"], .link "data.txt"), (["data.txt"], .file ⟨#[]⟩),
          (["b.txt"], .link "c.py"), (["c.py"], .file ⟨#[]⟩)]
        workingDirectory := [] }
    fs.snapshot.isTarget "a.py" = true ∧ fs.snapshot.isTarget "b.txt" = false := by
  decide +kernel

/-! ## Too long -/

theorem relative_repeat (hne : path ≠ "") (hrelative : isAbsolute path = false) (count : Nat) :
    Nat.repeat ("./" ++ ·) count path ≠ ""
      ∧ isAbsolute (Nat.repeat ("./" ++ ·) count path) = false := by
  induction count with
  | zero => exact ⟨hne, hrelative⟩
  | succ count ih =>
    have hrespells : Respells _ (Nat.repeat ("./" ++ ·) (count + 1) path) := .dotInFront ih.1 ih.2
    exact ⟨hrespells.ne_empty.2, hrespells.isAbsolute_eq.trans ih.2⟩

theorem utf8ByteSize_repeat (path : String) (count : Nat) :
    (Nat.repeat ("./" ++ ·) count path).utf8ByteSize = 2 * count + path.utf8ByteSize := by
  induction count with
  | zero => exact (Nat.zero_add _).symm
  | succ count ih =>
    have hdotSlash : "./".utf8ByteSize = 2 := rfl
    rw [Nat.repeat, String.utf8ByteSize_append, ih, hdotSlash]
    omega

/-- **A target stays one with dots and slashes in front**, as many as the size of a path
allows. -/
theorem isTarget_repeat_iff (hne : path ≠ "") (hrelative : isAbsolute path = false)
    (count : Nat) :
    fs.snapshot.isTarget (Nat.repeat ("./" ++ ·) count path) = true ↔
      fs.snapshot.isTarget path = true ∧ 2 * count + path.utf8ByteSize ≤ maxSize := by
  induction count with
  | zero =>
    rw [Nat.mul_zero, Nat.zero_add]
    exact (and_iff_left_of_imp utf8ByteSize_le_of_isTarget).symm
  | succ count ih =>
    obtain ⟨hne', hrelative'⟩ := relative_repeat hne hrelative count
    have hsize := utf8ByteSize_repeat path (count + 1)
    rw [Nat.repeat] at hsize ⊢
    rw [isTarget_iff_of_respells (.dotInFront hne' hrelative'), ih, hsize, and_assoc]
    exact and_congr_right fun _ => and_iff_right_of_imp (by omega)

/-- A dot and a slash more in front of a relative path without NUL, and the path is no target
any more: it has become longer than a path may be. -/
theorem dots_in_front_too_long :
    let fs : FileSystem :=
      { entries := [(["ab.py"], .file ⟨#[]⟩)], workingDirectory := [] }
    let path := Nat.repeat ("./" ++ ·) 2045 "ab.py"
    path ≠ "" ∧ '\x00' ∉ path.toList ∧ isAbsolute path = false
      ∧ fs.snapshot.isTarget path = true ∧ fs.snapshot.isTarget ("./" ++ path) = false := by
  intro fs path
  have hne : "ab.py" ≠ "" := by decide
  have hrelative : isAbsolute "ab.py" = false := by decide
  have hbare : fs.snapshot.isTarget "ab.py" = true := by decide +kernel
  have htarget : fs.snapshot.isTarget path = true :=
    (isTarget_repeat_iff hne hrelative 2045).2 ⟨hbare, by decide⟩
  obtain ⟨-, l, hspelling, -⟩ := isTarget_snapshot_iff.1 htarget
  obtain ⟨hne', hrelative'⟩ := relative_repeat hne hrelative 2045
  refine ⟨hne', (checkSpelling_eq_ok_iff.1 hspelling).1, hrelative', htarget, ?_⟩
  refine Bool.eq_false_iff.2 fun hlonger => ?_
  have hsize := ((isTarget_repeat_iff hne hrelative 2046).1 hlonger).2
  exact absurd hsize (by decide)

end FileSystem

end WriteGate

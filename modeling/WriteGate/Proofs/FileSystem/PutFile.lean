import WriteGate.FileSystem.Change

/-!
# Where a file can be put

Writing a file looks at the way to it and at what stands at its end, and never
at what is to be written. So whether it succeeds is a property of the file
system and the path alone.
-/

namespace WriteGate.FileSystem

/-- **A file can be put at a path**: the path leads to a name that is free in a directory,
or to something that is no directory. -/
inductive AcceptsFile (fs : FileSystem) (path : String) : Prop
  /-- A name that is free. -/
  | vacant {l : Location} (h : fs.walk .create path = .ok (.vacant l)) : AcceptsFile fs path
  /-- Something whose content is replaced. -/
  | present {l : Location} (h : fs.walk .create path = .ok (.present l))
      (hentry : fs.entryAt? l ≠ some .directory) : AcceptsFile fs path

/-- **Writing a file succeeds exactly where one can be put**, whatever its bytes. -/
theorem exists_putFile_iff (fs : FileSystem) (path : String) (bytes : ByteArray) :
    (∃ after, fs.putFile path bytes = .ok after) ↔ fs.AcceptsFile path := by
  unfold putFile
  constructor
  · rintro ⟨after, hafter⟩
    cases hwalk : fs.walk .create path with
    | error fault =>
      rw [hwalk] at hafter
      cases hafter
    | ok d =>
      rw [hwalk] at hafter
      cases d with
      | vacant l => exact .vacant hwalk
      | present l =>
        refine .present hwalk (fun hdirectory => ?_)
        simp [bind, Except.bind, hdirectory] at hafter
  · rintro (hwalk | ⟨hwalk, hentry⟩)
    · exact ⟨_, by rw [hwalk]; rfl⟩
    · rw [hwalk]
      simp only [bind, Except.bind]
      exact ⟨_, rfl⟩

/-- Why a text cannot be written to a path, if it cannot. -/
def refusal (fs : FileSystem) (path text : String) : Option Fault :=
  match fs.putFile path text.toUTF8 with
  | .ok _ => none
  | .error fault => some fault

/-- **Nothing is refused exactly where a file can be put.** -/
theorem refusal_eq_none_iff (fs : FileSystem) (path text : String) :
    fs.refusal path text = none ↔ fs.AcceptsFile path := by
  rw [← fs.exists_putFile_iff path text.toUTF8]
  unfold refusal
  cases fs.putFile path text.toUTF8 <;> simp

end WriteGate.FileSystem

import WriteGate.Proofs.CommandLine.ExitStatus
import WriteGate.Proofs.FileSystem.ReadBack

/-!
# What a call leaves

A call ends in one of six ways, and each leaves something on the standard output, in
one file, or nowhere (`invoke_ending`). Three of them are failures on the way to the
output: the arguments are mistaken, a target cannot be read, the report cannot be
put where it is to go. They leave nothing but words on the standard error output.

That the last of the three leaves nothing has two reasons. What is printed is decided
before the file is opened, and is nothing if there is to be a file; and a file system
that refuses to open a file has not changed.
-/

namespace WriteGate.CommandLine

open FileSystem

variable {fs after : FileSystem} {arguments : List String} {answer : Answer}

/-- **The ways in which a call ends**, with the answer and the file system that it leaves. A
run is told by what one worker makes of its paths. -/
inductive Ending (fs : FileSystem) (arguments : List String) : Answer → FileSystem → Prop
  /-- A flag is answered. -/
  | informed {flag : Flag} (hsettings : settings arguments = .error (.information flag)) :
      Ending fs arguments (inform flag) fs
  /-- The arguments are mistaken. -/
  | mistaken {e : UsageError} {answer : Answer}
      (hsettings : settings arguments = .error (.mistake e)) (hstdout : answer.stdout = "") :
      Ending fs arguments answer fs
  /-- A target cannot be read. -/
  | aborted {s : Settings} {failure : ReadFailure} {answer : Answer}
      (hsettings : settings arguments = .ok s)
      (hgate : gate fs.snapshot s.paths tool 1 [] = .error failure)
      (hstdout : answer.stdout = "") : Ending fs arguments answer fs
  /-- The report cannot be written where it is to go. -/
  | refused {s : Settings} {report : Report} {out : String} {answer : Answer}
      (hsettings : settings arguments = .ok s)
      (hgate : gate fs.snapshot s.paths tool 1 [] = .ok report)
      (hout : s.out = some out) (hsink : ¬ fs.AcceptsFile out)
      (hstdout : answer.stdout = "") : Ending fs arguments answer fs
  /-- The report is printed. -/
  | printed {s : Settings} {report : Report} {answer : Answer}
      (hsettings : settings arguments = .ok s)
      (hgate : gate fs.snapshot s.paths tool 1 [] = .ok report)
      (hout : s.out = none) (hexit : answer.exit = report.exitCode)
      (hstdout : answer.stdout = s.format.render report) : Ending fs arguments answer fs
  /-- The report is written to a file. -/
  | written {s : Settings} {report : Report} {out : String} {place : Location}
      {answer : Answer} {after : FileSystem} (hsettings : settings arguments = .ok s)
      (hgate : gate fs.snapshot s.paths tool 1 [] = .ok report)
      (hout : s.out = some out) (hsink : fs.AcceptsFile out)
      (hexit : answer.exit = report.exitCode) (hstdout : answer.stdout = "")
      (hafter : fs.Rewrites after out (s.format.render report).toUTF8 place) :
      Ending fs arguments answer after

/-- **Every call ends in one of these ways.** -/
theorem invoke_ending (fs : FileSystem) (arguments : List String) (filter : Log.Filter)
    (schedule : Schedule) :
    Ending fs arguments (invoke fs arguments filter schedule).1
      (invoke fs arguments filter schedule).2 := by
  unfold invoke
  cases hsettings : settings arguments with
  | error stop =>
    unfold respond
    rw [hsettings]
    cases stop with
    | information flag => exact .informed hsettings
    | mistake e => exact .mistaken hsettings rfl
  | ok s =>
    have hone : gate fs.snapshot s.paths tool 1 []
        = gate fs.snapshot s.paths tool s.jobs.toNat schedule := by
      rw [gate_eq, gate_eq]
    rw [respond_of_settings hsettings]
    cases hgate : gate fs.snapshot s.paths tool s.jobs.toNat schedule with
    | error failure =>
      rw [Settings.respond_of_gate_error hgate]
      exact .aborted hsettings (hone.trans hgate) rfl
    | ok report =>
      rw [Settings.respond_of_gate_ok hgate]
      cases hout : s.out with
      | none => exact .printed hsettings (hone.trans hgate) hout rfl rfl
      | some out =>
        dsimp only [Option.map_some]
        cases hput : fs.putFile out (s.format.render report).toUTF8 with
        | ok after =>
          have hsink := (fs.exists_putFile_iff out _).1 ⟨after, hput⟩
          obtain ⟨place, hplace⟩ := exists_rewrites hput
          exact .written hsettings (hone.trans hgate) hout hsink rfl rfl hplace
        | error fault =>
          refine .refused hsettings (hone.trans hgate) hout (fun hsink => ?_) rfl
          obtain ⟨after, hafter⟩ :=
            (fs.exists_putFile_iff out (s.format.render report).toUTF8).2 hsink
          rw [hput] at hafter
          cases hafter

/-! ## Failures -/

/-- **A call that fails on the way to its output.** -/
inductive Breaks (fs : FileSystem) (arguments : List String) : Prop
  /-- The arguments are mistaken. -/
  | mistaken {e : UsageError} (hmistake : settings arguments = .error (.mistake e)) :
      Breaks fs arguments
  /-- A target among the paths cannot be read. -/
  | unreadable {s : Settings} {path : String} {failure : ReadFailure}
      (hsettings : settings arguments = .ok s) (hpath : path ∈ s.paths)
      (htarget : fs.snapshot.isTarget path = true)
      (hread : fs.snapshot.readSource path = .error failure) : Breaks fs arguments
  /-- No file can be put where the report is to go. -/
  | refused {s : Settings} {out : String} (hsettings : settings arguments = .ok s)
      (hout : s.out = some out) (hsink : ¬ fs.AcceptsFile out) : Breaks fs arguments

theorem not_breaks_of_gate {s : Settings} {report : Report}
    (hsettings : settings arguments = .ok s)
    (hgate : gate fs.snapshot s.paths tool 1 [] = .ok report)
    (hsink : ∀ out, s.out = some out → fs.AcceptsFile out) : ¬ Breaks fs arguments := by
  intro h
  cases h with
  | mistaken hmistake => cases hsettings.symm.trans hmistake
  | unreadable hsettings' hpath htarget hread =>
    obtain rfl := Except.ok.inj (hsettings.symm.trans hsettings')
    obtain ⟨outcome, houtcome⟩ := exists_outcome_of_gate_eq_ok hgate hpath htarget
    rw [Snapshot.inspect_eq_error_iff.2 hread] at houtcome
    cases houtcome
  | refused hsettings' hout hrefused =>
    obtain rfl := Except.ok.inj (hsettings.symm.trans hsettings')
    exact hrefused (hsink _ hout)

/-- **Nothing is left of a call that fails on the way.** -/
theorem Ending.stdout_eq_empty_of_breaks (hending : Ending fs arguments answer after)
    (h : Breaks fs arguments) : answer.stdout = "" ∧ after = fs := by
  cases hending with
  | informed hsettings =>
    cases h with
    | mistaken h => cases hsettings.symm.trans h
    | unreadable h => cases hsettings.symm.trans h
    | refused h => cases hsettings.symm.trans h
  | mistaken _ hstdout => exact ⟨hstdout, rfl⟩
  | aborted _ _ hstdout => exact ⟨hstdout, rfl⟩
  | refused _ _ _ _ hstdout => exact ⟨hstdout, rfl⟩
  | printed hsettings hgate hout =>
    refine absurd h (not_breaks_of_gate hsettings hgate fun out hout' => ?_)
    cases hout.symm.trans hout'
  | written hsettings hgate hout hsink =>
    refine absurd h (not_breaks_of_gate hsettings hgate fun out hout' => ?_)
    obtain rfl := Option.some.inj (hout.symm.trans hout')
    exact hsink

/-- What a call changes, if it changes anything, is the file that its report goes to. -/
theorem Ending.eq_or_rewrites (hending : Ending fs arguments answer after) :
    after = fs ∨ ∃ s report out place, settings arguments = .ok s
      ∧ gate fs.snapshot s.paths tool 1 [] = .ok report ∧ s.out = some out
      ∧ fs.Rewrites after out (s.format.render report).toUTF8 place := by
  cases hending with
  | informed => exact .inl rfl
  | mistaken => exact .inl rfl
  | aborted => exact .inl rfl
  | refused => exact .inl rfl
  | printed => exact .inl rfl
  | written hsettings hgate hout _ _ _ hafter =>
    exact .inr ⟨_, _, _, _, hsettings, hgate, hout, hafter⟩

/-- **A call that fails leaves no trace.** If the arguments are mistaken, a target cannot be
read or the report cannot be written where it is to go, then nothing is printed and the file
system is as before; and a report cannot be written where a directory is, where the
directory that it was to be in is missing, or where links lead without end. Any other call
changes one file at most, which is the one that the path for the report leads to, and its
content is the report. -/
theorem failed_calls_leave_no_trace (fs : FileSystem) (arguments : List String)
    (filter : Log.Filter) (schedule : Schedule) :
    let called := invoke fs arguments filter schedule
    (Breaks fs arguments → called.1.stdout = "" ∧ called.2 = fs)
      ∧ (∀ s out, settings arguments = .ok s → s.out = some out → fs.Unwritable out →
        Breaks fs arguments)
      ∧ (called.2 = fs ∨ ∃ s report out place, settings arguments = .ok s
        ∧ gate fs.snapshot s.paths tool 1 [] = .ok report ∧ s.out = some out
        ∧ fs.Rewrites called.2 out (s.format.render report).toUTF8 place) := by
  intro called
  have hending : Ending fs arguments called.1 called.2 :=
    invoke_ending fs arguments filter schedule
  refine ⟨hending.stdout_eq_empty_of_breaks, ?_, hending.eq_or_rewrites⟩
  intro s out hsettings hout hunwritable
  exact .refused hsettings hout hunwritable.not_acceptsFile

/-- A directory among the paths, and a file that the report would have replaced. -/
theorem no_trace_of_unreadable :
    let fs : FileSystem :=
      { entries := [(["pkg.py"], .directory), (["r.txt"], .file ⟨#[0x41]⟩)]
        workingDirectory := [] }
    Breaks fs ["--out=r.txt", "pkg.py"] ∧ ∀ filter schedule,
      let called := invoke fs ["--out=r.txt", "pkg.py"] filter schedule
      called.1.stdout = "" ∧ called.2 = fs := by
  intro fs
  have hsettings : settings ["--out=r.txt", "pkg.py"]
      = .ok { paths := ["pkg.py"], format := .text, out := some "r.txt", jobs := 1 } := rfl
  have htarget : fs.snapshot.isTarget "pkg.py" = true := by decide +kernel
  have hbreaks : Breaks fs ["--out=r.txt", "pkg.py"] :=
    .unreadable hsettings (List.mem_singleton.2 rfl) htarget rfl
  exact ⟨hbreaks, fun filter schedule =>
    (failed_calls_leave_no_trace fs _ filter schedule).1 hbreaks⟩

end WriteGate.CommandLine

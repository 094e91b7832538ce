import WriteGate.Proofs.CommandLine.Endings
import WriteGate.Proofs.Report.RoundTrip
import WriteGate.Proofs.Run.Composition

/-!
# One report, wherever it goes

A report can be asked for in two formats, and it can be printed or written to a file.
All calls for it agree: they end with the status of the report, and what they put
out is the report in the format, on the standard output or in the file. The file may
be one of those that were evaluated, under the path that it was evaluated under or
another. All paths are read before anything is written, so the report is on what the
file was.

The formats agree as well. The full one is read back as the report, and the short one
is made of nothing else, so it is known to whoever has the full one.
-/

namespace WriteGate.CommandLine

open FileSystem Json JsonForm

/-! ## Reading a report from bytes -/

/-- **The report that bytes hold** in the full format. -/
def reportOfBytes? (bytes : ByteArray) : Option Report :=
  (String.fromUTF8? bytes).bind fun text => (read? text).bind ofJson?

theorem fromUTF8?_toUTF8 (text : String) : String.fromUTF8? text.toUTF8 = some text := by
  have hvalid : text.toUTF8.IsValidUTF8 := text.isValidUTF8
  rw [String.fromUTF8?, dif_pos hvalid]
  rfl

/-- **A report in the full format is read back.** -/
theorem reportOfBytes?_render (report : Report) :
    reportOfBytes? (Format.json.render report).toUTF8 = some report := by
  have hread : read? (Format.json.render report) = some (toJson report) :=
    Report.read?_of_mem_jsonTexts (by simp [Report.jsonTexts, Format.render])
  rw [reportOfBytes?, fromUTF8?_toUTF8, Option.bind_some, hread, Option.bind_some,
    ofJson?_toJson]

/-! ## Calls for one report -/

/-- **What a call puts out that has a report and a place for it.** -/
theorem Ending.of_gate {fs after : FileSystem} {arguments : List String} {answer : Answer}
    {s : Settings} {report : Report} (hending : Ending fs arguments answer after)
    (hsettings : settings arguments = .ok s)
    (hgate : gate fs.snapshot s.paths tool 1 [] = .ok report)
    (hsink : ∀ out, s.out = some out → fs.AcceptsFile out) :
    answer.exit = report.exitCode
      ∧ (s.out = none → answer.stdout = s.format.render report ∧ after = fs)
      ∧ ∀ out, s.out = some out → answer.stdout = ""
        ∧ ∃ place, fs.Rewrites after out (s.format.render report).toUTF8 place := by
  cases hending with
  | informed h => cases hsettings.symm.trans h
  | mistaken h => cases hsettings.symm.trans h
  | aborted h herror =>
    obtain rfl := Except.ok.inj (hsettings.symm.trans h)
    cases hgate.symm.trans herror
  | refused h _ hout hrefused =>
    obtain rfl := Except.ok.inj (hsettings.symm.trans h)
    exact absurd (hsink _ hout) hrefused
  | printed h hreport hout hexit hstdout =>
    obtain rfl := Except.ok.inj (hsettings.symm.trans h)
    obtain rfl := Except.ok.inj (hgate.symm.trans hreport)
    refine ⟨hexit, fun _ => ⟨hstdout, rfl⟩, fun out hout' => ?_⟩
    cases hout.symm.trans hout'
  | written h hreport hout _ hexit hstdout hafter =>
    obtain rfl := Except.ok.inj (hsettings.symm.trans h)
    obtain rfl := Except.ok.inj (hgate.symm.trans hreport)
    refine ⟨hexit, fun hnone => ?_, fun out hout' => ⟨hstdout, ?_⟩⟩
    · cases hout.symm.trans hnone
    · obtain rfl := Option.some.inj (hout.symm.trans hout')
      exact ⟨_, hafter⟩

/-- **All calls for a report agree.** Let the gate yield a report on some paths, with any
number of workers under any schedule. Every call with settings for these paths, in either
format and with any place for the report where a file can be put, ends with the status of
the report. Without such a place the report in the format is printed, and the file system
stays as it was. With one, nothing is printed, and the report in the format is what is read
afterwards under the path of the place and under every other that led there, those of files
in the report included, whose outcomes are of the bytes that they had before. The short
format is the short form of the report; the full one is read back as the report, and from
there the short one can be made. -/
theorem output_routes_agree {fs : FileSystem} {paths : List String} {jobs : Nat}
    {schedule : Schedule} {report : Report}
    (hgate : gate fs.snapshot paths tool jobs schedule = .ok report) :
    (∀ arguments s filter schedule', settings arguments = .ok s → s.paths = paths →
        (∀ out, s.out = some out → fs.AcceptsFile out) →
        let called := invoke fs arguments filter schedule'
        let text := s.format.render report
        called.1.exit = report.exitCode
          ∧ (s.out = none → called.1.stdout = text ∧ called.2 = fs)
          ∧ ∀ out, s.out = some out → called.1.stdout = ""
            ∧ called.2.contents out = .ok text.toUTF8
            ∧ ∀ path l, fs.LeadsTo out l → fs.LeadsTo path l →
              called.2.contents path = .ok text.toUTF8)
      ∧ List.Forall₂ (fun path outcome => ∃ bytes, fs.contents path = .ok bytes
            ∧ outcome = (SourceFile.ofBytes path bytes).evaluate)
          (paths.filter fs.snapshot.isTarget) report.files
      ∧ Format.text.render report = report.toText
      ∧ reportOfBytes? (Format.json.render report).toUTF8 = some report
      ∧ (reportOfBytes? (Format.json.render report).toUTF8).map Report.toText
          = some (Format.text.render report) := by
  have hread := reportOfBytes?_render report
  refine ⟨?_, forall₂_files hgate, rfl, hread, by rw [hread]; rfl⟩
  rintro arguments s filter schedule' hsettings rfl hsink called text
  have hone : gate fs.snapshot s.paths tool 1 [] = .ok report := by
    rw [← hgate, gate_eq, gate_eq]
  obtain ⟨hexit, hprinted, hwritten⟩ :=
    (invoke_ending fs arguments filter schedule').of_gate hsettings hone hsink
  refine ⟨hexit, hprinted, fun out hout => ?_⟩
  obtain ⟨hstdout, place, hafter⟩ := hwritten out hout
  exact ⟨hstdout, hafter.contents, fun path l hl hpath => hafter.contents_of_leadsTo hl hpath⟩

/-- A report that is written over the file which it is on, through a link. -/
theorem output_over_input :
    let fs : FileSystem :=
      { entries := [(["a.py"], .file ⟨#[0xFF]⟩), (["r.txt"], .link "a.py")]
        workingDirectory := [] }
    let report := Report.ofOutcomes tool [(SourceFile.ofBytes "a.py" ⟨#[0xFF]⟩).evaluate]
    gate fs.snapshot ["a.py"] tool 1 [] = .ok report ∧ ∀ filter schedule,
      let called := invoke fs ["--format=json", "--out=r.txt", "a.py"] filter schedule
      called.1.exit = report.exitCode ∧ called.1.stdout = ""
        ∧ called.2.contents "a.py" = .ok (Format.json.render report).toUTF8 := by
  intro fs report
  have htarget : fs.snapshot.isTarget "a.py" = true := by decide +kernel
  have hread : fs.snapshot.inspect "a.py"
      = .ok (SourceFile.ofBytes "a.py" ⟨#[0xFF]⟩).evaluate :=
    Snapshot.inspect_eq_ok_iff.2 ⟨_, rfl, rfl⟩
  have hgate : gate fs.snapshot ["a.py"] tool 1 [] = .ok report :=
    gate_eq_ok_iff.2 ⟨_, by simp [List.filter, htarget, hread], rfl⟩
  refine ⟨hgate, fun filter schedule => ?_⟩
  have hsettings : settings ["--format=json", "--out=r.txt", "a.py"]
      = .ok { paths := ["a.py"], format := .json, out := some "r.txt", jobs := 1 } := rfl
  have hsink : ∀ out, some "r.txt" = some out → fs.AcceptsFile out := by
    rintro _ ⟨⟩
    have hwalk : fs.walk .create "r.txt" = .ok (.present ["a.py"]) := rfl
    have hfile : fs.entryAt? ["a.py"] = some (.file ⟨#[0xFF]⟩) := rfl
    exact .present hwalk (by rw [hfile]; simp)
  obtain ⟨hexit, -, hwritten⟩ :=
    (output_routes_agree hgate).1 _ _ filter schedule hsettings rfl hsink
  obtain ⟨hstdout, -, hinput⟩ := hwritten "r.txt" rfl
  exact ⟨hexit, hstdout,
    hinput "a.py" ["a.py"] (locate_eq_ok_iff.1 rfl) (locate_eq_ok_iff.1 rfl)⟩

end WriteGate.CommandLine

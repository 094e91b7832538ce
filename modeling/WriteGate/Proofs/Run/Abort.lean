import WriteGate.Proofs.FileSystem.Tree
import WriteGate.Proofs.Run.Composition

/-!
# What ends a run

A run asks of a path twice where it leads: to see whether there is anything, and to
read it. In a tree both questions have one answer, and it is a directory or a
file. A file can be read, whatever its bytes, so a run ends early for one reason
only: a path that names a source file and leads to a directory.

All other paths that lead nowhere, or name no source file, are passed over
(`PassedOver`). The ways in which a path can lead nowhere are many, and none of them
needs to be known: it is enough that the path does not exist.
-/

namespace WriteGate

open FileSystem

namespace FileSystem

open WriteGate.Path

/-- **A path that misleads**: it names a source file and leads to a directory. -/
def Misleads (fs : FileSystem) (path : String) : Prop :=
  namesSource path = true ∧ fs.LeadsToDirectory path

/-- **A path that is passed over**, by the ways in which this happens. -/
inductive PassedOver (fs : FileSystem) (path : String) : Prop
  /-- It names no source file. -/
  | foreign (h : namesSource path = false)
  /-- A name on the way is missing: its own, or one that a link stands for. -/
  | missing (h : fs.Missing path)
  /-- It is lost in links. -/
  | endless (h : fs.EndlessLinks path)
  /-- It goes on behind a file, be it with a slash alone. -/
  | behindFile {file rest : String} {bytes : ByteArray} (h : fs.LeadsToFile file bytes)
      (hpath : path = file ++ ("/" ++ rest))

variable {fs : FileSystem} {path : String} {failure : ReadFailure}

theorem isTarget_snapshot_iff :
    fs.snapshot.isTarget path = true ↔ namesSource path = true ∧ fs.Leads path := by
  rw [Snapshot.isTarget, Bool.and_eq_true, and_comm]
  exact and_congr_right fun _ => pathExists_iff

theorem PassedOver.isTarget_eq_false (h : fs.PassedOver path) :
    fs.snapshot.isTarget path = false := by
  refine Bool.eq_false_iff.2 fun htarget => ?_
  obtain ⟨hnames, hleads⟩ := isTarget_snapshot_iff.1 htarget
  cases h with
  | foreign h =>
    rw [h] at hnames
    cases hnames
  | missing h => exact h.not_leads hleads
  | endless h => exact h.not_leads hleads
  | behindFile h hpath =>
    rw [hpath] at hleads
    exact not_leads_behind_file h _ hleads

/-- What misleads is a target that cannot be read. -/
theorem Misleads.isTarget_and_readSource (h : fs.Misleads path) :
    fs.snapshot.isTarget path = true
      ∧ fs.snapshot.readSource path = .error ⟨path, .isDirectory⟩ := by
  obtain ⟨hnames, hdirectory⟩ := h
  have hleads : fs.Leads path := hdirectory.imp fun _ => And.left
  have hcontents : fs.snapshot.contents path = .error .isDirectory := hdirectory.contents
  exact ⟨isTarget_snapshot_iff.2 ⟨hnames, hleads⟩, by rw [Snapshot.readSource, hcontents]⟩

/-- **In a tree, a target can be read unless it misleads.** -/
theorem IsTree.inspect_isOk_or_misleads (htree : fs.IsTree)
    (h : fs.snapshot.isTarget path = true) :
    (fs.snapshot.inspect path).isOk ∨ fs.Misleads path := by
  obtain ⟨hnames, hleads⟩ := isTarget_snapshot_iff.1 h
  rcases htree.leads_iff.1 hleads with hdirectory | ⟨bytes, hfile⟩
  · exact .inr ⟨hnames, hdirectory⟩
  · have houtcome : fs.snapshot.inspect path
        = .ok (SourceFile.ofBytes path bytes).evaluate :=
      Snapshot.inspect_eq_ok_iff.2 ⟨bytes, contents_eq_ok_iff.2 hfile, rfl⟩
    rw [houtcome]
    exact .inl rfl

theorem Misleads.not_isOk_inspect (h : fs.Misleads path) :
    ¬ (fs.snapshot.inspect path).isOk := by
  rw [Snapshot.inspect_eq_error_iff.2 h.isTarget_and_readSource.2]
  exact Bool.false_ne_true

/-- A target that cannot be read misleads, and is said to be a directory. -/
theorem IsTree.misleads_of_readSource (htree : fs.IsTree)
    (htarget : fs.snapshot.isTarget path = true)
    (h : fs.snapshot.readSource path = .error failure) :
    fs.Misleads path ∧ failure = ⟨path, .isDirectory⟩ := by
  have herror := Snapshot.inspect_eq_error_iff.2 h
  rcases htree.inspect_isOk_or_misleads htarget with hok | hmisleads
  · rw [herror] at hok
    exact absurd hok Bool.false_ne_true
  · rw [hmisleads.isTarget_and_readSource.2] at h
    exact ⟨hmisleads, (Except.error.inj h).symm⟩

end FileSystem

/-! ## Runs over trees -/

section Runs

variable {fs : FileSystem} {before after paths : List String} {path : String} {tool : Tool}
  {jobs : Nat} {schedule : Schedule} {failure : ReadFailure} {report : Report}

/-- **A run over a tree fails at the first path that misleads**, and for no other reason. -/
theorem FileSystem.IsTree.gate_eq_error_iff (htree : fs.IsTree) :
    gate fs.snapshot paths tool jobs schedule = .error failure ↔
      ∃ before path after, paths = before ++ path :: after
        ∧ (∀ p ∈ before, ¬ fs.Misleads p) ∧ fs.Misleads path
        ∧ failure = ⟨path, .isDirectory⟩ := by
  rw [WriteGate.gate_eq_error_iff]
  constructor
  · rintro ⟨before, path, after, hpaths, hbefore, htarget, hread, -⟩
    obtain ⟨hmisleads, hfailure⟩ := htree.misleads_of_readSource htarget hread
    exact ⟨before, path, after, hpaths, fun p hp h =>
      h.not_isOk_inspect (hbefore p hp h.isTarget_and_readSource.1), hmisleads, hfailure⟩
  · rintro ⟨before, path, after, hpaths, hbefore, hmisleads, rfl⟩
    obtain ⟨htarget, hread⟩ := hmisleads.isTarget_and_readSource
    exact ⟨before, path, after, hpaths, fun p hp hp' =>
      (htree.inspect_isOk_or_misleads hp').resolve_right (hbefore p hp), htarget, hread, rfl⟩

theorem FileSystem.Misleads.gate_ne_ok (h : fs.Misleads path) (hpath : path ∈ paths) :
    gate fs.snapshot paths tool jobs schedule ≠ .ok report := by
  intro hgate
  obtain ⟨outcome, houtcome⟩ :=
    exists_outcome_of_gate_eq_ok hgate hpath h.isTarget_and_readSource.1
  exact h.not_isOk_inspect (by rw [houtcome]; rfl)

/-- **A report on a file system is on files**, with one outcome for each path that names a
source file and leads somewhere. -/
theorem forall₂_leadsToFile (h : gate fs.snapshot paths tool jobs schedule = .ok report) :
    List.Forall₂ (fun path outcome => ∃ bytes, fs.LeadsToFile path bytes
        ∧ outcome = (SourceFile.ofBytes path bytes).evaluate)
      (paths.filter fun path => Path.namesSource path ∧ fs.Leads path) report.files := by
  have htargets : (paths.filter fun path => Path.namesSource path ∧ fs.Leads path)
      = paths.filter fs.snapshot.isTarget :=
    List.filter_congr fun path _ => by
      rw [Bool.eq_iff_iff, decide_eq_true_iff, isTarget_snapshot_iff]
  rw [htargets]
  refine (forall₂_files h).imp fun path outcome => ?_
  rintro ⟨bytes, hbytes, houtcome⟩
  exact ⟨bytes, contents_eq_ok_iff.1 hbytes, houtcome⟩

theorem FileSystem.PassedOver.not_mem_files (h : fs.PassedOver path)
    (hgate : gate fs.snapshot paths tool jobs schedule = .ok report) :
    path ∉ report.files.map FileOutcome.path := by
  rw [map_path_files hgate, List.mem_filter, h.isTarget_eq_false]
  exact fun hmem => Bool.false_ne_true hmem.2

/-- A path that is passed over makes no difference. -/
theorem FileSystem.PassedOver.gate_eq (h : fs.PassedOver path) :
    gate fs.snapshot (before ++ path :: after) tool jobs schedule
      = gate fs.snapshot (before ++ after) tool jobs schedule := by
  refine gate_eq_of_targets_eq ?_
  rw [List.filter_append, List.filter_append, List.filter_cons, h.isTarget_eq_false]
  rfl

end Runs

/-- **A run ends early only for a directory.** In a tree of files, directories and links,
with any number of workers under any schedule, a run fails exactly if a path misleads, and
the failure names the first one that does. Otherwise every path that names a source file and
leads somewhere leads to a file, and has one outcome, that of the bytes there; they may be
anything. A path that is passed over is in no report and makes no difference. -/
theorem gate_error_iff_misleads {fs : FileSystem} (htree : fs.IsTree) (paths : List String)
    (tool : Tool) (jobs : Nat) (schedule : Schedule) :
    (∀ failure, gate fs.snapshot paths tool jobs schedule = .error failure ↔
        ∃ before path after, paths = before ++ path :: after
          ∧ (∀ p ∈ before, ¬ fs.Misleads p) ∧ fs.Misleads path
          ∧ failure = ⟨path, .isDirectory⟩)
      ∧ ((∃ failure, gate fs.snapshot paths tool jobs schedule = .error failure) ↔
        ∃ path ∈ paths, fs.Misleads path)
      ∧ (∀ report, gate fs.snapshot paths tool jobs schedule = .ok report →
        List.Forall₂ (fun path outcome => ∃ bytes, fs.LeadsToFile path bytes
            ∧ outcome = (SourceFile.ofBytes path bytes).evaluate)
          (paths.filter fun path => Path.namesSource path ∧ fs.Leads path) report.files)
      ∧ ∀ path, fs.PassedOver path →
        (∀ report, gate fs.snapshot paths tool jobs schedule = .ok report →
            path ∉ report.files.map FileOutcome.path)
          ∧ ∀ before after, paths = before ++ path :: after →
            gate fs.snapshot paths tool jobs schedule
              = gate fs.snapshot (before ++ after) tool jobs schedule := by
  refine ⟨fun failure => htree.gate_eq_error_iff, ?_, fun report => forall₂_leadsToFile,
    fun path hpassed => ⟨fun report => hpassed.not_mem_files, ?_⟩⟩
  · constructor
    · rintro ⟨failure, hfailure⟩
      obtain ⟨before, path, after, rfl, -, hmisleads, -⟩ := htree.gate_eq_error_iff.1 hfailure
      exact ⟨path, by simp, hmisleads⟩
    · rintro ⟨path, hpath, hmisleads⟩
      cases hgate : gate fs.snapshot paths tool jobs schedule with
      | error failure => exact ⟨failure, rfl⟩
      | ok report => exact absurd hgate (hmisleads.gate_ne_ok hpath)
  · rintro before after rfl
    exact hpassed.gate_eq

/-- A link to itself is passed over, a file that is no text is read, and the first of two
directories ends the run. -/
theorem gate_error_of_package :
    let fs : FileSystem :=
      { entries := [(["a.py"], .file ⟨#[0xFF]⟩), (["loop.py"], .link "loop.py"),
          (["pkg.py"], .directory)]
        workingDirectory := [] }
    fs.IsTree ∧ fs.PassedOver "loop.py" ∧ ∀ jobs schedule,
      gate fs.snapshot ["loop.py", "a.py", "./pkg.py/", "pkg.py"] ⟨"t", "1"⟩ jobs schedule
        = .error ⟨"./pkg.py/", .isDirectory⟩ := by
  intro fs
  have hbuilt : fs.Built :=
    .change (.change (.change (.bare []) (@Changes.makeDirectory _ _ "pkg.py" rfl))
      (@Changes.makeLink _ _ "loop.py" "loop.py" rfl))
      (@Changes.putFile _ _ "a.py" ⟨#[0xFF]⟩ rfl)
  have hcircle : fs.Walks .find 1 (fs.outset .find "loop.py") (fs.outset .find "loop.py") :=
    .go (.link rfl (by decide) rfl (by decide)) .stay
  have hpassed : fs.PassedOver "loop.py" := .endless (.of_circle .stay hcircle)
  refine ⟨hbuilt.isTree, hpassed, fun jobs schedule => ?_⟩
  refine ((gate_error_iff_misleads hbuilt.isTree _ ⟨"t", "1"⟩ jobs schedule).1 _).2
    ⟨["loop.py", "a.py"], "./pkg.py/", ["pkg.py"], rfl, ?_, ?_, rfl⟩
  · intro path hpath hmisleads
    have htarget := hmisleads.isTarget_and_readSource
    rcases List.mem_pair.1 hpath with rfl | rfl
    · rw [hpassed.isTarget_eq_false] at htarget
      exact Bool.false_ne_true htarget.1
    · have hfile : fs.LeadsToFile "a.py" ⟨#[0xFF]⟩ := contents_eq_ok_iff.1 rfl
      exact hmisleads.2.not_leadsToFile hfile
  · exact ⟨by decide +kernel, ["pkg.py"], locate_eq_ok_iff.1 rfl, rfl⟩

end WriteGate

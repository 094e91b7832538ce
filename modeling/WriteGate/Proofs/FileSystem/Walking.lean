import WriteGate.FileSystem.Walk

/-!
# Where a path leads, step by step

What it means for a path to lead somewhere, said without a procedure: a walk is at
a location and has steps before it, and single moves take it on. A move looks at
one entry; if that is a link, the path of the link takes the place of the step.
Nothing is said of how the moves are found or when to give up.

Following a path on the file system finds exactly these walks (`walk_eq_ok_iff`),
as long as they meet no more links than a path may lead through. So what a path
leads to, and that a path leads nowhere, can be shown on walks. The tool for the
latter is that walks do not branch: two walks from one place go the same way
(`Walks.to_halted`), and a walk that comes to a dead end cannot have arrived.
-/

namespace WriteGate.FileSystem

open WriteGate.Path

/-! ## Moves -/

/-- **A walk under way.** -/
structure Stage where
  /-- Where the walk is. -/
  location : Location
  /-- The steps that it has before it. -/
  ahead : List Step

/-- **One move of a walk**, and the number of links that it follows. Every move starts from
a directory. -/
inductive Moves (fs : FileSystem) (purpose : Purpose) : Nat → Stage → Stage → Prop
  /-- Staying in the directory. -/
  | here {l : Location} {rest : List Step} (hdirectory : fs.entryAt? l = some .directory) :
      Moves fs purpose 0 ⟨l, .here :: rest⟩ ⟨l, rest⟩
  /-- Going to the parent of the directory. -/
  | up {l : Location} {rest : List Step} (hdirectory : fs.entryAt? l = some .directory) :
      Moves fs purpose 0 ⟨l, .up :: rest⟩ ⟨l.dropLast, rest⟩
  /-- Going to a file or a directory in the directory. -/
  | entry {l : Location} {name : String} {rest : List Step} {e : Entry}
      (hdirectory : fs.entryAt? l = some .directory) (hsize : name.utf8ByteSize ≤ maxNameSize)
      (hentry : fs.entryAt? (l ++ [name]) = some e) (hlink : ∀ target, e ≠ .link target) :
      Moves fs purpose 0 ⟨l, .entry name :: rest⟩ ⟨l ++ [name], rest⟩
  /-- Turning to the path of a link in the directory. -/
  | link {l : Location} {name target : String} {rest : List Step}
      (hdirectory : fs.entryAt? l = some .directory) (hsize : name.utf8ByteSize ≤ maxNameSize)
      (hentry : fs.entryAt? (l ++ [name]) = some (.link target)) (htarget : target ≠ "") :
      Moves fs purpose 1 ⟨l, .entry name :: rest⟩
        ⟨startOf l target, wayThrough purpose target rest⟩

/-- **A walk**: moves one after the other, with the links of all of them counted. -/
inductive Walks (fs : FileSystem) (purpose : Purpose) : Nat → Stage → Stage → Prop
  /-- No move yet. -/
  | stay {s : Stage} : Walks fs purpose 0 s s
  /-- A move, and then a walk. -/
  | go {k n : Nat} {s t u : Stage} (first : Moves fs purpose k s t)
      (later : Walks fs purpose n t u) : Walks fs purpose (k + n) s u

/-- No move is possible. -/
def Halted (fs : FileSystem) (purpose : Purpose) (s : Stage) : Prop :=
  ∀ k t, ¬ fs.Moves purpose k s t

variable {fs : FileSystem} {purpose : Purpose} {k m n links : Nat} {s t u : Stage}
  {l d : Location} {name path : String} {steps rest : List Step}

/-- **There is only one way to move.** -/
theorem Moves.unique (h : fs.Moves purpose k s t) (h' : fs.Moves purpose m s u) :
    k = m ∧ t = u := by
  cases h with
  | here => cases h'; exact ⟨rfl, rfl⟩
  | up => cases h'; exact ⟨rfl, rfl⟩
  | entry _ _ hentry hlink =>
    cases h' with
    | entry => exact ⟨rfl, rfl⟩
    | link _ _ hentry' => exact absurd (Option.some.inj (hentry.symm.trans hentry')) (hlink _)
  | link _ _ hentry =>
    cases h' with
    | entry _ _ hentry' hlink' =>
      exact absurd (Option.some.inj (hentry'.symm.trans hentry)) (hlink' _)
    | link _ _ hentry' =>
      obtain rfl := Entry.link.inj (Option.some.inj (hentry.symm.trans hentry'))
      exact ⟨rfl, rfl⟩

theorem Walks.trans (h : fs.Walks purpose m s t) (h' : fs.Walks purpose n t u) :
    fs.Walks purpose (m + n) s u := by
  induction h with
  | stay => rwa [Nat.zero_add]
  | go first _ ih => rw [Nat.add_assoc]; exact .go first (ih h')

/-- **Walks do not branch**: every walk is on the way to where another one halts. -/
theorem Walks.to_halted (h : fs.Walks purpose m s t) (h' : fs.Walks purpose n s u)
    (hhalted : fs.Halted purpose u) : ∃ k, n = m + k ∧ fs.Walks purpose k t u := by
  induction h generalizing n with
  | stay => exact ⟨n, (Nat.zero_add n).symm, h'⟩
  | go first _ ih =>
    cases h' with
    | stay => exact absurd first (hhalted _ _)
    | go first' later' =>
      obtain ⟨rfl, rfl⟩ := first.unique first'
      obtain ⟨k, rfl, hk⟩ := ih later'
      exact ⟨k, (Nat.add_assoc ..).symm, hk⟩

theorem Halted.eq_of_walks (hhalted : fs.Halted purpose s) (h : fs.Walks purpose n s t) :
    n = 0 ∧ t = s := by
  cases h with
  | stay => exact ⟨rfl, rfl⟩
  | go first => exact absurd first (hhalted _ _)

/-- Walks from one place that halt do so at one place, after as many links. -/
theorem Walks.unique (h : fs.Walks purpose m s t) (h' : fs.Walks purpose n s u)
    (ht : fs.Halted purpose t) (hu : fs.Halted purpose u) : m = n ∧ t = u := by
  obtain ⟨k, rfl, hk⟩ := h.to_halted h' hu
  obtain ⟨rfl, rfl⟩ := ht.eq_of_walks hk
  exact ⟨rfl, rfl⟩

/-! ## Ends of walks -/

/-- **Where a walk arrives** when it is at a stage: there, if nothing is left to do, or at a
name that is free, if this name is all that is left. -/
inductive Arrives (fs : FileSystem) : Stage → Destination → Prop
  /-- Nothing is left to do. -/
  | present {l : Location} : Arrives fs ⟨l, []⟩ (.present l)
  /-- The last name is free. -/
  | vacant {d : Location} {name : String} (hdirectory : fs.entryAt? d = some .directory)
      (hsize : name.utf8ByteSize ≤ maxNameSize) (hnone : fs.entryAt? (d ++ [name]) = none) :
      Arrives fs ⟨d, [.entry name]⟩ (.vacant (d ++ [name]))

/-- **A dead end**: there is a step ahead, and it cannot be taken. -/
inductive DeadEnd (fs : FileSystem) : Stage → Prop
  /-- A step out of something that is no directory. -/
  | notDirectory {l : Location} {step : Step} {rest : List Step}
      (h : fs.entryAt? l ≠ some .directory) : DeadEnd fs ⟨l, step :: rest⟩
  /-- A name that is not in the directory. -/
  | missing {l : Location} {name : String} {rest : List Step}
      (h : fs.entryAt? (l ++ [name]) = none) : DeadEnd fs ⟨l, .entry name :: rest⟩
  /-- A name that is too long to be in a directory. -/
  | longName {l : Location} {name : String} {rest : List Step}
      (h : maxNameSize < name.utf8ByteSize) : DeadEnd fs ⟨l, .entry name :: rest⟩
  /-- A link with no path in it. -/
  | emptyLink {l : Location} {name : String} {rest : List Step}
      (h : fs.entryAt? (l ++ [name]) = some (.link "")) : DeadEnd fs ⟨l, .entry name :: rest⟩

theorem halted_nil : fs.Halted purpose ⟨l, []⟩ := by
  intro k t h
  cases h

theorem DeadEnd.halted (h : fs.DeadEnd s) : fs.Halted purpose s := by
  intro k t hmove
  cases h with
  | notDirectory h => cases hmove <;> exact absurd ‹_› h
  | missing h => cases hmove <;> simp_all
  | longName h => cases hmove <;> omega
  | emptyLink h => cases hmove <;> simp_all

theorem DeadEnd.ahead_ne_nil (h : fs.DeadEnd s) : s.ahead ≠ [] := by
  cases h <;> simp

theorem Arrives.halted {d : Destination} (h : fs.Arrives s d) : fs.Halted purpose s := by
  cases h with
  | present => exact halted_nil
  | vacant _ _ hnone => exact (DeadEnd.missing hnone).halted

theorem Arrives.unique {d d' : Destination} (h : fs.Arrives s d) (h' : fs.Arrives s d') :
    d = d' := by
  cases h <;> cases h' <;> rfl

/-! ## Following finds the walks -/

/-- **What a walk comes to without a link**: it arrives, it meets a link, or it is stuck where
it has not arrived. -/
def ComesTo (fs : FileSystem) (purpose : Purpose) (s : Stage) : Progress → Prop
  | .arrived d => ∃ t, fs.Walks purpose 0 s t ∧ fs.Arrives t d
  | .atLink d target rest =>
    ∃ name, fs.Walks purpose 0 s ⟨d, .entry name :: rest⟩
      ∧ fs.entryAt? d = some .directory ∧ name.utf8ByteSize ≤ maxNameSize
      ∧ fs.entryAt? (d ++ [name]) = some (.link target)
  | .stuck _ => ∃ t, fs.Walks purpose 0 s t ∧ fs.DeadEnd t ∧ ∀ d, ¬ fs.Arrives t d

theorem ComesTo.of_moves {p : Progress} (first : fs.Moves purpose 0 s t)
    (h : fs.ComesTo purpose t p) : fs.ComesTo purpose s p := by
  cases p with
  | arrived d =>
    obtain ⟨u, hwalk, harrives⟩ := h
    exact ⟨u, .go first hwalk, harrives⟩
  | atLink d target rest =>
    obtain ⟨name, hwalk, hlink⟩ := h
    exact ⟨name, .go first hwalk, hlink⟩
  | stuck fault =>
    obtain ⟨u, hwalk, hstuck⟩ := h
    exact ⟨u, .go first hwalk, hstuck⟩

/-- Advancing takes the moves that follow no link, one for each step. -/
theorem comesTo_advance (fs : FileSystem) (purpose : Purpose) (l : Location)
    (steps : List Step) : fs.ComesTo purpose ⟨l, steps⟩ (fs.advance l steps) := by
  induction steps generalizing l with
  | nil => exact ⟨_, .stay, .present⟩
  | cons step rest ih =>
    by_cases hdirectory : fs.entryAt? l = some .directory
    · cases step with
      | here => simpa [advance, hdirectory] using (ih l).of_moves (.here hdirectory)
      | up => simpa [advance, hdirectory] using (ih l.dropLast).of_moves (.up hdirectory)
      | entry name =>
        by_cases hsize : maxNameSize < name.utf8ByteSize
        · simp only [advance, hdirectory, if_pos hsize]
          refine ⟨_, .stay, .longName hsize, fun d harrives => ?_⟩
          cases harrives
          omega
        · simp only [advance, hdirectory, if_neg hsize]
          have hsize := Nat.le_of_not_lt hsize
          cases hentry : fs.entryAt? (l ++ [name]) with
          | none =>
            cases rest with
            | nil => exact ⟨_, .stay, .vacant hdirectory hsize hentry⟩
            | cons next later =>
              exact ⟨_, .stay, .missing hentry, fun d harrives => by cases harrives⟩
          | some e =>
            cases e with
            | link target => exact ⟨name, .stay, hdirectory, hsize, hentry⟩
            | file bytes =>
              exact (ih _).of_moves (.entry hdirectory hsize hentry fun _ => Entry.noConfusion)
            | directory =>
              exact (ih _).of_moves (.entry hdirectory hsize hentry fun _ => Entry.noConfusion)
    · have hstuck : fs.advance l (step :: rest) = .stuck .notDirectory := by
        unfold advance
        split
        · exact absurd ‹_› hdirectory
        · rfl
      rw [hstuck]
      refine ⟨_, .stay, .notDirectory hdirectory, fun d harrives => ?_⟩
      cases harrives
      exact absurd ‹_› hdirectory

/-- **A walk arrives within a number of links.** -/
def ArrivesWithin (fs : FileSystem) (purpose : Purpose) (links : Nat) (s : Stage)
    (destination : Destination) : Prop :=
  ∃ n t, n ≤ links ∧ fs.Walks purpose n s t ∧ fs.Arrives t destination

section Ends

variable {d d' : Destination} {l : Location} {fault : Fault} {target : String}

theorem arrivesWithin_of_arrived (h : fs.ComesTo purpose s (.arrived d)) :
    fs.ArrivesWithin purpose links s d' ↔ d = d' := by
  obtain ⟨t, hwalk, harrives⟩ := h
  constructor
  · rintro ⟨n, u, -, hwalk', harrives'⟩
    obtain ⟨-, rfl⟩ := hwalk.unique hwalk' harrives.halted harrives'.halted
    exact harrives.unique harrives'
  · rintro rfl
    exact ⟨0, t, Nat.zero_le _, hwalk, harrives⟩

theorem not_arrivesWithin_of_stuck (h : fs.ComesTo purpose s (.stuck fault)) :
    ¬ fs.ArrivesWithin purpose links s d := by
  obtain ⟨t, hwalk, hdead, hnot⟩ := h
  rintro ⟨n, u, -, hwalk', harrives⟩
  obtain ⟨-, rfl⟩ := hwalk.unique hwalk' hdead.halted harrives.halted
  exact hnot d harrives

/-- Behind a link a walk goes on as one with a link less, if the link has a path in it. -/
theorem arrivesWithin_of_atLink (h : fs.ComesTo purpose s (.atLink l target rest)) :
    fs.ArrivesWithin purpose links s d ↔
      target ≠ "" ∧ ∃ fewer, links = fewer + 1 ∧ fs.ArrivesWithin purpose fewer
        ⟨startOf l target, wayThrough purpose target rest⟩ d := by
  obtain ⟨name, hwalk, hdirectory, hsize, hentry⟩ := h
  constructor
  · rintro ⟨n, u, hn, hwalk', harrives⟩
    obtain ⟨k, rfl, hk⟩ := hwalk.to_halted hwalk' harrives.halted
    cases hk with
    | stay =>
      -- a walk that arrives in front of a name has found it free
      cases harrives with
      | vacant _ _ hnone =>
        rw [hentry] at hnone
        cases hnone
    | go first later =>
      cases first with
      | entry _ _ hentry' hlink =>
        exact absurd (Option.some.inj (hentry'.symm.trans hentry)) (hlink _)
      | link _ _ hentry' htarget =>
        obtain rfl := Entry.link.inj (Option.some.inj (hentry'.symm.trans hentry))
        exact ⟨htarget, links - 1, by omega, _, u, by omega, later, harrives⟩
  · rintro ⟨htarget, fewer, rfl, n, u, hn, hlater, harrives⟩
    refine ⟨0 + (1 + n), u, by omega, hwalk.trans (.go ?_ hlater), harrives⟩
    exact .link hdirectory hsize hentry htarget

/-- **Following finds the walks that arrive within the links allowed**, and where. -/
theorem follow_eq_ok_iff {steps : List Step} :
    fs.follow purpose links l steps = .ok d ↔ fs.ArrivesWithin purpose links ⟨l, steps⟩ d := by
  -- on the links allowed, since behind a link there is one less
  induction links generalizing l steps with
  | zero =>
    have hcomes := fs.comesTo_advance purpose l steps
    rw [follow]
    cases hadvance : fs.advance l steps with
    | arrived d' =>
      rw [hadvance] at hcomes
      simp [arrivesWithin_of_arrived hcomes]
    | stuck fault =>
      rw [hadvance] at hcomes
      simp [not_arrivesWithin_of_stuck hcomes]
    | atLink directory target rest =>
      rw [hadvance] at hcomes
      simp [arrivesWithin_of_atLink hcomes]
  | succ links ih =>
    have hcomes := fs.comesTo_advance purpose l steps
    rw [follow]
    cases hadvance : fs.advance l steps with
    | arrived d' =>
      rw [hadvance] at hcomes
      simp [arrivesWithin_of_arrived hcomes]
    | stuck fault =>
      rw [hadvance] at hcomes
      simp [not_arrivesWithin_of_stuck hcomes]
    | atLink directory target rest =>
      rw [hadvance] at hcomes
      by_cases htarget : target = ""
      · simp [arrivesWithin_of_atLink hcomes, htarget]
      · simp [arrivesWithin_of_atLink hcomes, htarget, ih]

end Ends

/-! ## Where a path leads -/

theorem checkSpelling_eq_ok_iff :
    checkSpelling path = .ok () ↔
      '\x00' ∉ path.toList ∧ path ≠ "" ∧ path.utf8ByteSize ≤ maxSize := by
  unfold checkSpelling
  split
  · simp_all
  · split
    · simp_all
    · split <;> simp_all

/-- Where the walk of a path sets out. -/
def outset (fs : FileSystem) (purpose : Purpose) (path : String) : Stage where
  location := startOf fs.workingDirectory path
  ahead := way purpose path

/-- **Walking a path** arrives where its walk does, if the path is spelled as it may be. -/
theorem walk_eq_ok_iff {d : Destination} :
    fs.walk purpose path = .ok d ↔
      checkSpelling path = .ok ()
        ∧ fs.ArrivesWithin purpose linkBudget (fs.outset purpose path) d := by
  rw [walk]
  cases hspelling : checkSpelling path with
  | error fault => simp [bind, Except.bind]
  | ok _ => simp [bind, Except.bind, follow_eq_ok_iff, outset]

/-- **A path leads to a location**: its walk gets there, links followed wherever they are met,
and nothing is left to do. The path must be spelled as it may be, and the walk must not
meet more links than it may. -/
def LeadsTo (fs : FileSystem) (path : String) (l : Location) : Prop :=
  checkSpelling path = .ok ()
    ∧ ∃ n ≤ linkBudget, fs.Walks .find n (fs.outset .find path) ⟨l, []⟩

/-- **A path leads somewhere.** -/
def Leads (fs : FileSystem) (path : String) : Prop := ∃ l, fs.LeadsTo path l

/-- **A path leads to a directory.** -/
def LeadsToDirectory (fs : FileSystem) (path : String) : Prop :=
  ∃ l, fs.LeadsTo path l ∧ fs.entryAt? l = some .directory

/-- **A path leads to a file** with the given bytes. -/
def LeadsToFile (fs : FileSystem) (path : String) (bytes : ByteArray) : Prop :=
  ∃ l, fs.LeadsTo path l ∧ fs.entryAt? l = some (.file bytes)

theorem arrives_present_iff : fs.Arrives s (.present l) ↔ s = ⟨l, []⟩ := by
  constructor
  · rintro ⟨⟩
    rfl
  · rintro rfl
    exact .present

/-- **What is located is where the path leads.** -/
theorem locate_eq_ok_iff : fs.locate path = .ok l ↔ fs.LeadsTo path l := by
  have hwalk : fs.locate path = .ok l ↔ fs.walk .find path = .ok (.present l) := by
    rw [locate]
    cases fs.walk .find path with
    | error fault => simp
    | ok d => cases d <;> simp
  rw [hwalk, walk_eq_ok_iff, LeadsTo, ArrivesWithin]
  simp only [arrives_present_iff]
  simp

theorem LeadsTo.unique {l' : Location} (h : fs.LeadsTo path l) (h' : fs.LeadsTo path l') :
    l = l' :=
  Except.ok.inj ((locate_eq_ok_iff.2 h).symm.trans (locate_eq_ok_iff.2 h'))

/-- **A path exists exactly if it leads somewhere.** -/
theorem pathExists_iff : fs.pathExists path = true ↔ fs.Leads path := by
  rw [pathExists, Leads]
  simp only [← locate_eq_ok_iff]
  cases fs.locate path <;> simp [Except.isOk, Except.toBool]

instance (fs : FileSystem) (path : String) : Decidable (fs.Leads path) :=
  decidable_of_iff _ pathExists_iff

/-- **The content of a path is that of the file that it leads to.** -/
theorem contents_eq_ok_iff {bytes : ByteArray} :
    fs.contents path = .ok bytes ↔ fs.LeadsToFile path bytes := by
  rw [contents, LeadsToFile]
  simp only [← locate_eq_ok_iff]
  cases fs.locate path with
  | error fault => simp [bind, Except.bind]
  | ok l =>
    simp only [bind, Except.bind, Except.ok.injEq, exists_eq_left']
    cases fs.entryAt? l with
    | none => simp
    | some e => cases e <;> simp

/-! ## Paths that lead nowhere -/

/-- **A name on the way is missing**: a file that is not there, or what a link stands for. -/
def Missing (fs : FileSystem) (path : String) : Prop :=
  ∃ n d name rest, fs.Walks .find n (fs.outset .find path) ⟨d, .entry name :: rest⟩
    ∧ fs.entryAt? (d ++ [name]) = none

/-- **Links without end**: however many links a walk has met, it comes to meet more. -/
def EndlessLinks (fs : FileSystem) (path : String) : Prop :=
  ∀ n, ∃ m s, n ≤ m ∧ fs.Walks .find m (fs.outset .find path) s

/-- A walk that comes to a dead end leads nowhere. -/
theorem not_leads_of_deadEnd (h : fs.Walks .find n (fs.outset .find path) s)
    (hdead : fs.DeadEnd s) : ¬ fs.Leads path := by
  rintro ⟨l, -, m, -, hwalk⟩
  obtain ⟨-, rfl⟩ := h.unique hwalk hdead.halted halted_nil
  exact hdead.ahead_ne_nil rfl

theorem Missing.not_leads (h : fs.Missing path) : ¬ fs.Leads path := by
  obtain ⟨n, d, name, rest, hwalk, hnone⟩ := h
  exact not_leads_of_deadEnd hwalk (.missing hnone)

/-- A walk through links without end does not halt. -/
theorem EndlessLinks.not_halted (h : fs.EndlessLinks path)
    (hwalk : fs.Walks .find n (fs.outset .find path) s) : ¬ fs.Halted .find s := by
  intro hhalted
  obtain ⟨m, t, hm, hwalk'⟩ := h (n + 1)
  obtain ⟨k, hk, -⟩ := hwalk'.to_halted hwalk hhalted
  omega

theorem EndlessLinks.not_leads (h : fs.EndlessLinks path) : ¬ fs.Leads path := by
  rintro ⟨l, -, n, -, hwalk⟩
  exact h.not_halted hwalk halted_nil

/-- **A circle of links is without end**: a walk that comes to a stage again and has followed
a link in between. -/
theorem EndlessLinks.of_circle (h : fs.Walks .find n (fs.outset .find path) s)
    (hcircle : fs.Walks .find (k + 1) s s) : fs.EndlessLinks path := by
  intro bound
  have hrounds : ∀ rounds, ∃ m, rounds ≤ m ∧ fs.Walks .find m s s := by
    intro rounds
    induction rounds with
    | zero => exact ⟨0, Nat.le_refl 0, .stay⟩
    | succ rounds ih =>
      obtain ⟨m, hm, hwalk⟩ := ih
      exact ⟨k + 1 + m, by omega, hcircle.trans hwalk⟩
  obtain ⟨m, hm, hwalk⟩ := hrounds bound
  exact ⟨n + m, s, by omega, h.trans hwalk⟩

end WriteGate.FileSystem

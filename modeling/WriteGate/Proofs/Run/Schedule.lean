import WriteGate.Run.Basic

/-!
# What a schedule decides, and what it does not

A schedule says in which order the workers of a pool come to their turns. It
decides when an outcome is reached, but not what it is: the state of a worker
after a schedule depends on *how many* turns it had, and on nothing that
happened between them. Once every worker is through, its results are those of
its share in order, and the pool has the results of the whole list in order.

So a run with workers says what a run in order says. The point that is not
about schedules is the failure. A run in order stops at the first target that
cannot be read, while workers carry on with their shares, and some may fail at
later targets before the first is reached. The results are put into input order
before the first failure among them is looked for, so both name the same target.
-/

namespace WriteGate

variable {α β : Type}

/-! ## A worker and its turns -/

/-- **A worker some turns later**: each turn has moved one item from what waits to
what is finished, as long as there were any. -/
def Worker.after (f : α → β) (turns : Nat) (w : Worker α β) : Worker α β where
  waiting := w.waiting.drop turns
  finished := w.finished ++ (w.waiting.take turns).map f

/-- A worker that is through with its share. -/
def Worker.done (f : α → β) (w : Worker α β) : Worker α β where
  waiting := []
  finished := w.finished ++ w.waiting.map f

namespace Worker

@[simp] theorem after_zero (f : α → β) : Worker.after f 0 = id := by
  funext w
  simp [after]

/-- Turns add up. -/
theorem after_after (f : α → β) (m n : Nat) (w : Worker α β) :
    (w.after f m).after f n = w.after f (m + n) := by
  simp [after, List.take_add]

/-- As many turns as there are items see a worker through. -/
theorem after_length (f : α → β) (w : Worker α β) :
    w.after f w.waiting.length = w.done f := by
  simp [after, done]

/-- A worker is through with its share either way, sooner or later. -/
theorem done_after (f : α → β) (turns : Nat) (w : Worker α β) :
    (w.after f turns).done f = w.done f := by
  have hsplit : (w.waiting.take turns).map f ++ (w.waiting.drop turns).map f
      = w.waiting.map f := by
    rw [← List.map_append, List.take_append_drop]
  simp only [after, done, List.append_assoc, hsplit]

end Worker

/-! ## A pool and its schedule -/

namespace Pool

/-- **One step** gives a turn to the worker that is named, and leaves the others as they
are. A worker with nothing waiting has its turn in vain. -/
theorem workers_step (f : α → β) (pool : Pool α β) (i : Nat) :
    (pool.step f i).workers = pool.workers.modify i (Worker.after f 1) := by
  refine List.ext_getElem? (fun j => ?_)
  rw [List.getElem?_modify]
  unfold step
  split
  · next item rest finished hw =>
    rw [List.getElem?_set]
    by_cases hij : i = j
    · subst hij
      have hlt : i < pool.workers.length := (List.getElem?_eq_some_iff.1 hw).1
      rw [if_pos rfl, if_pos hlt, hw]
      simp [Worker.after]
    · simp [hij]
  · next hidle =>
    by_cases hij : i = j
    · subst hij
      cases hw : pool.workers[i]? with
      | none => rfl
      | some w =>
        obtain ⟨_ | ⟨item, rest⟩, finished⟩ := w
        · simp [Worker.after]
        · exact absurd hw (hidle item rest finished)
    · simp [hij]

theorem getElem?_workers_step (f : α → β) (pool : Pool α β) (i j : Nat) :
    (pool.step f i).workers[j]? = pool.workers[j]?.map (Worker.after f ([i].count j)) := by
  rw [workers_step, List.getElem?_modify]
  by_cases hij : i = j
  · simp [hij]
  · simp [hij]

/-- **A worker's state depends only on how many turns it had**, whatever the other
workers did in between. -/
theorem getElem?_workers_run (f : α → β) (pool : Pool α β) (schedule : Schedule) (j : Nat) :
    (pool.run f schedule).workers[j]?
      = pool.workers[j]?.map (Worker.after f (schedule.count j)) := by
  unfold run
  -- on the schedule, for all pools: its first step leaves another pool for the rest
  induction schedule generalizing pool with
  | nil => simp
  | cons i rest ih =>
    have hcount : (i :: rest).count j = [i].count j + rest.count j := by
      rw [← List.count_append, List.singleton_append]
    rw [List.foldl_cons, ih, getElem?_workers_step, Option.map_map, hcount]
    refine congrArg (fun g => pool.workers[j]?.map g) ?_
    funext w
    exact Worker.after_after f _ _ w

/-- In a schedule that lets the workers take their turns one after the other, each of
them has as many turns as items. The positions may start anywhere. -/
theorem count_turns (workers : List (Worker α β)) (first : Nat) {j : Nat} {w : Worker α β}
    (h : workers[j]? = some w) :
    ((workers.zipIdx first).flatMap fun v => List.replicate v.1.waiting.length v.2).count
      (first + j) = w.waiting.length := by
  induction workers generalizing first j with
  | nil => simp at h
  | cons v rest ih =>
    rw [List.zipIdx_cons, List.flatMap_cons, List.count_append, List.count_replicate]
    cases j with
    | zero =>
      obtain rfl : v = w := by simpa using h
      -- the turns of the workers behind are at later positions
      have hrest : ((rest.zipIdx (first + 1)).flatMap fun v =>
          List.replicate v.1.waiting.length v.2).count first = 0 := by
        refine List.count_eq_zero_of_not_mem (fun hmem => ?_)
        obtain ⟨u, hu, hfirst⟩ := List.mem_flatMap.1 hmem
        have hle := List.le_snd_of_mem_zipIdx hu
        have heq := (List.mem_replicate.1 hfirst).2
        omega
      rw [Nat.add_zero, hrest]
      simp
    | succ j =>
      have hne : (first == first + (j + 1)) = false := by simp
      have hshift : first + (j + 1) = first + 1 + j := by omega
      rw [hne, hshift, ih (first + 1) (by simpa using h)]
      simp

/-- What remains gives each worker the turns that it lacks. -/
theorem count_remaining (pool : Pool α β) {j : Nat} {w : Worker α β}
    (h : pool.workers[j]? = some w) : pool.remaining.count j = w.waiting.length := by
  have := count_turns pool.workers 0 h
  rwa [Nat.zero_add] at this

/-- **At the end every worker is through with its share.** -/
theorem workers_finish (f : α → β) (pool : Pool α β) (schedule : Schedule) :
    (pool.finish f schedule).workers = pool.workers.map (Worker.done f) := by
  refine List.ext_getElem? (fun j => ?_)
  -- worker by worker: what is left after the schedule is as much as its last turns
  rw [finish, getElem?_workers_run, List.getElem?_map]
  cases hw : (pool.run f schedule).workers[j]? with
  | none =>
    rw [getElem?_workers_run, Option.map_eq_none_iff] at hw
    rw [hw]
    rfl
  | some w =>
    rw [count_remaining _ hw, Option.map_some, Worker.after_length]
    rw [getElem?_workers_run, Option.map_eq_some_iff] at hw
    obtain ⟨start, hstart, rfl⟩ := hw
    rw [hstart, Option.map_some, Worker.done_after]

/-- **At the end the results are those of the whole list in order**, under any
schedule. -/
theorem results_finish_start (f : α → β) (shares : List (List α)) (schedule : Schedule) :
    ((start shares).finish f schedule).results = shares.flatten.map f := by
  rw [results, workers_finish, start, List.map_map, List.flatMap_map, List.map_flatten,
    List.flatMap_def]
  rfl

end Pool

/-! ## The first failure -/

section Failures

variable {ε : Type}

@[simp] theorem allOrFirstFailure_nil :
    allOrFirstFailure ([] : List (Except ε α)) = .ok [] := rfl

@[simp] theorem allOrFirstFailure_ok (a : α) (results : List (Except ε α)) :
    allOrFirstFailure (.ok a :: results) = (allOrFirstFailure results).map (a :: ·) := by
  unfold allOrFirstFailure
  rw [List.mapM_cons]
  cases results.mapM id <;> rfl

@[simp] theorem allOrFirstFailure_error (e : ε) (results : List (Except ε α)) :
    allOrFirstFailure (.error e :: results) = .error e := by
  unfold allOrFirstFailure
  rw [List.mapM_cons]
  rfl

/-- **All values are there** exactly when no result is a failure. -/
theorem allOrFirstFailure_eq_ok_iff {results : List (Except ε α)} {values : List α} :
    allOrFirstFailure results = .ok values ↔ results = values.map .ok := by
  induction results generalizing values with
  | nil => cases values <;> simp
  | cons r results ih =>
    cases r with
    | error e => cases values <;> simp
    | ok a =>
      rw [allOrFirstFailure_ok]
      cases hrest : allOrFirstFailure results with
      | error e =>
        have hne : ∀ vs : List α, results ≠ vs.map .ok := fun vs h => by
          simp [ih.2 h] at hrest
        cases values <;> simp [Except.map, hne]
      | ok rest =>
        obtain rfl := ih.1 hrest
        cases values <;> simp [Except.map, List.map_inj_right]

/-- **The failure that counts is the first**: what stands before it are values, and what
stands behind it does not matter. -/
theorem allOrFirstFailure_eq_error_iff {results : List (Except ε α)} {e : ε} :
    allOrFirstFailure results = .error e ↔
      ∃ before after, results = before ++ .error e :: after ∧ ∀ r ∈ before, r.isOk := by
  induction results with
  | nil => simp
  | cons r results ih =>
    cases r with
    | error e' =>
      rw [allOrFirstFailure_error]
      constructor
      · rintro ⟨⟩
        exact ⟨[], results, rfl, by simp⟩
      · rintro ⟨_ | ⟨r, before⟩, after, heq, hbefore⟩
        · rw [List.nil_append, List.cons.injEq] at heq
          rw [Except.error.inj heq.1]
        · rw [List.cons_append, List.cons.injEq] at heq
          have := hbefore r (List.mem_cons_self ..)
          rw [← heq.1] at this
          exact absurd this (by simp [Except.isOk, Except.toBool])
    | ok a =>
      have hmap : allOrFirstFailure (.ok a :: results) = .error e
          ↔ allOrFirstFailure results = .error e := by
        rw [allOrFirstFailure_ok]
        cases allOrFirstFailure results <;> simp [Except.map]
      rw [hmap, ih]
      constructor
      · rintro ⟨before, after, rfl, hbefore⟩
        refine ⟨.ok a :: before, after, rfl, ?_⟩
        exact List.forall_mem_cons.2 ⟨rfl, hbefore⟩
      · rintro ⟨_ | ⟨r, before⟩, after, heq, hbefore⟩
        · simp at heq
        · rw [List.cons_append, List.cons.injEq] at heq
          exact ⟨before, after, heq.2, (List.forall_mem_cons.1 hbefore).2⟩

end Failures

/-! ## A run with workers and a run in order -/

theorem Indexed.restore_of_pairwise {items : List (Indexed α)}
    (h : items.Pairwise (fun a b => a.index ≤ b.index)) : restore items = items.map value := by
  unfold restore
  rw [List.mergeSort_of_pairwise (h.imp (fun hab => by simpa using hab))]

namespace Run

/-- The targets are the paths that are to be evaluated, repetitions kept. -/
theorem map_value_targetsOf (world : Snapshot) (paths : List String) :
    (targetsOf world paths).map Indexed.value = paths.filter world.isTarget := by
  have hvalues : (paths.zipIdx.map fun p => ({ index := p.2, value := p.1 } : Indexed String)).map
      Indexed.value = paths := by
    rw [List.map_map]
    exact List.zipIdx_map_fst 0 paths
  refine Eq.trans ?_ (congrArg (List.filter world.isTarget) hvalues)
  rw [List.filter_map]
  rfl

/-- The positions of the targets increase, with a gap wherever a path is skipped. -/
theorem pairwise_targetsOf (world : Snapshot) (paths : List String) :
    (targetsOf world paths).Pairwise (fun a b => a.index < b.index) := by
  refine List.Pairwise.filter _ (List.pairwise_map.2 ?_)
  have hpositions : (paths.zipIdx.map Prod.snd).Pairwise (· < ·) := by
    rw [List.zipIdx_map_snd]
    exact List.pairwise_lt_range'
  exact List.pairwise_map.1 hpositions

/-- **Workers yield what a run in order yields**: the results of their pool, put into
input order, are those of the targets one after the other. -/
theorem restore_results_poolOf (world : Snapshot) (paths : List String) (jobs : Nat)
    (schedule : Schedule) :
    Indexed.restore (poolOf world (targetsOf world paths) jobs schedule).results
      = (paths.filter world.isTarget).map world.inspect := by
  have hresults : (poolOf world (targetsOf world paths) jobs schedule).results
      = (targetsOf world paths).map (Indexed.map world.inspect) := by
    rw [poolOf, Pool.results_finish_start, flatten_shares]
  have hsorted : ((targetsOf world paths).map (Indexed.map world.inspect)).Pairwise
      (fun a b => a.index ≤ b.index) :=
    List.pairwise_map.2 ((pairwise_targetsOf world paths).imp (fun h => Nat.le_of_lt h))
  rw [hresults, Indexed.restore_of_pairwise hsorted, ← map_value_targetsOf, List.map_map,
    List.map_map]
  rfl

/-- **The files of a run** are the outcomes of the targets in order, up to the first
failure, whatever the number of workers and their schedule. -/
theorem files_perform (world : Snapshot) (paths : List String) (jobs : Nat)
    (schedule : Schedule) :
    (perform world paths jobs schedule).files
      = allOrFirstFailure ((paths.filter world.isTarget).map world.inspect) := by
  unfold perform
  dsimp only
  split
  · rw [restore_results_poolOf]
  · rw [← map_value_targetsOf, List.map_map]
    rfl

end Run

/-- **The gate reports on the targets in order.** -/
theorem gate_eq (world : Snapshot) (paths : List String) (tool : Tool) (jobs : Nat)
    (schedule : Schedule) :
    gate world paths tool jobs schedule
      = (allOrFirstFailure ((paths.filter world.isTarget).map world.inspect)).map
          (Report.ofOutcomes tool) := by
  rw [gate, Run.report, Run.files_perform]

theorem Snapshot.inspect_eq_error_iff {world : Snapshot} {path : String}
    {failure : ReadFailure} :
    world.inspect path = .error failure ↔ world.readSource path = .error failure := by
  unfold inspect
  cases world.readSource path <;> simp [Except.map]

theorem Snapshot.path_of_readSource_eq_error {world : Snapshot} {path : String}
    {failure : ReadFailure} (h : world.readSource path = .error failure) :
    failure.path = path := by
  unfold readSource at h
  split at h
  · cases h
  · rw [← Except.error.inj h]

/-- **When the gate reports**: every target can be read, and the report is on their
outcomes in order. -/
theorem gate_eq_ok_iff {world : Snapshot} {paths : List String} {tool : Tool} {jobs : Nat}
    {schedule : Schedule} {report : Report} :
    gate world paths tool jobs schedule = .ok report ↔
      ∃ outcomes, (paths.filter world.isTarget).map world.inspect = outcomes.map .ok
        ∧ report = Report.ofOutcomes tool outcomes := by
  rw [gate_eq]
  constructor
  · intro h
    cases hfiles : allOrFirstFailure ((paths.filter world.isTarget).map world.inspect) with
    | error e =>
      rw [hfiles] at h
      exact absurd h (by simp [Except.map])
    | ok outcomes =>
      rw [hfiles] at h
      exact ⟨outcomes, allOrFirstFailure_eq_ok_iff.1 hfiles, (Except.ok.inj h).symm⟩
  · rintro ⟨outcomes, houtcomes, rfl⟩
    rw [allOrFirstFailure_eq_ok_iff.2 houtcomes]
    rfl

theorem exists_outcome_of_gate_eq_ok {world : Snapshot} {paths : List String} {tool : Tool}
    {jobs : Nat} {schedule : Schedule} {report : Report}
    (h : gate world paths tool jobs schedule = .ok report) {path : String}
    (hpath : path ∈ paths) (htarget : world.isTarget path = true) :
    ∃ outcome, world.inspect path = .ok outcome := by
  obtain ⟨outcomes, houtcomes, -⟩ := gate_eq_ok_iff.1 h
  have hmem : world.inspect path ∈ outcomes.map Except.ok := by
    rw [← houtcomes]
    exact List.mem_map_of_mem (List.mem_filter.2 ⟨hpath, htarget⟩)
  obtain ⟨outcome, -, houtcome⟩ := List.mem_map.1 hmem
  exact ⟨outcome, houtcome.symm⟩

/-- **When the gate fails**: some target cannot be read, and the failure is that of the
first of them in the order of the paths. -/
theorem gate_eq_error_iff {world : Snapshot} {paths : List String} {tool : Tool} {jobs : Nat}
    {schedule : Schedule} {failure : ReadFailure} :
    gate world paths tool jobs schedule = .error failure ↔
      ∃ before path after, paths = before ++ path :: after
        ∧ (∀ p ∈ before, world.isTarget p = true → (world.inspect p).isOk)
        ∧ world.isTarget path = true ∧ world.readSource path = .error failure
        ∧ failure.path = path := by
  have hmap : gate world paths tool jobs schedule = .error failure ↔
      allOrFirstFailure ((paths.filter world.isTarget).map world.inspect) = .error failure := by
    rw [gate_eq]
    cases allOrFirstFailure ((paths.filter world.isTarget).map world.inspect) <;>
      simp [Except.map]
  rw [hmap, allOrFirstFailure_eq_error_iff]
  constructor
  · rintro ⟨oks, rest, hsplit, hoks⟩
    -- the cut of the results is one of the targets, and this one of the paths
    obtain ⟨targets, behind, htargets, rfl, hbehind⟩ := List.map_eq_append_iff.1 hsplit
    obtain ⟨path, later, rfl, hpath, -⟩ := List.map_eq_cons_iff.1 hbehind
    obtain ⟨before, tail, rfl, rfl, htail⟩ := List.filter_eq_append_iff.1 htargets
    obtain ⟨skipped, after, rfl, hskipped, htarget, -⟩ := List.filter_eq_cons_iff.1 htail
    have hread := Snapshot.inspect_eq_error_iff.1 hpath
    refine ⟨before ++ skipped, path, after, by rw [List.append_assoc], ?_, htarget, hread,
      Snapshot.path_of_readSource_eq_error hread⟩
    intro p hp hptarget
    rcases List.mem_append.1 hp with hbefore | hskip
    · exact hoks _ (List.mem_map_of_mem (List.mem_filter.2 ⟨hbefore, hptarget⟩))
    · exact absurd hptarget (hskipped p hskip)
  · rintro ⟨before, path, after, rfl, hbefore, htarget, hpath, -⟩
    refine ⟨(before.filter world.isTarget).map world.inspect,
      (after.filter world.isTarget).map world.inspect, ?_, ?_⟩
    · rw [List.filter_append, List.filter_cons_of_pos htarget, List.map_append, List.map_cons,
        Snapshot.inspect_eq_error_iff.2 hpath]
    · intro r hr
      obtain ⟨p, hp, rfl⟩ := List.mem_map.1 hr
      exact hbefore p (List.mem_filter.1 hp).1 (List.mem_filter.1 hp).2

/-- **Any number of workers under any schedule says what one worker says**: the same
report, with the outcomes of the targets in the order of the paths, or the failure at
the same path, which is the first target that cannot be read. -/
theorem gate_eq_gate_one_worker (world : Snapshot) (paths : List String) (tool : Tool)
    (jobs : Nat) (schedule : Schedule) :
    gate world paths tool jobs schedule = gate world paths tool 1 []
      ∧ (∀ report, gate world paths tool jobs schedule = .ok report ↔
          ∃ outcomes, (paths.filter world.isTarget).map world.inspect = outcomes.map .ok
            ∧ report = Report.ofOutcomes tool outcomes)
      ∧ (∀ failure, gate world paths tool jobs schedule = .error failure ↔
          ∃ before path after, paths = before ++ path :: after
            ∧ (∀ p ∈ before, world.isTarget p = true → (world.inspect p).isOk)
            ∧ world.isTarget path = true ∧ world.readSource path = .error failure
            ∧ failure.path = path) := by
  refine ⟨?_, fun report => gate_eq_ok_iff, fun failure => gate_eq_error_iff⟩
  rw [gate_eq, gate_eq]

end WriteGate

/-!
# A pool of workers

Workers that each go through a share of their own, item by item and in order.
Which worker comes next is not in the hands of the program, so it is an argument
here: a schedule names the worker of each step. A worker that has nothing left
when its turn comes does nothing, and what a schedule leaves undone is done
before the results are taken, so every schedule is a complete run.
-/

namespace WriteGate

/-- A worker in the middle of its share. -/
structure Worker (α β : Type) where
  /-- What is still to be done, in order. -/
  waiting : List α
  /-- What was done, in order. -/
  finished : List β

/-- Workers, and what they have finished so far. -/
structure Pool (α β : Type) where
  /-- The workers in the order of their shares. -/
  workers : List (Worker α β)
  /-- The results of all workers, in the order in which they were finished. -/
  completed : List β

/-- The workers of the steps of a run, by position. -/
abbrev Schedule := List Nat

namespace Pool

variable {α β : Type}

/-- One worker for each share, before any step. -/
def start (shares : List (List α)) : Pool α β where
  workers := shares.map fun share => { waiting := share, finished := [] }
  completed := []

/-- One step of a worker: it does its next item. -/
def step (f : α → β) (pool : Pool α β) (worker : Nat) : Pool α β :=
  match pool.workers[worker]? with
  | some { waiting := item :: rest, finished } =>
    let result := f item
    { workers := pool.workers.set worker { waiting := rest, finished := finished ++ [result] }
      completed := pool.completed ++ [result] }
  | _ => pool

/-- The steps that are left: each worker in turn does what it has waiting. -/
def remaining (pool : Pool α β) : Schedule :=
  pool.workers.zipIdx.flatMap fun w => List.replicate w.1.waiting.length w.2

/-- The pool after the steps of a schedule. -/
def run (f : α → β) (pool : Pool α β) (schedule : Schedule) : Pool α β :=
  schedule.foldl (step f) pool

/-- **The pool at the end**: after the steps of a schedule and those that it left. -/
def finish (f : α → β) (pool : Pool α β) (schedule : Schedule) : Pool α β :=
  let later := pool.run f schedule
  later.run f later.remaining

/-- The results, worker by worker. -/
def results (pool : Pool α β) : List β := pool.workers.flatMap Worker.finished

end Pool

end WriteGate

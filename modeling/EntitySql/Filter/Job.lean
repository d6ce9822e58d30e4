import EntitySql.Failure

/-!
# Work that waits

Some work waits for other work before it comes to its result. It is polled: a
poll takes the work to its end, or to the next place where it has to wait.
Pieces of work that do not need each other are awaited together, so that the
one that fails first is the one that counts, wherever it stands among them.

- `Job`: work with the places where it waits.
- `Job.joinIn`, `Job.joinAll`: jobs that are awaited together.
-/

namespace EntitySql

/-- Work that may wait before it is done. -/
inductive Job (α : Type) where
  /-- A poll finds the work done, with its result. -/
  | done (result : Except Failure α)
  /-- A poll finds the work waiting; this is left of it. -/
  | wait (rest : Job α)

namespace Job

variable {α β : Type}

/-- What work comes to in the end. -/
def result : Job α → Except Failure α
  | done r => r
  | wait t => t.result

/-- How often work waits. -/
def waits : Job α → Nat
  | done _ => 0
  | wait t => t.waits + 1

/-- Work with one more step at its end. -/
def andThen (step : α → Except Failure β) : Job α → Job β
  | done r => done (r >>= step)
  | wait t => wait (t.andThen step)

/-- What is left of work after a poll, unless it failed. -/
def poll : Job α → Except Failure (Job α)
  | done (.error failure) => .error failure
  | done (.ok a) => .ok (done (.ok a))
  | wait t => .ok t

/-- Awaits jobs together for a number of rounds, and what is left then one after the other. In a
round each job is polled once, in their order; nothing is polled after a failure. -/
def joinIn : Nat → List (Job α) → Except Failure (List α)
  | 0, ts => ts.mapM result
  | n + 1, ts => do joinIn n (← ts.mapM poll)

/-- How many rounds it takes until none of the jobs waits. -/
def rounds (ts : List (Job α)) : Nat := ts.foldr (fun t n => max t.waits n) 0

/-- Up to so many jobs are polled in rounds; of more, the results are asked for in their order. -/
def mostInRounds : Nat := 30

/-- Awaits jobs together: all results in the order of the jobs, or a failure as soon as a poll
comes upon it. -/
def joinAll (ts : List (Job α)) : Except Failure (List α) :=
  joinIn (if ts.length ≤ mostInRounds then rounds ts else 0) ts

end Job

end EntitySql

import ProfileAdmin.Host.Program

/-!
# Host.Pool — workers that share a list of jobs

1. **Workers**: each of them claims the next job, carries it out effect by effect,
   hands in what came of it, and claims again until nothing is left.
2. **Steps**: a claim, one effect, or handing in. Between two of them any other worker
   may take a step.
3. **Runs**: a schedule says whose step comes next.
4. **Outcomes**, in the order of the jobs, whoever came first.
-/

namespace ProfileAdmin.Host

variable {α σ : Type}

/-! ## Workers -/

/-- What a worker is at. -/
inductive Worker (α : Type) where
  /-- About to claim a job. -/
  | idle
  /-- Carrying out the job at an index. -/
  | busy (index : Nat) (rest : Program α)
  /-- It found nothing left to claim. -/
  | gone

/-- Whether a worker has a job. -/
def Worker.isBusy : Worker α → Bool
  | .busy _ _ => true
  | _ => false

/-- Whether a worker has left. -/
def Worker.isGone : Worker α → Bool
  | .gone => true
  | _ => false

/-- Workers, the jobs they share, and what has been handed in. -/
structure Pool (α : Type) where
  jobs : List (Program α)
  /-- The index of the next job to claim. -/
  next : Nat
  workers : List (Worker α)
  /-- What came of the jobs, with their indices, as it was handed in. -/
  results : List (Nat × α)

namespace Pool

/-- So many workers before a list of jobs. -/
def start (count : Nat) (jobs : List (Program α)) : Pool α :=
  ⟨jobs, 0, List.replicate count .idle, []⟩

/-- How many jobs are claimed and not handed in. -/
def underWay (p : Pool α) : Nat :=
  p.workers.countP Worker.isBusy

/-- Whether all workers have left. -/
def isOver (p : Pool α) : Bool :=
  p.workers.all Worker.isGone

/-! ## Steps -/

/-- Puts a worker in its place. -/
def place (p : Pool α) (w : Nat) (worker : Worker α) : Pool α :=
  { p with workers := p.workers.set w worker }

/-- One step of the worker with a number, in surroundings that answer effects from a
state. A worker that has left takes no more steps. -/
def step (answer : (e : Effect) → σ → e.Answer × σ) (w : Nat) (p : Pool α) (s : σ) :
    Pool α × σ :=
  match p.workers[w]? with
  | none | some .gone => (p, s)
  | some .idle =>
    match p.jobs[p.next]? with
    | some job => ({ p.place w (.busy p.next job) with next := p.next + 1 }, s)
    -- Nothing is left to claim, and nothing will come.
    | none => (p.place w .gone, s)
  | some (.busy index (.done a)) =>
    ({ p.place w .idle with results := p.results ++ [(index, a)] }, s)
  | some (.busy index (.perform e next)) =>
    let (reply, s) := answer e s
    (p.place w (.busy index (next reply)), s)

/-! ## Runs -/

/-- The steps of a schedule, one after the other. -/
def run (answer : (e : Effect) → σ → e.Answer × σ) : List Nat → Pool α → σ → Pool α × σ
  | [], p, s => (p, s)
  | w :: schedule, p, s =>
    let (p, s) := p.step answer w s
    run answer schedule p s

/-! ## Outcomes -/

/-- What came of the jobs, in their order. -/
def outcomes (p : Pool α) : List α :=
  (p.results.mergeSort fun a b => a.1 ≤ b.1).map Prod.snd

end Pool

end ProfileAdmin.Host

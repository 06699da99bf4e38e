import Leoflow.Scheduler.Advance

/-!
# The list of a DAG's runs

`listDagRunsHandler` of `internal/api/resources.go` with `listRunsFiltered`, which filters the first runs by state in
memory, and `setPaginationLinks`, which writes the limit and the offset of the next page; over `ListDagRuns` of
`internal/storage/repository.go`.
-/

namespace Leoflow.Api

/-- What `pagination` and the `state` parameters of a request give. -/
structure RunsQuery where
  limit : Nat
  offset : Nat
  states : List String := []

/-- `pagination` of two numbers that `Atoi` has read: a limit below one and a negative offset count as absent. -/
def pagination (limit offset : Int) : RunsQuery where
  limit := if limit > 0 then limit.toNat else 100
  offset := if offset ≥ 0 then offset.toNat else 0

/-- A page, with the requests that its links lead to. -/
structure RunsPage (ρ : Type) where
  dagRuns : List ρ
  totalEntries : Nat
  next : Option RunsQuery
  prev : Option RunsQuery

/-- The cap of the scan in memory. -/
def maxRunScan : Nat := 10000

variable {ρ : Type} (state : ρ → String) (runs : List ρ)

/-- `ListDagRuns` of the runs in list order: one page of them, and their number. -/
def listDagRuns (limit offset : Nat) : List ρ × Nat :=
  ((runs.drop (toInt32 offset).toNat).take (toInt32 limit).toNat, runs.length)

/-- The end of a page is an `int64` sum. A slice that ends before it starts panics. -/
def listRunsFiltered (q : RunsQuery) : Option (List ρ × Nat) :=
  if q.states = [] then some (listDagRuns runs q.limit q.offset)
  else
    let filtered := (listDagRuns runs maxRunScan 0).1.filter fun r => state r ∈ q.states
    let total := filtered.length
    if q.offset ≥ total then some ([], total)
    else
      let stop := min (wrap64 (q.offset + q.limit)) total
      if stop < q.offset then none else some ((filtered.take stop.toNat).drop q.offset, total)

/-- The page, with the links of `setPaginationLinks`, which carry no states. -/
def listDagRunsHandler (q : RunsQuery) : Option (RunsPage ρ) :=
  (listRunsFiltered state runs q).map fun (rows, total) =>
    { dagRuns := rows
      totalEntries := total
      next := if wrap64 (q.offset + q.limit) < total then some (pagination q.limit (wrap64 (q.offset + q.limit)))
        else none
      prev := if q.offset > 0 then some (pagination q.limit (max (q.offset - q.limit) 0)) else none }

end Leoflow.Api

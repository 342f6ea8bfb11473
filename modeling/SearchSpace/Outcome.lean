import SearchSpace.Path
import SearchSpace.Progress

/-!
# Outcomes of a search

A search finds a path, finds that there is none, or is stopped by a limit. In each case it leaves
its progress behind. `Outcome.report` is the view of a caller who only wants the path and the
counters of a search that was not stopped.
-/

namespace SearchSpace

universe u v

/-- What a search decides. -/
inductive Verdict (S : Type u) where
  /-- A goal was reached along these states. -/
  | found (states : List S)
  /-- There is no goal to be reached. -/
  | exhausted
  /-- A limit stopped the search. -/
  | stopped (reason : LimitExceeded)
deriving DecidableEq, Repr

/-- A verdict and the progress at that moment. -/
structure Outcome (S : Type u) (K : Type v) [BEq K] [Hashable K] where
  verdict : Verdict S
  /-- The visited set and the counters at the end. -/
  progress : Progress K

/-- The result of a search that was not stopped. -/
structure Report (S : Type u) where
  /-- The solution, empty if there is none. -/
  path : Path S
  /-- The counters at the end. -/
  stats : Stats
deriving DecidableEq, Repr

/-- Whether a solution was found. -/
def Report.isSolved {S : Type u} (report : Report S) : Bool := !report.path.isEmpty

namespace Outcome

variable {S : Type u} {K : Type v} [BEq K] [Hashable K]

/-- The path and the counters, unless a limit stopped the search. -/
def report (outcome : Outcome S K) : Except LimitExceeded (Report S) :=
  match outcome.verdict with
  | .found states => .ok ⟨⟨states⟩, outcome.progress.stats⟩
  | .exhausted => .ok ⟨.empty, outcome.progress.stats⟩
  | .stopped reason => .error reason

/-- The visited set at the end. -/
def visited (outcome : Outcome S K) : VisitedSet K := outcome.progress.visited

variable {outcome : Outcome S K} {report : Report S}

/-- A report has the path that was found, or none because there is no goal to be reached. -/
theorem verdict_of_report (reported : outcome.report = .ok report) :
    outcome.verdict = .found report.path.states ∨
      outcome.verdict = .exhausted ∧ report.path = .empty := by
  obtain ⟨verdict, progress⟩ := outcome
  cases verdict <;> cases reported
  · exact .inl rfl
  · exact .inr ⟨rfl, rfl⟩

theorem report_of_found {states : List S} (found : outcome.verdict = .found states) :
    outcome.report = .ok ⟨⟨states⟩, outcome.progress.stats⟩ := by
  rw [report, found]

theorem report_of_exhausted (exhausted : outcome.verdict = .exhausted) :
    outcome.report = .ok ⟨.empty, outcome.progress.stats⟩ := by
  rw [report, exhausted]

theorem stats_of_report (reported : outcome.report = .ok report) :
    report.stats = outcome.progress.stats := by
  obtain ⟨verdict, progress⟩ := outcome
  cases verdict <;> cases reported <;> rfl

theorem report_eq_error_iff {reason : LimitExceeded} :
    outcome.report = .error reason ↔ outcome.verdict = .stopped reason := by
  obtain ⟨verdict, progress⟩ := outcome
  cases verdict <;> simp [Outcome.report]

theorem not_stopped_of_report (reported : outcome.report = .ok report) (reason : LimitExceeded) :
    outcome.verdict ≠ .stopped reason := by
  intro stopped
  rw [Outcome.report, stopped] at reported
  cases reported

/-- The path depends on the verdict alone. -/
theorem path_eq_of_verdict_eq {outcome' : Outcome S K} {report' : Report S}
    (reported : outcome.report = .ok report) (reported' : outcome'.report = .ok report')
    (same : outcome.verdict = outcome'.verdict) : report.path = report'.path := by
  obtain ⟨verdict, progress⟩ := outcome
  obtain ⟨verdict', progress'⟩ := outcome'
  obtain rfl : verdict = verdict' := same
  cases verdict <;> cases reported <;> cases reported' <;> rfl

end Outcome

end SearchSpace

import RagStack.Access.Authorization
import RagStack.Common.Runs
import RagStack.Evals.StoredItems

/-!
# Eval runs

`runEvalSet` and `getEvalRun` of `services/api/src/evals/evals.service.ts` (lines
196–640) as a machine that takes one awaited step after the other; an event says
whether the step throws. A step that throws changes nothing in the tables.

The `try` begins behind the audit entry for the start, and ends behind the one for the
completion. So a run whose first entry fails is left `RUNNING`, and one whose last entry
fails becomes `FAILED` after it was stored as `COMPLETED`.

* `terminalConsistency_iff`: these are the only two steps that do so.
-/

namespace RagStack.Evals

open RagStack.Common RagStack.Api RagStack.Chat
open RagStack.Worker (Text)
open RagStack.Ingest (Id Time)
open RagStack.Access (AuthenticatedUser)

/-! ## Tables -/

/-- `enum EvalCaseStatus`. -/
inductive EvalCaseStatus
  | active | disabled
deriving DecidableEq, Repr

/-- `enum EvalRunStatus`. -/
inductive EvalRunStatus
  | running | completed | failed
deriving DecidableEq, Repr

/-- `EvalSet`. -/
structure EvalSet where
  id : Id
  kbId : Id
deriving DecidableEq, Repr

/-- `EvalCase`, as it is stored. -/
structure EvalCaseRow extends EvalCase where
  evalSetId : Id
  status : EvalCaseStatus := .active
  createdAt : Time
deriving DecidableEq, Repr

/-- `summaryJson`: a summary, or the message of an error. -/
inductive RunSummaryJson
  | summary (summary : EvalRunSummary)
  | error (message : Text)

/-- `EvalRun`. -/
structure EvalRun where
  id : Id
  evalSetId : Id
  kbId : Id
  startedAt : Time
  finishedAt : Option Time := none
  status : EvalRunStatus := .running
  summaryJson : Option RunSummaryJson := none

/-- `EvalItem`. -/
structure EvalItem extends StoredEvalItem where
  evalRunId : Id
  actualAnswer : Text
  regressionFlag : Bool
  usageJson : EvalUsage

/-- The tables of the evals. -/
structure EvalTables where
  evalSets : Table EvalSet EvalSet.id
  evalCases : List EvalCaseRow
  evalRuns : Table EvalRun EvalRun.id
  evalItems : List EvalItem := []

/-- The active cases of a set, the oldest first (lines 210–218). -/
def activeCases (db : EvalTables) (evalSetId : Id) : List EvalCase :=
  ((db.evalCases.filter fun evalCase =>
    evalCase.evalSetId = evalSetId ∧ evalCase.status = .active).mergeSort fun a b =>
      a.createdAt ≤ b.createdAt).map EvalCaseRow.toEvalCase

/-- The completed run of the set before a time (lines 275–294 and 614–625). -/
def previousRun (db : EvalTables) (evalSetId : Id) (startedAt : Time) : Option EvalRun :=
  ((db.evalRuns.rows.filter fun run => run.evalSetId = evalSetId ∧ run.status = .completed ∧
    run.startedAt < startedAt).mergeSort fun a b => b.startedAt ≤ a.startedAt).head?

/-- `previousRun?.items ?? []`. -/
def previousItems (db : EvalTables) (previous : Option EvalRun) : List StoredEvalItem :=
  (db.evalItems.filter fun item => previous.any fun run => run.id = item.evalRunId).map
    EvalItem.toStoredEvalItem

/-! ## The machine -/

/-- What a run is given: the functions that it is a parameter of, the id of its row,
    the times it reads, and what each case comes to. -/
structure RunEnv where
  uni : EcmaUnicode
  citationLimit : ℕ
  toNumber : Json → ℚ
  debug : DebugJson
  runId : Id
  startedAt : Time
  finishedAt : Time
  failedAt : Time
  outcome : EvalCase → CaseOutcome

/-- What `getEvalRun` returns; `comparisonToPrevious` is left out. -/
structure EvalRunView where
  run : EvalRun
  items : List EvalItem

/-- The step that is awaited. -/
inductive RunPoint
  | startAudit
  | previousRunRead
  | itemInsert (previous : List StoredEvalItem) (itemResults : List EvalRunItemSnapshot)
      (evalCase : EvalCase) (cases : List EvalCase)
  | completingUpdate (summary : EvalRunSummary)
  | completionAudit
  | finalRead
  | failingUpdate (message : Text)
  | returned (view : EvalRunView)
  | thrown (message : Text)

/-- A run of an eval set: the tables, the cases to run, and how far it has come. -/
structure RunState where
  db : EvalTables
  evalSetId : Id
  cases : List EvalCase
  point : RunPoint

/-- The update of a run at its end. -/
def finishRun (finishedAt : Time) (status : EvalRunStatus) (summaryJson : RunSummaryJson)
    (run : EvalRun) : EvalRun :=
  { run with finishedAt := some finishedAt, status := status, summaryJson := some summaryJson }

def RunState.updateRun (s : RunState) (runId : Id) (finishedAt : Time) (status : EvalRunStatus)
    (summaryJson : RunSummaryJson) : RunState :=
  { s with
    db.evalRuns := s.db.evalRuns.update runId (finishRun finishedAt status summaryJson)
      fun _ => rfl }

section Machine

variable (env : RunEnv)

/-- The case with what it comes to. -/
def caseRun (evalCase : EvalCase) : CaseRun :=
  { env.outcome evalCase with evalCase := evalCase }

/-- The step after the items so far (lines 305 and 505–521). -/
def nextCase (previous : List StoredEvalItem) (itemResults : List EvalRunItemSnapshot) :
    List EvalCase → RunPoint
  | [] => .completingUpdate (buildRunSummary env.runId itemResults)
  | evalCase :: cases => .itemInsert previous itemResults evalCase cases

/-- The item of a case (lines 428–491). -/
def evalItem (previous : List StoredEvalItem) (scored : ScoredCase) : EvalItem :=
  { storedItem env.debug scored with
    evalRunId := env.runId
    actualAnswer := scored.execution.answer
    regressionFlag := (itemSnapshot env.toNumber previous scored).regressionFlag
    usageJson := evalUsage scored.execution.usage }

/-- `getEvalRun` (lines 586–640) for an operator. -/
def getEvalRun (db : EvalTables) : RunPoint :=
  match db.evalRuns.get? env.runId with
  | none => .thrown "Eval run not found".toList
  | some run =>
    .returned { run := run, items := db.evalItems.filter fun item => item.evalRunId = env.runId }

/-- An awaited step; with a message, it throws. -/
def runStep (s : RunState) (event : Option Text) : Option RunState :=
  match s.point, event with
  | .startAudit, none => some { s with point := .previousRunRead }
  | .startAudit, some message => some { s with point := .thrown message }
  | .previousRunRead, none =>
    let previous := previousItems s.db (previousRun s.db s.evalSetId env.startedAt)
    some { s with point := nextCase env previous [] s.cases }
  | .previousRunRead, some message => some { s with point := .failingUpdate message }
  | .itemInsert previous itemResults evalCase cases, none =>
    let scored := scoreRun env.uni env.citationLimit (caseRun env evalCase)
    some
      { s with
        db.evalItems := s.db.evalItems ++ [evalItem env previous scored]
        point := nextCase env previous
          (itemResults ++ [itemSnapshot env.toNumber previous scored]) cases }
  | .itemInsert _ _ _ _, some message => some { s with point := .failingUpdate message }
  | .completingUpdate summary, none =>
    some { s.updateRun env.runId env.finishedAt .completed (.summary summary) with
      point := .completionAudit }
  | .completingUpdate _, some message => some { s with point := .failingUpdate message }
  | .completionAudit, none => some { s with point := .finalRead }
  | .completionAudit, some message => some { s with point := .failingUpdate message }
  | .finalRead, none => some { s with point := getEvalRun env s.db }
  | .finalRead, some message => some { s with point := .thrown message }
  | .failingUpdate message, none =>
    some { s.updateRun env.runId env.failedAt .failed (.error message) with
      point := .thrown message }
  | .failingUpdate _, some message => some { s with point := .thrown message }
  | .returned _, _ => none
  | .thrown _, _ => none

/-- `runEvalSet` up to the row of the run (lines 201–253). -/
def createEvalRun (db : EvalTables) (isConfigured : Bool) (user : AuthenticatedUser)
    (evalSetId : Id) : Except HttpException RunState :=
  if !user.hasAnySystemRole [.superAdmin, .operator] then
    .error (.forbidden "Operator access required")
  else if !isConfigured then
    .error (.serviceUnavailable "Eval runs require grounded chat to be configured")
  else
    match db.evalSets.get? evalSetId with
    | none => .error (.notFound "Eval set not found")
    | some evalSet =>
      if activeCases db evalSetId = [] then .error (.badRequest "Eval set has no active cases")
      else
        match db.evalRuns.insert?
          { id := env.runId
            evalSetId := evalSet.id
            kbId := evalSet.kbId
            startedAt := env.startedAt } with
        | none => .error .internal
        | some evalRuns =>
          .ok
            { db := { db with evalRuns := evalRuns }
              evalSetId := evalSetId
              cases := activeCases db evalSetId
              point := .startAudit }

/-! ## Consistency -/

/-- The row of the run. -/
def RunState.storedRun (s : RunState) : Option EvalRun := s.db.evalRuns.get? env.runId

def RunState.status (s : RunState) : Option EvalRunStatus := (s.storedRun env).map EvalRun.status

/-- The run is stored as completed, with its summary. -/
def IsCompleted (s : RunState) (summary : EvalRunSummary) : Prop :=
  ∃ run, s.storedRun env = some run ∧ run.status = .completed ∧
    run.summaryJson = some (.summary summary)

/-- The step leaves a completed run as it is. -/
def KeepsCompleted (s : RunState) (_ : Option Text) (s' : RunState) : Prop :=
  ∀ summary, IsCompleted env s summary → IsCompleted env s' summary

/-- The run ends completed or failed, and stays completed once it is. -/
def TerminalConsistent (start : RunState) (events : List (Option Text)) (final : RunState) :
    Prop :=
  (final.status env = some .completed ∨ final.status env = some .failed) ∧
    EachStep (runStep env) (KeepsCompleted env) start events

end Machine

/-- `runEvalSet` has returned or thrown. -/
def RunPoint.isEnd : RunPoint → Bool
  | .returned _ | .thrown _ => true
  | _ => false

/-- The entries in the audit log, which are not caught as the other steps are. -/
def RunPoint.isAudit : RunPoint → Bool
  | .startAudit | .completionAudit => true
  | _ => false

/-- The step does not throw at an entry in the audit log. -/
def SparesAudit (s : RunState) (event : Option Text) (_ : RunState) : Prop :=
  event.isSome = true → s.point.isAudit = false

/-- `runEvalSet` is in its `catch`. -/
def RunPoint.isFailing : RunPoint → Bool
  | .failingUpdate _ => true
  | _ => false

section Steps

variable {env : RunEnv} {s s' : RunState} {event : Option Text} {message : Text}

/-- What is stored at each point of a run that is not disturbed at its audit entries. -/
def Fits (env : RunEnv) (s : RunState) : Prop :=
  match s.point with
  | .startAudit | .previousRunRead | .itemInsert _ _ _ _ | .completingUpdate _
  | .failingUpdate _ => s.status env = some .running
  | .completionAudit | .finalRead | .returned _ => ∃ summary, IsCompleted env s summary
  | .thrown _ => s.status env = some .completed ∨ s.status env = some .failed

theorem storedRun_updateRun (finishedAt : Time) (status : EvalRunStatus)
    (summaryJson : RunSummaryJson) :
    (s.updateRun env.runId finishedAt status summaryJson).storedRun env =
      (s.storedRun env).map (finishRun finishedAt status summaryJson) :=
  Table.get?_update_self _ _ (finishRun finishedAt status summaryJson) fun _ => rfl

theorem status_of_isCompleted {summary : EvalRunSummary} (h : IsCompleted env s summary) :
    s.status env = some .completed := by
  obtain ⟨run, hrun, hstatus, -⟩ := h
  rw [RunState.status, hrun, Option.map_some, hstatus]

/-- A step that leaves the runs alone keeps them. -/
theorem keepsCompleted_of_eq (h : s'.db.evalRuns = s.db.evalRuns) :
    KeepsCompleted env s event s' := by
  intro summary hcompleted
  rwa [IsCompleted, RunState.storedRun, h]

theorem keepsCompleted_of_running (h : s.status env = some .running) :
    KeepsCompleted env s event s' := by
  intro summary hcompleted
  rw [status_of_isCompleted hcompleted] at h
  cases h

theorem isCompleted_updateRun {run : EvalRun} (h : s.storedRun env = some run)
    (finishedAt : Time) (summary : EvalRunSummary) :
    IsCompleted env (s.updateRun env.runId finishedAt .completed (.summary summary)) summary :=
  ⟨_, by rw [storedRun_updateRun, h, Option.map_some], rfl, rfl⟩

theorem status_updateRun {run : EvalRun} (h : s.storedRun env = some run)
    (finishedAt : Time) (status : EvalRunStatus) (summaryJson : RunSummaryJson) :
    (s.updateRun env.runId finishedAt status summaryJson).status env = some status := by
  rw [RunState.status, storedRun_updateRun, h]
  rfl

/-- A step that does not throw keeps what is stored in line with its point. -/
theorem fits_of_none (h : runStep env s none = some s') (hfits : Fits env s) :
    KeepsCompleted env s none s' ∧ Fits env s' ∧ s'.point.isFailing = false := by
  obtain ⟨db, evalSetId, cases', point⟩ := s
  cases point with
  | startAudit =>
    cases h
    exact ⟨keepsCompleted_of_eq rfl, hfits, rfl⟩
  | previousRunRead =>
    cases h
    refine ⟨keepsCompleted_of_eq rfl, ?_⟩
    cases cases' with
    | nil => exact ⟨hfits, rfl⟩
    | cons evalCase cases' => exact ⟨hfits, rfl⟩
  | itemInsert previous itemResults evalCase cases' =>
    cases h
    refine ⟨keepsCompleted_of_eq rfl, ?_⟩
    cases cases' with
    | nil => exact ⟨hfits, rfl⟩
    | cons evalCase cases' => exact ⟨hfits, rfl⟩
  | completingUpdate summary =>
    cases h
    obtain ⟨run, hrun, -⟩ := Option.map_eq_some_iff.mp hfits
    exact ⟨keepsCompleted_of_running hfits, ⟨summary, isCompleted_updateRun hrun _ _⟩, rfl⟩
  | completionAudit =>
    cases h
    exact ⟨keepsCompleted_of_eq rfl, hfits, rfl⟩
  | finalRead =>
    cases h
    refine ⟨keepsCompleted_of_eq rfl, ?_⟩
    obtain ⟨summary, run, hrun, hstatus, hsummary⟩ := hfits
    have hread : getEvalRun env db = .returned
        { run := run
          items := db.evalItems.filter fun item => item.evalRunId = env.runId } := by
      unfold getEvalRun
      rw [show db.evalRuns.get? env.runId = some run from hrun]
    simp only [hread]
    exact ⟨⟨summary, run, hrun, hstatus, hsummary⟩, rfl⟩
  | failingUpdate message =>
    cases h
    obtain ⟨run, hrun, -⟩ := Option.map_eq_some_iff.mp hfits
    exact ⟨keepsCompleted_of_running hfits, Or.inr (status_updateRun hrun _ _ _), rfl⟩
  | returned view => cases h
  | thrown message => cases h

/-- A step that throws, and is no entry in the audit log and not in the `catch`, does so
    too. -/
theorem fits_of_throws (h : runStep env s (some message) = some s') (hfits : Fits env s)
    (haudit : s.point.isAudit = false) (hfailing : s.point.isFailing = false) :
    KeepsCompleted env s (some message) s' ∧ Fits env s' := by
  obtain ⟨db, evalSetId, cases, point⟩ := s
  cases point with
  | startAudit => cases haudit
  | previousRunRead =>
    cases h
    exact ⟨keepsCompleted_of_eq rfl, hfits⟩
  | itemInsert previous itemResults evalCase cases =>
    cases h
    exact ⟨keepsCompleted_of_eq rfl, hfits⟩
  | completingUpdate summary =>
    cases h
    exact ⟨keepsCompleted_of_eq rfl, hfits⟩
  | completionAudit => cases haudit
  | finalRead =>
    cases h
    obtain ⟨summary, hcompleted⟩ := hfits
    exact ⟨keepsCompleted_of_eq rfl, Or.inl (status_of_isCompleted hcompleted)⟩
  | failingUpdate message => cases hfailing
  | returned view => cases h
  | thrown message => cases h

theorem terminal_of_fits (hfits : Fits env s) (hend : s.point.isEnd = true) :
    s.status env = some .completed ∨ s.status env = some .failed := by
  obtain ⟨db, evalSetId, cases, point⟩ := s
  cases point with
  | returned view =>
    obtain ⟨summary, hcompleted⟩ := hfits
    exact Or.inl (status_of_isCompleted hcompleted)
  | thrown message => exact hfits
  | _ => cases hend

/-- Where the first entry throws, the run is over, and still running; where the last
    one does, the completed run fails in the `catch`. -/
theorem not_terminalConsistent_of_audit (h : runStep env s (some message) = some s')
    (hfits : Fits env s) (haudit : s.point.isAudit = true) {events : List (Option Text)}
    (hthrows : events.countP Option.isSome = 0) {final : RunState}
    (hexec : exec (runStep env) s' events = some final) (hend : final.point.isEnd = true) :
    ¬ TerminalConsistent env s' events final := by
  obtain ⟨db, evalSetId, cases, point⟩ := s
  cases point with
  | startAudit =>
    cases h
    rintro ⟨hterminal, -⟩
    cases events with
    | nil =>
      cases hexec
      have hrunning : RunState.status env
          { db := db, evalSetId := evalSetId, cases := cases, point := .thrown message } =
          some .running := hfits
      rw [hrunning] at hterminal
      rcases hterminal with hcompleted | hfailed
      · cases hcompleted
      · cases hfailed
    | cons event events => cases hexec
  | completionAudit =>
    cases h
    rintro ⟨-, hkeeps⟩
    cases events with
    | nil =>
      cases hexec
      cases hend
    | cons event events =>
      cases event with
      | some message' => simp at hthrows
      | none =>
        obtain ⟨summary, hcompleted⟩ := hfits
        obtain ⟨run, hrun, -⟩ := id hcompleted
        rw [eachStep_cons_of_some rfl] at hkeeps
        have hkept := status_of_isCompleted (hkeeps.1 summary hcompleted)
        have hfailed := status_updateRun hrun env.failedAt .failed (.error message)
        exact absurd (hkept.symm.trans hfailed) (by simp)
  | _ => cases haudit

theorem terminalConsistent_cons {start : RunState} {events : List (Option Text)}
    {final : RunState} (h : runStep env start event = some s')
    (hkeeps : KeepsCompleted env start event s') :
    TerminalConsistent env start (event :: events) final ↔
      TerminalConsistent env s' events final := by
  rw [TerminalConsistent, TerminalConsistent, eachStep_cons_of_some h]
  exact and_congr_right fun _ => and_iff_right hkeeps

/-- By induction on the steps: as long as no audit entry throws, what is stored fits the
    point, and one that does is followed to the end. -/
theorem terminalConsistent_iff_of_fits {final : RunState} (hend : final.point.isEnd = true) :
    ∀ {events : List (Option Text)} {s : RunState}, Fits env s →
      events.countP Option.isSome ≤ 1 →
      (s.point.isFailing = true → events.countP Option.isSome = 0) →
      exec (runStep env) s events = some final →
      (TerminalConsistent env s events final ↔
        EachStep (runStep env) SparesAudit s events) := by
  intro events
  induction events with
  | nil =>
    intro s hfits _ _ hexec
    cases hexec
    exact iff_of_true ⟨terminal_of_fits hfits hend, trivial⟩ trivial
  | cons event events ih =>
    intro s hfits hsingle hfailing hexec
    rw [exec] at hexec
    cases hstep : runStep env s event with
    | none =>
      rw [hstep] at hexec
      cases hexec
    | some s' =>
      rw [hstep] at hexec
      rw [eachStep_cons_of_some hstep]
      cases event with
      | none =>
        obtain ⟨hkeeps, hfits', hpoint⟩ := fits_of_none hstep hfits
        rw [terminalConsistent_cons hstep hkeeps,
          ih hfits' (by simpa using hsingle) (by simp [hpoint]) hexec]
        exact (and_iff_right (by simp [SparesAudit])).symm
      | some message =>
        have hrest : events.countP Option.isSome = 0 := by simpa using hsingle
        have hpoint : s.point.isFailing = false := by
          by_contra hcatch
          simpa using hfailing (by simpa using hcatch)
        by_cases haudit : s.point.isAudit = true
        · constructor
          · intro hconsistent
            have hlater : TerminalConsistent env s' events final :=
              ⟨hconsistent.1, ((eachStep_cons_of_some hstep).mp hconsistent.2).2⟩
            exact absurd hlater
              (not_terminalConsistent_of_audit hstep hfits haudit hrest hexec hend)
          · intro hspares
            rw [hspares.1 rfl] at haudit
            cases haudit
        · rw [Bool.not_eq_true] at haudit
          obtain ⟨hkeeps, hfits'⟩ := fits_of_throws hstep hfits haudit hpoint
          rw [terminalConsistent_cons hstep hkeeps,
            ih hfits' (by omega) (fun _ => hrest) hexec]
          exact (and_iff_right fun _ => haudit).symm

theorem fits_createEvalRun {db : EvalTables} {isConfigured : Bool} {user : AuthenticatedUser}
    {evalSetId : Id} {start : RunState}
    (h : createEvalRun env db isConfigured user evalSetId = .ok start) :
    Fits env start ∧ start.point.isFailing = false := by
  unfold createEvalRun at h
  split at h
  · cases h
  · split at h
    · cases h
    · split at h
      · cases h
      · split at h
        · cases h
        · split at h
          · cases h
          · rename_i evalRuns hinsert
            cases h
            refine ⟨?_, rfl⟩
            show ((evalRuns.get? env.runId).map EvalRun.status) = _
            rw [Table.get?_insert?_self hinsert]
            rfl

/-- When at most one of the awaited steps throws, the run ends completed or failed and
    stays completed once it is, exactly if that step is no entry in the audit log. -/
theorem terminalConsistency_iff {db : EvalTables} {isConfigured : Bool} {user : AuthenticatedUser}
    {evalSetId : Id} {start final : RunState} {events : List (Option Text)}
    (hstart : createEvalRun env db isConfigured user evalSetId = .ok start)
    (hsingle : events.countP Option.isSome ≤ 1)
    (hexec : exec (runStep env) start events = some final) (hend : final.point.isEnd = true) :
    TerminalConsistent env start events final ↔
      EachStep (runStep env) SparesAudit start events := by
  obtain ⟨hfits, hpoint⟩ := fits_createEvalRun hstart
  exact terminalConsistent_iff_of_fits hend hfits hsingle (by simp [hpoint]) hexec

end Steps

/-! ## A run with one case -/

def guideCase : EvalCaseRow where
  id := 1
  question := "How do I start the worker?".toList
  evalSetId := 1
  createdAt := 1

def guideTables : EvalTables where
  evalSets := ⟨[{ id := 1, kbId := 1 }], by decide⟩
  evalCases := [guideCase]
  evalRuns := .empty

def guideEnv : RunEnv where
  uni := .ascii
  citationLimit := 3
  toNumber _ := 0
  debug := ⟨fun _ => .null, fun _ => .null⟩
  runId := 1
  startedAt := 10
  finishedAt := 20
  failedAt := 30
  outcome _ := { executed := .error "Eval answer generation failed".toList }

/-- The run when its row has been created. -/
def guideStart : RunState where
  db := { guideTables with evalRuns := ⟨[{ id := 1, evalSetId := 1, kbId := 1, startedAt := 10 }],
    by decide⟩ }
  evalSetId := 1
  cases := [guideCase.toEvalCase]
  point := .startAudit

theorem createEvalRun_guide :
    createEvalRun guideEnv guideTables true { id := 1, userRole := [some .operator] } 1 =
      .ok guideStart := by
  have hcases : activeCases guideTables 1 = [guideCase.toEvalCase] := by
    simp [activeCases, guideTables, guideCase]
  unfold createEvalRun
  rw [hcases]
  rfl

/-- The insert of the item fails, and nothing else. -/
theorem terminalConsistency_iff_guide :
    ∃ final, exec (runStep guideEnv) guideStart [none, none, some "timeout".toList, none] =
        some final ∧
      (TerminalConsistent guideEnv guideStart [none, none, some "timeout".toList, none] final ↔
        EachStep (runStep guideEnv) SparesAudit guideStart
          [none, none, some "timeout".toList, none]) :=
  ⟨_, rfl, terminalConsistency_iff createEvalRun_guide (by decide) rfl rfl⟩

/-- The first entry in the audit log fails: the run is left running. The last one fails:
    a completed run becomes a failed one. -/
theorem not_terminalConsistent_guide :
    (∃ final, exec (runStep guideEnv) guideStart [some "timeout".toList] = some final ∧
      final.point.isEnd = true ∧ final.status guideEnv = some .running ∧
      ¬ TerminalConsistent guideEnv guideStart [some "timeout".toList] final) ∧
    ∃ final,
      exec (runStep guideEnv) guideStart [none, none, none, none, some "timeout".toList, none] =
        some final ∧
      final.point.isEnd = true ∧ final.status guideEnv = some .failed ∧
      ¬ TerminalConsistent guideEnv guideStart
        [none, none, none, none, some "timeout".toList, none] final := by
  refine ⟨⟨_, rfl, rfl, rfl, ?_⟩, _, rfl, rfl, rfl, ?_⟩
  · rintro ⟨hcompleted | hfailed, -⟩
    · cases hcompleted
    · cases hfailed
  · rintro ⟨-, -, -, -, -, -, hkeeps, -⟩
    obtain ⟨run, hrun, hstatus, -⟩ := hkeeps _ ⟨_, rfl, rfl, rfl⟩
    cases hrun
    cases hstatus

end RagStack.Evals

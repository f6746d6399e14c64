import RagStack.Ingest.Queue

/-!
# Overlapping deliveries

Several workers may run the same job at a time: the queue delivers a job again
when the worker that runs it is taken for dead. Here a delivery is its sequence
of commits, and the deliveries of all workers interleave.

* `deliveryStep` — one step of a delivery; it may also crash between two steps.
* `process_eq_exec`: the steps of one undisturbed delivery are `process`.
* `terminal_absorbing_iff`: terminal job statuses are absorbing exactly in the
  runs where no delivery ends with another status than a terminal one that an
  overlapping delivery of its job has written.
* `activation_possible_iff`: an open job can be activated again exactly as long
  as no delivery is cut off in its last attempt.
-/

namespace RagStack.Ingest

open RagStack.Common RagStack.Worker RagStack.Chunking

/-! ## Steps of a delivery -/

/-- A transaction that a delivery has committed. -/
inductive Commit
  | activate (jobId versionId : Id)
  | persist (versionId : Id) (chunkCount : ℕ)
  | finish (jobId versionId : Id) (f : Finish)
deriving DecidableEq, Repr

/-- The database, with the commits of a run, oldest first. No step reads the
    log; it serves to say in which order the commits came. -/
structure Store where
  db : Database
  log : List Commit := []

/-- How far the delivery in a worker slot has come. -/
inductive Phase
  | idle
  | working (ctx : JobContext)
  | ready (ctx : JobContext) (chunks : List ChunkRecord)
  | persisted (ctx : JobContext) (chunkCount : ℕ)
  | failing (ctx : JobContext) (error : IngestionError)

/-- A worker slot; `started` is the length of the log before the activation. -/
structure Slot where
  phase : Phase := .idle
  started : ℕ := 0

/-- The next step of the slot, which meets what the attempt says, or a crash. -/
inductive DeliveryEvent
  | next (a : Attempt)
  | crash

/-- One step of `process`, up to the next commit: an idle slot takes the job from
    the queue and activates it. -/
def deliveryStep (p : Pipeline) (payload : IngestJobPayload) (s : Store) (slot : Slot)
    (e : DeliveryEvent) : Option (Store × Slot) :=
  match e, slot.phase with
  | .crash, .idle => none
  | .crash, _ => some (s, {})
  | .next a, .idle =>
    match a.activateFault with
    | some _ => some (s, {})
    | none =>
      match p.statusManager.markJobActive payload a.startedAt s.db with
      | .error _ => some (s, {})
      | .ok (ctx, active) =>
        if ctx.attemptNo = 0 then some ({ s with db := active }, {})
        else
          some ({ db := active, log := s.log ++ [.activate ctx.ingestJobId ctx.documentVersionId] },
            { phase := .working ctx, started := s.log.length })
  | .next a, .working ctx =>
    match p.runStages a with
    | .error raised => some (s, { slot with phase := .failing ctx raised.wrapped })
    | .ok chunks => some (s, { slot with phase := .ready ctx chunks })
  | .next a, .ready ctx chunks =>
    match p.indexer.persistChunks ctx chunks a.newId a.persistedAt a.persistFault s.db with
    | .error raised => some (s, { slot with phase := .failing ctx raised.wrapped })
    | .ok persisted =>
      some ({ db := persisted, log := s.log ++ [.persist ctx.documentVersionId chunks.length] },
        { slot with phase := .persisted ctx chunks.length })
  | .next a, .persisted ctx chunkCount =>
    match a.successFault with
    | some raised => some (s, { slot with phase := .failing ctx raised.wrapped })
    | none =>
      some ({ db := p.statusManager.finish ctx (.success chunkCount) a.finishedAt s.db,
              log := s.log ++ [.finish ctx.ingestJobId ctx.documentVersionId (.success chunkCount)] },
        {})
  | .next a, .failing ctx error =>
    match a.failureFault with
    | some _ => some (s, {})
    | none =>
      some ({ db := p.statusManager.finish ctx (failureFinish ctx error) a.finishedAt s.db,
              log := s.log ++
                [.finish ctx.ingestJobId ctx.documentVersionId (failureFinish ctx error)] },
        {})

/-! ## The cases of a step -/

namespace Phase

/-- The context of the delivery. -/
def ctx? : Phase → Option JobContext
  | idle => none
  | working ctx | ready ctx _ | persisted ctx _ | failing ctx _ => some ctx

/-- The transaction that ends the delivery with this event. -/
def finish? : Phase → DeliveryEvent → Option (JobContext × Finish)
  | persisted ctx chunkCount, .next a =>
    if a.successFault = none then some (ctx, .success chunkCount) else none
  | failing ctx error, .next a =>
    if a.failureFault = none then some (ctx, failureFinish ctx error) else none
  | _, _ => none

/-- The event ends the delivery without a transaction: the worker crashes, or
    the transaction of `_handle_failure` fails. -/
def CutOff : Phase → DeliveryEvent → Prop
  | idle, _ => False
  | _, .crash => True
  | failing _ _, .next a => a.failureFault ≠ none
  | _, .next _ => False

end Phase

/-- Everything that a step can do. -/
inductive DeliveryCase (p : Pipeline) (payload : IngestJobPayload) (s : Store) (slot : Slot) :
    DeliveryEvent → Store → Slot → Prop
  /-- The delivery raises at its activation, or the job is terminal. -/
  | rest {a : Attempt} (idle : slot.phase = .idle) : DeliveryCase p payload s slot (.next a) s {}
  | activate {a : Attempt} {job job' : IngestJob} {document : Document} (idle : slot.phase = .idle)
      (found : findJob s.db payload.ingestJobId = some (job, document)) (isOpen : job.status.Open)
      (activated : job.activate? payload.correlationId a.startedAt = some job') :
      DeliveryCase p payload s slot (.next a)
        { db := p.statusManager.activated payload job' a.startedAt s.db
          log := s.log ++ [.activate payload.ingestJobId payload.documentVersionId] }
        { phase := .working (payload.context document.name (job.attempts + 1) job.maxAttempts)
          started := s.log.length }
  | stages {a : Attempt} {ctx : JobContext} {chunks : List ChunkRecord}
      (working : slot.phase = .working ctx) (done : p.runStages a = .ok chunks) :
      DeliveryCase p payload s slot (.next a) s { slot with phase := .ready ctx chunks }
  | raise {a : Attempt} {ctx : JobContext} (error : IngestionError)
      (running : slot.phase.ctx? = some ctx) (notCut : ¬ slot.phase.CutOff (.next a))
      (noFinish : slot.phase.finish? (.next a) = none) :
      DeliveryCase p payload s slot (.next a) s { slot with phase := .failing ctx error }
  | persist {a : Attempt} {ctx : JobContext} {chunks : List ChunkRecord} {persisted : Database}
      (ready : slot.phase = .ready ctx chunks)
      (commits : p.indexer.persistTransaction ctx chunks a.newId a.persistedAt s.db =
        some persisted) :
      DeliveryCase p payload s slot (.next a)
        { db := persisted, log := s.log ++ [.persist ctx.documentVersionId chunks.length] }
        { slot with phase := .persisted ctx chunks.length }
  | finish {a : Attempt} {ctx : JobContext} {f : Finish}
      (ends : slot.phase.finish? (.next a) = some (ctx, f)) :
      DeliveryCase p payload s slot (.next a)
        { db := p.statusManager.finish ctx f a.finishedAt s.db
          log := s.log ++ [.finish ctx.ingestJobId ctx.documentVersionId f] }
        {}
  | cut {e : DeliveryEvent} (cutOff : slot.phase.CutOff e) : DeliveryCase p payload s slot e s {}

section Steps

variable {p : Pipeline} {payload : IngestJobPayload} {s s' : Store} {slot slot' : Slot}
  {e : DeliveryEvent}

theorem ctx_eq_none {phase : Phase} : phase.ctx? = none ↔ phase = .idle := by
  cases phase <;> simp [Phase.ctx?]

theorem ctx_of_finish {phase : Phase} {ctx : JobContext} {f : Finish}
    (h : phase.finish? e = some (ctx, f)) : phase.ctx? = some ctx := by
  unfold Phase.finish? at h
  split at h
  · split_ifs at h
    cases h
    rfl
  · split_ifs at h
    cases h
    rfl
  · cases h

theorem ctx_of_cutOff {phase : Phase} (h : phase.CutOff e) : ∃ ctx, phase.ctx? = some ctx := by
  cases phase with
  | idle => cases h
  | working ctx => exact ⟨ctx, rfl⟩
  | ready ctx chunks => exact ⟨ctx, rfl⟩
  | persisted ctx n => exact ⟨ctx, rfl⟩
  | failing ctx error => exact ⟨ctx, rfl⟩

theorem finish?_of_cutOff {phase : Phase} (h : phase.CutOff e) : phase.finish? e = none := by
  cases phase <;> cases e <;> simp_all [Phase.CutOff, Phase.finish?]

/-- Only `mark_retry_waiting` leaves the job open, and it needs an attempt. -/
theorem attempt_left_of_open {phase : Phase} {ctx : JobContext} {f : Finish}
    (h : phase.finish? e = some (ctx, f)) (hopen : f.jobStatus.Open) :
    ctx.attemptNo + 1 ≤ ctx.maxAttempts := by
  unfold Phase.finish? at h
  split at h
  · split_ifs at h
    cases h
    simp [Finish.jobStatus, IngestJobStatus.Open] at hopen
  · split_ifs at h
    cases h
    unfold failureFinish at hopen
    by_contra hlt
    have hle : ctx.maxAttempts ≤ ctx.attemptNo := by omega
    simp only [hle, decide_true, Bool.and_true, Bool.and_not_self, Bool.false_eq_true, if_false,
      Finish.jobStatus] at hopen
    split_ifs at hopen <;> simp [IngestJobStatus.Open] at hopen
  · cases h

theorem deliveryStep_cases (h : deliveryStep p payload s slot e = some (s', slot')) :
    DeliveryCase p payload s slot e s' slot' := by
  obtain ⟨phase, started⟩ := slot
  cases e with
  | crash =>
    cases phase with
    | idle => cases h
    | working ctx => cases h; exact .cut trivial
    | ready ctx chunks => cases h; exact .cut trivial
    | persisted ctx n => cases h; exact .cut trivial
    | failing ctx error => cases h; exact .cut trivial
  | next a =>
    cases phase with
    | idle =>
      simp only [deliveryStep] at h
      split at h
      · cases h; exact .rest rfl
      · split at h
        · cases h; exact .rest rfl
        · rename_i ctx active hactive
          obtain ⟨job, document, hfind, ⟨-, rfl, rfl⟩ | ⟨hopen, job', hact, rfl, rfl⟩⟩ :=
            markJobActive_cases hactive
          · cases h; exact .rest rfl
          · cases h; exact .activate rfl hfind hopen hact
    | working ctx =>
      simp only [deliveryStep] at h
      split at h
      · cases h; exact .raise _ rfl id rfl
      · rename_i chunks hdone
        cases h; exact .stages rfl hdone
    | ready ctx chunks =>
      simp only [deliveryStep] at h
      split at h
      · cases h; exact .raise _ rfl id rfl
      · rename_i persisted hpersist
        cases h; exact .persist rfl (persistChunks_eq_ok hpersist)
    | persisted ctx n =>
      simp only [deliveryStep] at h
      split at h
      · rename_i raised hfault
        cases h; exact .raise _ rfl id (by simp [Phase.finish?, hfault])
      · rename_i hfault
        cases h; exact .finish (by simp [Phase.finish?, hfault])
    | failing ctx error =>
      simp only [deliveryStep] at h
      split at h
      · rename_i raised hfault
        cases h; exact .cut (by simp [Phase.CutOff, hfault])
      · rename_i hfault
        cases h; exact .finish (by simp [Phase.finish?, hfault])

end Steps

/-! ## A delivery as a whole -/

/-- The steps of a single slot. -/
def slotStep (p : Pipeline) (payload : IngestJobPayload) (c : Store × Slot) (e : DeliveryEvent) :
    Option (Store × Slot) :=
  deliveryStep p payload c.1 c.2 e

theorem exec_next {p : Pipeline} {payload : IngestJobPayload} {c c' : Store × Slot} {a : Attempt}
    {n : ℕ} (h : slotStep p payload c (.next a) = some c') :
    exec (slotStep p payload) c (List.replicate (n + 1) (.next a)) =
      exec (slotStep p payload) c' (List.replicate n (.next a)) := by
  rw [List.replicate_succ, exec, h]

/-- The handler leaves the slot idle and the database as `handleFailure` does. -/
theorem exec_failing (p : Pipeline) (payload : IngestJobPayload) (s : Store) (ctx : JobContext)
    (error : IngestionError) (started : ℕ) (a : Attempt) :
    ∃ log, exec (slotStep p payload) (s, { phase := .failing ctx error, started := started })
      [.next a] = some (⟨(p.handleFailure a ctx error s.db).1, log⟩, {}) := by
  unfold Pipeline.handleFailure
  cases hfault : a.failureFault with
  | some raised => exact ⟨s.log, by simp [exec, slotStep, deliveryStep, hfault]⟩
  | none => exact ⟨_, by simp [exec, slotStep, deliveryStep, hfault]; rfl⟩

/-- The steps of an undisturbed delivery do what `process` does. -/
theorem process_eq_exec (p : Pipeline) (payload : IngestJobPayload) (a : Attempt) (s : Store) :
    ∃ n log, exec (slotStep p payload) (s, {}) (List.replicate n (.next a)) =
      some (⟨(p.process payload a s.db).1, log⟩, {}) := by
  unfold Pipeline.process
  cases hfault : a.activateFault with
  | some raised => exact ⟨1, s.log, by simp [exec, slotStep, deliveryStep, hfault]⟩
  | none =>
    cases hactive : p.statusManager.markJobActive payload a.startedAt s.db with
    | error raised => exact ⟨1, s.log, by simp [exec, slotStep, deliveryStep, hfault, hactive]⟩
    | ok active =>
      obtain ⟨ctx, active⟩ := active
      simp only
      split_ifs with hskip
      · exact ⟨1, s.log, by simp [exec, slotStep, deliveryStep, hfault, hactive, hskip]⟩
      -- the job is active: the steps are those of `work`, then the handler if it raised
      have hstart : slotStep p payload (s, {}) (.next a) = some
          ({ db := active, log := s.log ++ [.activate ctx.ingestJobId ctx.documentVersionId] },
            { phase := .working ctx, started := s.log.length }) := by
        simp only [slotStep, deliveryStep, hfault, hactive, if_neg hskip]
      unfold Pipeline.work
      cases hstages : p.runStages a with
      | error raised =>
        obtain ⟨log, hfail⟩ := exec_failing p payload _ ctx raised.wrapped s.log.length a
        refine ⟨3, log, ?_⟩
        rw [exec_next hstart, exec_next (by simp only [slotStep, deliveryStep, hstages]; rfl)]
        exact hfail
      | ok chunks =>
        simp only
        cases hpersist : p.indexer.persistChunks ctx chunks a.newId a.persistedAt a.persistFault
            active with
        | error raised =>
          obtain ⟨log, hfail⟩ := exec_failing p payload _ ctx raised.wrapped s.log.length a
          refine ⟨4, log, ?_⟩
          rw [exec_next hstart, exec_next (by simp only [slotStep, deliveryStep, hstages]; rfl),
            exec_next (by simp only [slotStep, deliveryStep, hpersist]; rfl)]
          exact hfail
        | ok persisted =>
          simp only
          cases hsuccess : a.successFault with
          | some raised =>
            obtain ⟨log, hfail⟩ := exec_failing p payload _ ctx raised.wrapped s.log.length a
            refine ⟨5, log, ?_⟩
            rw [exec_next hstart, exec_next (by simp only [slotStep, deliveryStep, hstages]; rfl),
              exec_next (by simp only [slotStep, deliveryStep, hpersist]; rfl),
              exec_next (by simp only [slotStep, deliveryStep, hsuccess]; rfl)]
            exact hfail
          | none =>
            refine ⟨4, ?log, ?eq⟩
            case eq =>
              rw [exec_next hstart, exec_next (by simp only [slotStep, deliveryStep, hstages]; rfl),
                exec_next (by simp only [slotStep, deliveryStep, hpersist]; rfl),
                exec_next (by simp only [slotStep, deliveryStep, hsuccess]; rfl)]
              rfl

/-! ## Terminal statuses -/

section Interleavings

variable {ι : Type} [DecidableEq ι]

/-- Worker slots `i : ι` that share the database: slot `i` runs the pipeline
    `worker i` on the payload `payload i`. -/
def deliveries (worker : ι → Pipeline) (payload : ι → IngestJobPayload) :
    Store × (ι → Slot) → ι × DeliveryEvent → Option (Store × (ι → Slot)) :=
  interleave fun i => deliveryStep (worker i) (payload i)

/-- No delivery has begun. -/
def allIdle (ι : Type) (db : Database) : Store × (ι → Slot) := ({ db := db }, fun _ => {})

/-- No job leaves a terminal status. -/
def KeepsTerminal (db db' : Database) : Prop :=
  ∀ t j, db.jobs.get? t = some j → j.status.Terminal →
    ∃ j', db'.jobs.get? t = some j' ∧ j'.status = j.status

/-- The terminal status that a commit writes to a job. -/
def Commit.verdict? (jobId : Id) : Commit → Option IngestJobStatus
  | .finish t _ f => if t = jobId ∧ f.jobStatus.Terminal then some f.jobStatus else none
  | _ => none

/-- The terminal statuses written to a job since the activation of the slot. -/
def verdicts (s : Store) (slot : Slot) (jobId : Id) : List IngestJobStatus :=
  (s.log.drop slot.started).filterMap (Commit.verdict? jobId)

/-- If the delivery ends with this event, then with the terminal status that an
    overlapping delivery of its job has written, if one has. -/
def SameVerdict (s : Store) (slot : Slot) (e : DeliveryEvent) : Prop :=
  ∀ ctx f, slot.phase.finish? e = some (ctx, f) →
    ∀ t ∈ verdicts s slot ctx.ingestJobId, t = f.jobStatus

/-- The status of the job of a running delivery is terminal exactly if a
    delivery has written it since the activation. -/
def Tracked (s : Store) (slot : Slot) : Prop :=
  ∀ ctx, slot.phase.ctx? = some ctx → slot.started ≤ s.log.length ∧
    ∃ j, s.db.jobs.get? ctx.ingestJobId = some j ∧
      (j.status.Terminal → j.status ∈ verdicts s slot ctx.ingestJobId) ∧
      ∀ t ∈ verdicts s slot ctx.ingestJobId, j.status = t

variable {p : Pipeline} {payload : IngestJobPayload} {s s' : Store} {slot slot' other : Slot}
  {e : DeliveryEvent}

theorem verdicts_snoc {db : Database} {c : Commit} (h : slot.started ≤ s.log.length) (jobId : Id) :
    verdicts { db := db, log := s.log ++ [c] } slot jobId =
      verdicts s slot jobId ++ (c.verdict? jobId).toList := by
  rw [verdicts, verdicts, List.drop_append_of_le_length h, List.filterMap_append]
  cases hc : c.verdict? jobId <;> simp [hc]

theorem terminal_of_mem_verdicts {jobId : Id} {t : IngestJobStatus}
    (h : t ∈ verdicts s slot jobId) : t.Terminal := by
  obtain ⟨c, -, hc⟩ := List.mem_filterMap.mp h
  unfold Commit.verdict? at hc
  split at hc
  · split_ifs at hc with hif
    cases hc
    exact hif.2
  · cases hc

/-- A commit that writes no terminal status of the job, and keeps its status. -/
theorem Tracked.snoc {db : Database} {c : Commit} (h : Tracked s other)
    (hc : ∀ ctx, other.phase.ctx? = some ctx → c.verdict? ctx.ingestJobId = none ∧
      ∀ j, s.db.jobs.get? ctx.ingestJobId = some j →
        ∃ j', db.jobs.get? ctx.ingestJobId = some j' ∧
          (j'.status = j.status ∨ j.status.Open ∧ j'.status.Open)) :
    Tracked { db := db, log := s.log ++ [c] } other := by
  intro ctx hctx
  obtain ⟨hlen, j, hj, hterm, hall⟩ := h ctx hctx
  obtain ⟨hnone, hkeep⟩ := hc ctx hctx
  obtain ⟨j', hj', hstatus⟩ := hkeep j hj
  refine ⟨by simp; omega, j', hj', ?_, ?_⟩
  · rw [verdicts_snoc hlen, hnone]
    intro ht
    rcases hstatus with heq | ⟨-, hopen⟩
    · rw [heq] at ht ⊢
      exact List.mem_append_left _ (hterm ht)
    · exact absurd ht (IngestJobStatus.not_terminal_iff.mpr hopen)
  · rw [verdicts_snoc hlen, hnone]
    intro t ht
    have ht : t ∈ verdicts s other ctx.ingestJobId := by simpa using ht
    rcases hstatus with heq | ⟨hopen, -⟩
    · rw [heq, hall t ht]
    · -- an open job has no verdict
      have hterminal := terminal_of_mem_verdicts ht
      rw [← hall t ht] at hterminal
      exact absurd hterminal (IngestJobStatus.not_terminal_iff.mpr hopen)

/-- Activation writes the row of the open job that it has found. -/
theorem id_activated {job job' : IngestJob} {document : Document} {now : Time}
    (found : findJob s.db payload.ingestJobId = some (job, document))
    (activated : job.activate? payload.correlationId now = some job') :
    s.db.jobs.get? job'.id = some job ∧ job'.id = payload.ingestJobId := by
  obtain ⟨hjob, -⟩ := findJob_eq_some.mp found
  have hid : job'.id = payload.ingestJobId := by
    rw [(activate?_spec activated).2.1, Table.key_of_get? hjob]
  exact ⟨by rw [hid, hjob], hid⟩

/-- Step lemma for a delivery that does not take the step. -/
theorem Tracked.step (h : Tracked s other) (hs : DeliveryCase p payload s slot e s' slot')
    (hkeep : KeepsTerminal s.db s'.db) : Tracked s' other := by
  cases hs with
  | rest idle => exact h
  | stages working done => exact h
  | raise error running notCut noFinish => exact h
  | cut cutOff => exact h
  | @activate a job job' document idle found isOpen activated =>
    obtain ⟨hrow, hid⟩ := id_activated found activated
    refine h.snoc fun ctx hctx => ⟨rfl, fun j hj => ?_⟩
    by_cases hne : ctx.ingestJobId = job'.id
    · rw [hne, hrow] at hj
      cases hj
      exact ⟨_, by rw [hne]; exact get?_jobs_activated hrow,
        Or.inr ⟨isOpen, Or.inr (activate?_spec activated).2.2.2.1⟩⟩
    · exact ⟨j, by rw [get?_jobs_activated_of_ne hne, hj], Or.inl rfl⟩
  | persist ready commits =>
    obtain ⟨hjobs, -⟩ := persistTransaction_frame commits
    exact h.snoc fun ctx hctx => ⟨rfl, fun j hj => ⟨j, by rw [hjobs, hj], Or.inl rfl⟩⟩
  | @finish a ctx f ends =>
    intro ctx' hctx'
    by_cases hne : ctx'.ingestJobId = ctx.ingestJobId
    · obtain ⟨hlen, j, hj, hterm, hall⟩ := h ctx' hctx'
      obtain ⟨j', hj', -, hstatus, -⟩ :=
        @get?_jobs_finish p.statusManager ctx a.finishedAt s.db f j (hne ▸ hj)
      refine ⟨by simp; omega, j', by rw [hne]; exact hj', ?_, ?_⟩
      · rw [verdicts_snoc hlen, hstatus]
        intro ht
        exact List.mem_append_right _ (by simp [Commit.verdict?, hne, ht])
      · intro t ht
        rw [verdicts_snoc hlen, List.mem_append] at ht
        rcases ht with ht | ht
        · -- an older verdict is the status, and the step keeps it
          have hjt := hall t ht
          obtain ⟨j'', hj'', hkept⟩ := hkeep _ j hj (hjt ▸ terminal_of_mem_verdicts ht)
          rw [hne] at hj''
          cases hj'.symm.trans hj''
          rw [hkept, hjt]
        · have ht : f.jobStatus.Terminal ∧ f.jobStatus = t := by
            simpa [Commit.verdict?, hne] using ht
          rw [hstatus, ht.2]
    · refine h.snoc (fun ctx'' hctx'' => ?_) ctx' hctx'
      cases hctx'.symm.trans hctx''
      refine ⟨by simp [Commit.verdict?, Ne.symm hne], fun j hj => ⟨j, ?_, Or.inl rfl⟩⟩
      rw [get?_jobs_finish_of_ne f hne, hj]

theorem Tracked.congr (h : Tracked s slot) (hctx : slot'.phase.ctx? = slot.phase.ctx?)
    (hstarted : slot'.started = slot.started) : Tracked s slot' := by
  intro ctx hslot
  rw [hctx] at hslot
  simpa only [verdicts, hstarted] using h ctx hslot

theorem tracked_idle {started : ℕ} : Tracked s { phase := .idle, started := started } := nofun

/-- Step lemma for the delivery that takes the step. -/
theorem Tracked.own (h : Tracked s slot) (hs : DeliveryCase p payload s slot e s' slot')
    (hkeep : KeepsTerminal s.db s'.db) : Tracked s' slot' := by
  have hstep := h.step hs hkeep
  cases hs with
  | rest idle => exact tracked_idle
  | cut cutOff => exact tracked_idle
  | finish ends => exact tracked_idle
  | stages working done => exact hstep.congr (by rw [working]; rfl) rfl
  | raise error running notCut noFinish => exact hstep.congr (by rw [running]; rfl) rfl
  | persist ready commits => exact hstep.congr (by rw [ready]; rfl) rfl
  | activate idle found isOpen activated =>
    intro ctx hctx
    cases hctx
    obtain ⟨hrow, hid⟩ := id_activated found activated
    refine ⟨by simp, _, hid ▸ get?_jobs_activated hrow, ?_, ?_⟩
    · rw [(activate?_spec activated).2.2.2.1]
      exact False.elim
    · intro t ht
      simp [verdicts, Commit.verdict?] at ht

/-- A step keeps the terminal statuses exactly if it writes no other one. -/
theorem keepsTerminal_iff (h : Tracked s slot) (hs : DeliveryCase p payload s slot e s' slot') :
    KeepsTerminal s.db s'.db ↔ SameVerdict s slot e := by
  have hsame : ∀ {db' : Database}, db'.jobs = s.db.jobs → slot.phase.finish? e = none →
      (KeepsTerminal s.db db' ↔ SameVerdict s slot e) := by
    intro db' hjobs hnone
    refine iff_of_true (fun t j hj _ => ⟨j, by rw [hjobs, hj], rfl⟩) fun ctx f hf => ?_
    rw [hnone] at hf
    cases hf
  cases hs with
  | rest idle => exact hsame rfl (by rw [idle]; rfl)
  | stages working done => exact hsame rfl (by rw [working]; rfl)
  | raise error running notCut noFinish => exact hsame rfl noFinish
  | cut cutOff => exact hsame rfl (finish?_of_cutOff cutOff)
  | persist ready commits =>
    exact hsame (persistTransaction_frame commits).1 (by rw [ready]; rfl)
  | @activate a job job' document idle found isOpen activated =>
    -- the job that changes was open
    obtain ⟨hrow, -⟩ := id_activated found activated
    refine iff_of_true (fun t j hj hterm => ?_) fun ctx f hf => ?_
    · by_cases hne : t = job'.id
      · rw [hne, hrow] at hj
        cases hj
        exact absurd hterm (IngestJobStatus.not_terminal_iff.mpr isOpen)
      · exact ⟨j, by rw [get?_jobs_activated_of_ne hne, hj], rfl⟩
    · rw [idle] at hf
      cases hf
  | @finish a ctx f ends =>
    obtain ⟨hlen, j, hj, hterm, hall⟩ := h ctx (ctx_of_finish ends)
    obtain ⟨j', hj', -, hstatus, -⟩ := @get?_jobs_finish p.statusManager ctx a.finishedAt s.db f j hj
    constructor
    · intro hkeep ctx' f' hf t ht
      rw [ends] at hf
      cases hf
      have hjt := hall t ht
      obtain ⟨j'', hj'', hkept⟩ := hkeep _ j hj (hjt ▸ terminal_of_mem_verdicts ht)
      cases hj'.symm.trans hj''
      rw [← hjt, ← hkept, hstatus]
    · intro hverdict t i hi hi'
      by_cases hne : t = ctx.ingestJobId
      · subst hne
        cases hj.symm.trans hi
        exact ⟨j', hj', by rw [hstatus, hverdict ctx f ends _ (hterm hi')]⟩
      · exact ⟨i, by rw [get?_jobs_finish_of_ne f hne, hi], rfl⟩

theorem tracked_deliveries {worker : ι → Pipeline} {payload : ι → IngestJobPayload}
    {s s' : Store × (ι → Slot)} {ie : ι × DeliveryEvent}
    (h : ∀ k, Tracked s.1 (s.2 k)) (hs : deliveries worker payload s ie = some s')
    (hkeep : KeepsTerminal s.1.db s'.1.db) : ∀ k, Tracked s'.1 (s'.2 k) := by
  apply interleave_inv hs (J := fun _ slot => Tracked s'.1 slot)
  · intro slot' hstep
    exact (h ie.1).own (deliveryStep_cases hstep) hkeep
  · intro slot' hstep k _
    exact (h k).step (deliveryStep_cases hstep) hkeep

/-- Terminal statuses are absorbing along exactly those runs in which every
    delivery that ends writes the terminal status that an overlapping delivery
    of its job has written, if one has. -/
theorem terminal_absorbing_iff (worker : ι → Pipeline) (payload : ι → IngestJobPayload)
    (db : Database) (es : List (ι × DeliveryEvent)) :
    EachStep (deliveries worker payload) (fun s _ s' => KeepsTerminal s.1.db s'.1.db)
        (allIdle ι db) es ↔
      EachStep (deliveries worker payload) (fun s ie _ => SameVerdict s.1 (s.2 ie.1) ie.2)
        (allIdle ι db) es := by
  refine @eachStep_congr _ _ _ (fun s => ∀ k, Tracked s.1 (s.2 k)) _ _ ?_ ?_ es _ fun k =>
    tracked_idle
  · exact fun s ie s' h hs hkeep => tracked_deliveries h hs hkeep
  · intro s ie s' h hs
    obtain ⟨store, slot', hstep, rfl⟩ := interleave_eq_some.mp hs
    exact keepsTerminal_iff (h ie.1) (deliveryStep_cases hstep)

end Interleavings

/-- Two workers run the job; one completes it, then the other fails and puts it
    back to `WAITING`. -/
def lateFailure : List (Bool × DeliveryEvent) :=
  [(false, .next manualAttempt), (true, .next fetchFails), (false, .next manualAttempt),
    (false, .next manualAttempt), (false, .next manualAttempt), (true, .next fetchFails)]

theorem terminal_not_absorbing :
    ¬ ∀ es : List (Bool × DeliveryEvent),
      EachStep (deliveries (fun _ => manualPipeline) fun _ => manualPayload)
        (fun s _ s' => KeepsTerminal s.1.db s'.1.db) (allIdle Bool manualDatabase) es := by
  intro hall
  let run := fun es => exec (deliveries (fun _ => manualPipeline) fun _ => manualPayload)
    (allIdle Bool manualDatabase) es
  let status := fun s : Store × (Bool → Slot) => (s.1.db.jobs.get? 1).map IngestJob.status
  have hcompleted : (run lateFailure).map status = some (some .completed) := by decide +kernel
  have hwaiting : (run (lateFailure ++ [(true, .next fetchFails)])).map status =
      some (some .waiting) := by decide +kernel
  obtain ⟨s, hs, hcompleted⟩ := Option.map_eq_some_iff.mp hcompleted
  obtain ⟨s', hs', hwaiting⟩ := Option.map_eq_some_iff.mp hwaiting
  obtain ⟨j, hj, hjs⟩ := Option.map_eq_some_iff.mp hcompleted
  obtain ⟨j', hj', hkept⟩ := (hall _).last hs hs' 1 j hj (by rw [hjs]; trivial)
  rw [show status s' = (s'.1.db.jobs.get? 1).map IngestJob.status from rfl, hj'] at hwaiting
  rw [hjs] at hkept
  simp [hkept] at hwaiting

/-! ## Attempts left -/

section Attempts

variable {p : Pipeline} {payload : IngestJobPayload} {s s' : Store} {slot slot' : Slot}
  {e : DeliveryEvent}

/-- Between two deliveries an open job has an attempt left, so that
    `mark_job_active` does not violate `IngestJob_attempts_lte_maxAttempts_check`. -/
def CanActivate (payload : IngestJobPayload) (c : Store × Slot) : Prop :=
  c.2.phase = .idle → ∀ j, c.1.db.jobs.get? payload.ingestJobId = some j → j.status.Open →
    j.attempts + 1 ≤ j.maxAttempts

/-- If the event cuts the delivery off, the attempt is not the last one. -/
def NotCutInLastAttempt (slot : Slot) (e : DeliveryEvent) : Prop :=
  ∀ ctx, slot.phase.ctx? = some ctx → slot.phase.CutOff e → ctx.attemptNo < ctx.maxAttempts

/-- While a delivery runs, its job is active and counts the attempt. -/
def Counted (payload : IngestJobPayload) (c : Store × Slot) : Prop :=
  ∀ ctx, c.2.phase.ctx? = some ctx → ctx.ingestJobId = payload.ingestJobId ∧
    ∃ j, c.1.db.jobs.get? payload.ingestJobId = some j ∧ j.status = .active ∧
      j.attempts = ctx.attemptNo ∧ j.maxAttempts = ctx.maxAttempts

theorem Counted.step (h : Counted payload (s, slot))
    (hs : DeliveryCase p payload s slot e s' slot') : Counted payload (s', slot') := by
  cases hs with
  | rest idle => exact nofun
  | cut cutOff => exact nofun
  | finish ends => exact nofun
  | stages working done =>
    intro ctx hctx
    exact h ctx (by rw [← hctx, working]; rfl)
  | raise error running notCut noFinish =>
    intro ctx hctx
    exact h ctx (by rw [← hctx, running]; rfl)
  | persist ready commits =>
    intro ctx hctx
    obtain ⟨hid, j, hj, hj'⟩ := h ctx (by rw [← hctx, ready]; rfl)
    exact ⟨hid, j, by rw [(persistTransaction_frame commits).1, hj], hj'⟩
  | activate idle found isOpen activated =>
    intro ctx hctx
    cases hctx
    obtain ⟨hrow, hid⟩ := id_activated found activated
    obtain ⟨-, -, -, hstatus, hattempts, hmax⟩ := activate?_spec activated
    exact ⟨rfl, _, hid ▸ get?_jobs_activated hrow, hstatus, hattempts, hmax⟩

/-- Where a delivery ends, and what it leaves for the next one. -/
theorem canActivate_iff (hcounted : Counted payload (s, slot)) (hcan : CanActivate payload (s, slot))
    (hs : DeliveryCase p payload s slot e s' slot') :
    CanActivate payload (s', slot') ↔ NotCutInLastAttempt slot e := by
  have hnotCut : ¬ slot.phase.CutOff e → NotCutInLastAttempt slot e :=
    fun hnot ctx _ hcut => absurd hcut hnot
  cases hs with
  | rest idle =>
    exact iff_of_true (fun _ => hcan idle) (hnotCut (by simp [idle, Phase.CutOff]))
  | stages working done =>
    exact iff_of_true nofun (hnotCut (by simp [working, Phase.CutOff]))
  | persist ready commits =>
    exact iff_of_true nofun (hnotCut (by simp [ready, Phase.CutOff]))
  | activate idle found isOpen activated =>
    exact iff_of_true nofun (hnotCut (by simp [idle, Phase.CutOff]))
  | raise error running notCut noFinish =>
    exact iff_of_true nofun (hnotCut notCut)
  | @finish a ctx f ends =>
    obtain ⟨hid, j, hj, hstatus, hattempts, hmax⟩ := hcounted ctx (ctx_of_finish ends)
    have hnot : ¬ slot.phase.CutOff (.next a) := by
      intro hcut
      rw [finish?_of_cutOff hcut] at ends
      cases ends
    refine iff_of_true (fun _ i hi hopen => ?_) (hnotCut hnot)
    obtain ⟨j', hj', -, hstatus', hattempts', hmax'⟩ :=
      @get?_jobs_finish p.statusManager ctx a.finishedAt s.db f j (hid ▸ hj)
    rw [hid] at hj'
    cases hj'.symm.trans hi
    rw [hattempts', hmax', hattempts, hmax]
    rw [hstatus'] at hopen
    -- only `mark_retry_waiting` leaves the job open, and it needs an attempt
    exact attempt_left_of_open ends hopen
  | cut cutOff =>
    constructor
    · intro hcan' ctx hctx _
      obtain ⟨hid, j, hj, hstatus, hattempts, hmax⟩ := hcounted ctx hctx
      have := hcan' rfl j hj (Or.inr hstatus)
      omega
    · intro hleft _ j hj _
      obtain ⟨ctx, hctx⟩ := ctx_of_cutOff cutOff
      obtain ⟨hid, j', hj', hstatus, hattempts, hmax⟩ := hcounted ctx hctx
      cases hj'.symm.trans hj
      have := hleft ctx hctx cutOff
      omega

/-- A job that is `ACTIVE` without an attempt left stays so for good: every
    further delivery raises at its activation. -/
theorem active_of_no_attempt_left {j : IngestJob}
    (hj : s.db.jobs.get? payload.ingestJobId = some j) (hattempts : j.attempts = j.maxAttempts)
    (hidle : slot.phase = .idle) (es : List DeliveryEvent) :
    Always (slotStep p payload)
      (fun c => c.2.phase = .idle ∧ c.1.db.jobs.get? payload.ingestJobId = some j) (s, slot) es := by
  refine always_of_inv ?_ es ⟨hidle, hj⟩
  rintro ⟨s, slot⟩ e ⟨s', slot'⟩ ⟨hidle, hj⟩ hs
  cases deliveryStep_cases hs with
  | rest idle => exact ⟨rfl, hj⟩
  | activate idle found isOpen activated =>
    obtain ⟨hrow, -⟩ := findJob_eq_some.mp found
    cases hrow.symm.trans hj
    have := (activate?_spec activated).1
    omega
  | stages working done => cases hidle.symm.trans working
  | raise error running notCut noFinish =>
    rw [ctx_eq_none.mpr hidle] at running
    cases running
  | persist ready commits => cases hidle.symm.trans ready
  | finish ends =>
    have := ctx_of_finish ends
    rw [ctx_eq_none.mpr hidle] at this
    cases this
  | cut cutOff =>
    rw [show slot.phase = .idle from hidle] at cutOff
    cases cutOff

end Attempts

/-- Along the deliveries of one job, an open job can always be activated again
    exactly if no delivery is cut off in its last attempt. -/
theorem activation_possible_iff (p : Pipeline) (payload : IngestJobPayload) (db : Database)
    (hfresh : ∀ j, db.jobs.get? payload.ingestJobId = some j → j.attempts = 0)
    (es : List DeliveryEvent) :
    Always (slotStep p payload) (CanActivate payload) ({ db := db }, {}) es ↔
      EachStep (slotStep p payload) (fun c e _ => NotCutInLastAttempt c.2 e) ({ db := db }, {}) es := by
  refine @always_iff_eachStep _ _ _ (Counted payload) _ _ ?_ ?_ es _ nofun fun _ j hj _ => ?_
  · exact fun c e c' hcounted _ hs _ => hcounted.step (deliveryStep_cases hs)
  · exact fun c e c' hcounted hcan hs => canActivate_iff hcounted hcan (deliveryStep_cases hs)
  · rw [hfresh j hj]
    exact j.maxAttempts_pos

theorem activation_possible_iff_manual :
    Always (slotStep manualPipeline manualPayload) (CanActivate manualPayload)
        ({ db := manualDatabase }, {}) [.next manualAttempt, .crash, .next manualAttempt] ↔
      EachStep (slotStep manualPipeline manualPayload) (fun c e _ => NotCutInLastAttempt c.2 e)
        ({ db := manualDatabase }, {}) [.next manualAttempt, .crash, .next manualAttempt] :=
  activation_possible_iff manualPipeline manualPayload manualDatabase
    (by
      intro j hj
      have hrow : manualDatabase.jobs.get? manualPayload.ingestJobId = some manualJob := by decide
      cases hrow.symm.trans hj
      rfl) _

/-- A worker crashes in each of the three attempts. -/
def threeCrashes : List DeliveryEvent :=
  [.next manualAttempt, .crash, .next manualAttempt, .crash, .next manualAttempt, .crash]

theorem active_for_good :
    ¬ ∀ es : List DeliveryEvent, Always (slotStep manualPipeline manualPayload)
      (CanActivate manualPayload) ({ db := manualDatabase }, {}) es := by
  intro hall
  let row := fun c : Store × Slot => (c.1.db.jobs.get? 1).map fun j =>
    (j.status, j.attempts, j.maxAttempts)
  have hrun : (exec (slotStep manualPipeline manualPayload) ({ db := manualDatabase }, {})
      threeCrashes).map (fun c => (c.2.phase.ctx?, row c)) = some (none, some (.active, 3, 3)) := by
    decide +kernel
  obtain ⟨c, hc, hrow⟩ := Option.map_eq_some_iff.mp hrun
  obtain ⟨hidle, hrow⟩ := Prod.mk.inj hrow
  obtain ⟨j, hj, hjrow⟩ := Option.map_eq_some_iff.mp hrow
  obtain ⟨hactive, hattempts⟩ := Prod.mk.inj hjrow
  obtain ⟨hattempts, hmax⟩ := Prod.mk.inj hattempts
  have := (hall _).final hc (ctx_eq_none.mp hidle) j hj (Or.inr hactive)
  omega

end RagStack.Ingest

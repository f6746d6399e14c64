import RagStack.Ingest.Requests

/-!
# Open jobs of a version

The requests of the API and the deliveries of the workers, step by step in any
order, on one database. No constraint of the database says that a version has
at most one open job; the guards of the two requests do, when they are read.

* `one_open_job_iff`: a version has at most one open job along exactly those runs
  in which every creating transaction commits while its guard would still pass,
  and no late `mark_retry_waiting` opens a job next to an open one.
-/

namespace RagStack.Ingest

open RagStack.Common RagStack.Worker

/-! ## The parties -/

/-- A worker slot with the payload that it is given, or a request to the API. -/
inductive Party
  | worker (pipeline : Pipeline) (payload : IngestJobPayload)
  | request (api : Api) (r : Request)

/-- The local state of a party. -/
inductive Local
  | slot (slot : Slot)
  | request (state : RequestState)

/-- What a step of a party is given. -/
inductive PartyEvent
  | delivery (e : DeliveryEvent)
  | request (io : RequestIO)

/-- One step of a party. -/
def partyStep (party : Party) (s : Store) (l : Local) (e : PartyEvent) : Option (Store × Local) :=
  match party, l, e with
  | .worker p payload, .slot slot, .delivery e =>
    (deliveryStep p payload s slot e).map fun r => (r.1, .slot r.2)
  | .request api r, .request state, .request io =>
    (requestStep api r s.db state io).map fun r => ({ s with db := r.1 }, .request r.2)
  | _, _, _ => none

/-- The local state of a party that has not begun. -/
def Party.start : Party → Local
  | worker _ _ => .slot {}
  | request _ _ => .request .start

/-! ## At most one open job -/

/-- Two open jobs of one version are the same. -/
def OneOpen (db : Database) : Prop :=
  ∀ j ∈ db.jobs.rows, ∀ k ∈ db.jobs.rows, j.documentVersionId = k.documentVersionId →
    j.status.Open → k.status.Open → j = k

theorem oneOpen_iff {db : Database} :
    OneOpen db ↔ ∀ a b j k, db.jobs.get? a = some j → db.jobs.get? b = some k →
      j.documentVersionId = k.documentVersionId → j.status.Open → k.status.Open → a = b := by
  constructor
  · intro h a b j k hj hk hversion hjo hko
    have hjk := h j (Table.mem_of_get? hj) k (Table.mem_of_get? hk) hversion hjo hko
    rw [← Table.key_of_get? hj, ← Table.key_of_get? hk, hjk]
  · intro h j hj k hk hversion hjo hko
    exact db.jobs.eq_of_key_eq hj hk
      (h _ _ j k (db.jobs.get?_of_mem hj) (db.jobs.get?_of_mem hk) hversion hjo hko)

/-- The guard passes exactly if no job of the version is open. -/
theorem activeJob_eq_none {db : Database} {versionId : Id} :
    activeJob db versionId = none ↔
      ∀ a k, db.jobs.get? a = some k → k.documentVersionId = versionId → ¬ k.status.Open := by
  rw [activeJob, List.find?_eq_none]
  constructor
  · intro h a k hk hversion hopen
    exact h k (Table.mem_of_get? hk) (by simp [hversion, hopen])
  · intro h k hk hif
    obtain ⟨hversion, hopen⟩ : k.documentVersionId = versionId ∧ k.status.Open := by simpa using hif
    exact h _ k (db.jobs.get?_of_mem hk) hversion hopen

/-- A statement that writes the row `t` alone: it must not open a job next to
    another open job of the version. -/
theorem oneOpen_write {db db' : Database} {t : Id} {j : IngestJob} (h : OneOpen db)
    (hj : db'.jobs.get? t = some j) (hother : ∀ a ≠ t, db'.jobs.get? a = db.jobs.get? a) :
    OneOpen db' ↔ (j.status.Open → ∀ a ≠ t, ∀ k, db.jobs.get? a = some k →
      k.documentVersionId = j.documentVersionId → ¬ k.status.Open) := by
  rw [oneOpen_iff] at h ⊢
  constructor
  · intro h' hopen a ha k hk hversion hko
    exact ha (h' a t k j (by rw [hother a ha, hk]) hj hversion hko hopen)
  · intro hwrite a b i k hi hk hversion hio hko
    by_cases ha : a = t
    · by_cases hb : b = t
      · rw [ha, hb]
      · rw [ha, hj] at hi
        cases hi
        rw [hother b hb] at hk
        exact absurd hko (hwrite hio b hb k hk hversion.symm)
    · rw [hother a ha] at hi
      by_cases hb : b = t
      · rw [hb, hj] at hk
        cases hk
        exact absurd hio (hwrite hko a ha i hi hversion)
      · rw [hother b hb] at hk
        exact h a b i k hi hk hversion hio hko

/-! ## The condition -/

/-- A creating transaction that commits with this step does so while its guard
    would still pass, and a `mark_retry_waiting` that commits on a terminal job
    does so while no other job of the version is open. -/
def GuardHolds (party : Party) (db : Database) (l : Local) (e : PartyEvent) : Prop :=
  match party, l, e with
  | .worker _ _, .slot slot, .delivery e =>
    ∀ ctx error, slot.phase.finish? e = some (ctx, .retryWaiting error) →
      ∀ j, db.jobs.get? ctx.ingestJobId = some j → j.status.Terminal →
        activeJob db j.documentVersionId = none
  | .request api r, .request (.passed target), .request io =>
    (target.create api r io db).isSome → activeJob db target.version.id = none
  | _, _, _ => True

section Steps

variable {p : Pipeline} {payload : IngestJobPayload} {s s' : Store} {slot slot' : Slot}
  {e : DeliveryEvent}

theorem open_jobStatus {f : Finish} : f.jobStatus.Open ↔ ∃ error, f = .retryWaiting error := by
  cases f with
  | retryWaiting error => simp [Finish.jobStatus, IngestJobStatus.Open]
  | failure error deadLetter =>
    cases deadLetter <;> simp [Finish.jobStatus, IngestJobStatus.Open]
  | success n => simp [Finish.jobStatus, IngestJobStatus.Open]

/-- A transaction that ends a delivery opens no second job, exactly if a retry
    does not open a terminal job next to an open one. -/
theorem oneOpen_finish_iff {sm : StatusManager} {ctx : JobContext} {f : Finish} {now : Time}
    {db : Database} (h : OneOpen db) :
    OneOpen (sm.finish ctx f now db) ↔ ∀ error, f = .retryWaiting error →
      ∀ j, db.jobs.get? ctx.ingestJobId = some j → j.status.Terminal →
        activeJob db j.documentVersionId = none := by
  cases hj : db.jobs.get? ctx.ingestJobId with
  | none =>
    -- no row is written
    refine iff_of_true ?_ fun error _ j hj' => by cases hj'
    have hsame : ∀ a, (sm.finish ctx f now db).jobs.get? a = db.jobs.get? a := by
      intro a
      by_cases ha : a = ctx.ingestJobId
      · obtain ⟨g, hg, hjobs, -⟩ := jobs_finish sm ctx f now db
        rw [hjobs, ha, Table.get?_update_self, hj]
        rfl
      · exact get?_jobs_finish_of_ne f ha
    rw [oneOpen_iff] at h ⊢
    simpa only [hsame] using h
  | some j =>
    obtain ⟨j', hj', hversion, hstatus, -⟩ := @get?_jobs_finish sm ctx now db f j hj
    rw [oneOpen_write h hj' fun a ha => get?_jobs_finish_of_ne f ha, hstatus, hversion,
      open_jobStatus]
    constructor
    · rintro hwrite error rfl i hi hterm
      cases hi
      rw [activeJob_eq_none]
      intro a k hk hkv
      by_cases ha : a = ctx.ingestJobId
      · rw [ha, hj] at hk
        cases hk
        exact fun hopen => IngestJobStatus.not_terminal_iff.mpr hopen hterm
      · exact hwrite ⟨error, rfl⟩ a ha k hk hkv
    · rintro hguard ⟨error, rfl⟩ a ha k hk hkv hko
      by_cases hterm : j.status.Terminal
      · exact activeJob_eq_none.mp (hguard error rfl j rfl hterm) a k hk hkv hko
      · exact ha (oneOpen_iff.mp h a _ k j hk hj hkv hko (IngestJobStatus.not_terminal_iff.mp hterm))

theorem oneOpen_delivery_iff {pipeline : Pipeline} (h : OneOpen s.db)
    (hs : DeliveryCase p payload s slot e s' slot') :
    OneOpen s'.db ↔ GuardHolds (.worker pipeline payload) s.db (.slot slot) (.delivery e) := by
  have hquiet : slot.phase.finish? e = none →
      GuardHolds (.worker pipeline payload) s.db (.slot slot) (.delivery e) := by
    intro hnone ctx error hf
    rw [hnone] at hf
    cases hf
  cases hs with
  | rest idle => exact iff_of_true h (hquiet (by rw [idle]; rfl))
  | stages working done => exact iff_of_true h (hquiet (by rw [working]; rfl))
  | raise error running notCut noFinish => exact iff_of_true h (hquiet noFinish)
  | cut cutOff => exact iff_of_true h (hquiet (finish?_of_cutOff cutOff))
  | persist ready commits =>
    refine iff_of_true ?_ (hquiet (by rw [ready]; rfl))
    simpa only [OneOpen, (persistTransaction_frame commits).1] using h
  | @activate a job job' document idle found isOpen activated =>
    -- the job that becomes `ACTIVE` was open
    obtain ⟨hrow, -⟩ := id_activated found activated
    refine iff_of_true ?_ (hquiet (by rw [idle]; rfl))
    refine (oneOpen_write h (get?_jobs_activated hrow) fun a ha =>
      get?_jobs_activated_of_ne ha).mpr fun _ a ha k hk hkv hko => ?_
    rw [(activate?_spec activated).2.2.1] at hkv
    exact ha (oneOpen_iff.mp h a _ k job hk hrow hkv hko isOpen)
  | @finish a ctx f ends =>
    rw [oneOpen_finish_iff h]
    constructor
    · intro hguard ctx' error hf
      rw [ends] at hf
      cases hf
      exact hguard error rfl
    · rintro hguard error rfl
      exact hguard ctx error ends

/-- A creating transaction opens no second job exactly if its guard still passes. -/
theorem oneOpen_create_iff {api : Api} {r : Request} {io : RequestIO} {db db' : Database}
    {target : Target} {refreshed : Refreshed} (h : OneOpen db)
    (hc : target.create api r io db = some (db', refreshed)) :
    OneOpen db' ↔ activeJob db target.version.id = none := by
  obtain ⟨document, version, jobs, -, -, rfl, hinsert, rfl⟩ := createJob_eq_some (create_eq_some hc)
  have hfree := Table.get?_eq_none_of_insert? hinsert
  have hget := Table.get?_insert? hinsert
  rw [oneOpen_write h (by rw [hget, if_pos rfl]) fun a ha => by rw [hget, if_neg ha],
    activeJob_eq_none]
  constructor
  · intro hwrite a k hk hversion
    refine hwrite (Or.inl rfl) a ?_ k hk hversion
    rintro rfl
    rw [hfree] at hk
    cases hk
  · exact fun hguard _ a _ k hk hversion => hguard a k hk hversion

theorem oneOpen_request_iff {api : Api} {r : Request} {io : RequestIO} {db db' : Database}
    {state state' : RequestState} (h : OneOpen db)
    (hs : RequestCase api r db state io db' state') :
    OneOpen db' ↔ GuardHolds (.request api r) db (.request state) (.request io) := by
  cases hs with
  | quiet notCreating =>
    apply iff_of_true h
    unfold GuardHolds
    split
    · rename_i heq _
      cases heq
    · rename_i target _ heq hstate hio
      cases heq
      cases hstate
      cases hio
      simp [notCreating target rfl]
    · trivial
  | create passed commits =>
    subst passed
    simp only [GuardHolds, commits, Option.isSome_some, true_imp_iff]
    exact oneOpen_create_iff h commits
  | enqueueFailure failed commits =>
    subst failed
    obtain ⟨⟨job, -, job', hjob', hstatus⟩, hother, -⟩ := markQueueEnqueueFailure_eq_some commits
    refine iff_of_true ((oneOpen_write h hjob' hother).mpr fun hopen => ?_) trivial
    rw [hstatus] at hopen
    simp [IngestJobStatus.Open] at hopen

end Steps

/-! ## Runs -/

section Runs

variable {ι : Type} [DecidableEq ι]

/-- The parties `i : ι` on one database. -/
def parties (party : ι → Party) :
    Store × (ι → Local) → ι × PartyEvent → Option (Store × (ι → Local)) :=
  interleave fun i => partyStep (party i)

/-- No party has begun. -/
def notBegun (party : ι → Party) (db : Database) : Store × (ι → Local) :=
  ({ db := db }, fun i => (party i).start)

/-- Every version has at most one open job along exactly those runs in which the
    guards still hold when the transactions commit. -/
theorem one_open_job_iff (party : ι → Party) {db : Database} (h : OneOpen db)
    (es : List (ι × PartyEvent)) :
    Always (parties party) (fun s => OneOpen s.1.db) (notBegun party db) es ↔
      EachStep (parties party) (fun s ie _ => GuardHolds (party ie.1) s.1.db (s.2 ie.1) ie.2)
        (notBegun party db) es := by
  refine @always_iff_eachStep _ _ _ (fun _ => True) _ _ (fun _ _ _ _ _ _ _ => trivial) ?_ es _
    trivial h
  intro s ie s' _ hopen hs
  obtain ⟨store, l, hstep, rfl⟩ := interleave_eq_some.mp hs
  unfold partyStep at hstep
  split at hstep
  · rename_i p payload slot e hparty hlocal hevent
    obtain ⟨⟨store, slot'⟩, hdelivery, heq⟩ := Option.map_eq_some_iff.mp hstep
    cases heq
    rw [hparty, hlocal, hevent]
    exact oneOpen_delivery_iff hopen (deliveryStep_cases hdelivery)
  · rename_i api r state io hparty hlocal hevent
    obtain ⟨⟨db', state'⟩, hrequest, heq⟩ := Option.map_eq_some_iff.mp hstep
    cases heq
    rw [hparty, hlocal, hevent]
    exact oneOpen_request_iff hopen (requestStep_cases hrequest)
  · cases hstep

end Runs

/-! ## Two requests at a time -/

/-- `manualDatabase` after its document has been indexed. -/
def indexedDatabase : Database :=
  (manualPipeline.process manualPayload manualAttempt manualDatabase).1

/-- Two users reindex the document. -/
def twoReindexes (_ : Bool) : Party :=
  .request { openAiEmbeddingsAvailable := false, ingestMaxAttempts := none, s3Bucket := "documents" }
    (.reindexDocument 1 none)

/-- Both requests read and pass the guard before either creates its job. -/
def checkCheckCreateCreate : List (Bool × PartyEvent) :=
  [(false, .request {}), (true, .request {}), (false, .request {}), (true, .request {}),
    (false, .request { newJobId := 2 }), (true, .request { newJobId := 3 })]

theorem indexedDatabase_oneOpen : OneOpen indexedDatabase := by
  intro j hj k _ _ hjo _
  have hall : ∀ i ∈ indexedDatabase.jobs.rows, ¬ i.status.Open := by decide +kernel
  exact absurd hjo (hall j hj)

theorem one_open_job_iff_twoReindexes :
    Always (parties twoReindexes) (fun s => OneOpen s.1.db)
        (notBegun twoReindexes indexedDatabase) checkCheckCreateCreate ↔
      EachStep (parties twoReindexes)
        (fun s ie _ => GuardHolds (twoReindexes ie.1) s.1.db (s.2 ie.1) ie.2)
        (notBegun twoReindexes indexedDatabase) checkCheckCreateCreate :=
  one_open_job_iff twoReindexes indexedDatabase_oneOpen checkCheckCreateCreate

/-- The version has two jobs that wait. -/
theorem two_open_jobs :
    ¬ ∀ es, Always (parties twoReindexes) (fun s => OneOpen s.1.db)
      (notBegun twoReindexes indexedDatabase) es := by
  intro hall
  let row := fun s : Store × (Bool → Local) =>
    ((s.1.db.jobs.get? 2).map fun j => (j.documentVersionId, j.status),
      (s.1.db.jobs.get? 3).map fun j => (j.documentVersionId, j.status))
  have hrun : (exec (parties twoReindexes) (notBegun twoReindexes indexedDatabase)
      checkCheckCreateCreate).map row = some (some (1, .waiting), some (1, .waiting)) := by
    decide +kernel
  obtain ⟨s, hs, hrow⟩ := Option.map_eq_some_iff.mp hrun
  obtain ⟨hj, hk⟩ := Prod.mk.inj hrow
  obtain ⟨j, hj, hjrow⟩ := Option.map_eq_some_iff.mp hj
  obtain ⟨k, hk, hkrow⟩ := Option.map_eq_some_iff.mp hk
  obtain ⟨hjv, hjs⟩ := Prod.mk.inj hjrow
  obtain ⟨hkv, hks⟩ := Prod.mk.inj hkrow
  have hopen := oneOpen_iff.mp ((hall checkCheckCreateCreate).final hs)
  exact absurd (hopen 2 3 j k hj hk (by rw [hjv, hkv]) (Or.inl hjs) (Or.inl hks)) (by decide)

end RagStack.Ingest

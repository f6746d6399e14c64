import RagStack.Ingest.Deliveries

/-!
# What an indexed version says of its chunks

`persist_chunks` and `mark_success` are two transactions, and neither looks at
what the other runs of the version have committed.

* `chunkCount_right_iff`: the chunk count of every `INDEXED` version is the
  number of its active chunks, numbered from one, along exactly those runs in
  which the commits of a version come in order: after a `mark_success` no late
  `persist_chunks` writes another number of chunks, and a `mark_success` reports
  what the last `persist_chunks` has written.
-/

namespace RagStack.Ingest

open RagStack.Common RagStack.Worker RagStack.Chunking

/-- If the version is `INDEXED`, its `chunkCount` is the number of its active
    chunks, and these are numbered `1, …, chunkCount`. -/
def WellCounted (db : Database) (w : Id) : Prop :=
  ∀ v, db.versions.get? w = some v → v.status = .indexed →
    v.chunkCount = (db.activeChunks w).length ∧
      ((db.activeChunks w).map DocumentChunk.chunkNo).Perm (List.range' 1 v.chunkCount)

/-! ## The order of the commits -/

/-- What a commit writes to the status of version `w`: `some n` stands for
    `INDEXED` with `n` chunks, `none` for another status. -/
def Commit.indexed? (w : Id) : Commit → Option (Option ℕ)
  | .activate _ v => if v = w then some none else none
  | .persist _ _ => none
  | .finish _ v f => if v = w then some f.chunkCount? else none

/-- How many chunks a commit writes for version `w`. -/
def Commit.persisted? (w : Id) : Commit → Option ℕ
  | .persist v n => if v = w then some n else none
  | _ => none

/-- What the last commit that wrote the status of `w` has written. -/
def lastIndexed (log : List Commit) (w : Id) : Option (Option ℕ) :=
  (log.filterMap (Commit.indexed? w)).getLast?

/-- How many chunks the last `persist_chunks` on `w` has written. -/
def lastPersisted (log : List Commit) (w : Id) : Option ℕ :=
  (log.filterMap (Commit.persisted? w)).getLast?

/-- The commit may come after those of the log: `persist_chunks` on a version
    that a `mark_success` was the last to write keeps the number of chunks, and
    `mark_success` reports the number that the last `persist_chunks` has written. -/
def InOrder (log : List Commit) : Commit → Prop
  | .activate _ _ => True
  | .persist w n => ∀ m, lastIndexed log w = some (some m) → m = n
  | .finish _ w f => ∀ n, f.chunkCount? = some n → lastPersisted log w = some n

theorem lastIndexed_snoc (log : List Commit) (c : Commit) (w : Id) :
    lastIndexed (log ++ [c]) w = (c.indexed? w).or (lastIndexed log w) := by
  rw [lastIndexed, lastIndexed, List.filterMap_append, List.getLast?_append]
  cases hc : c.indexed? w <;> simp [hc]

theorem lastPersisted_snoc (log : List Commit) (c : Commit) (w : Id) :
    lastPersisted (log ++ [c]) w = (c.persisted? w).or (lastPersisted log w) := by
  rw [lastPersisted, lastPersisted, List.filterMap_append, List.getLast?_append]
  cases hc : c.persisted? w <;> simp [hc]

/-! ## What the log says of the database -/

/-- The log describes version `w`. -/
structure Described (s : Store) (w : Id) : Prop where
  status : ∀ v n?, s.db.versions.get? w = some v → lastIndexed s.log w = some n? →
    (v.status = .indexed ↔ n?.isSome) ∧ ∀ n, n? = some n → v.chunkCount = n
  chunks : ∀ n, lastPersisted s.log w = some n →
    (s.db.activeChunks w).map DocumentChunk.chunkNo = List.range' 1 n

/-- What a running delivery has committed. -/
structure Prepared (s : Store) (slot : Slot) : Prop where
  version : ∀ ctx, slot.phase.ctx? = some ctx →
    (s.db.versions.get? ctx.documentVersionId).isSome ∧
      (lastIndexed s.log ctx.documentVersionId).isSome
  chunks : ∀ ctx chunks, slot.phase = .ready ctx chunks → Numbered chunks
  persisted : ∀ ctx n, slot.phase = .persisted ctx n →
    (lastPersisted s.log ctx.documentVersionId).isSome

section Steps

variable {p : Pipeline} {payload : IngestJobPayload} {s s' : Store} {slot slot' other : Slot}
  {e : DeliveryEvent}

theorem described_start (db : Database) (w : Id) : Described { db := db } w := by
  constructor
  · intro v n? _ h
    simp [lastIndexed] at h
  · intro n h
    simp [lastPersisted] at h

theorem prepared_idle {started : ℕ} : Prepared s { phase := .idle, started := started } :=
  ⟨nofun, nofun, nofun⟩

/-- Version rows stay. -/
theorem isSome_versions_step (hs : DeliveryCase p payload s slot e s' slot') {w : Id}
    (h : (s.db.versions.get? w).isSome) : (s'.db.versions.get? w).isSome := by
  obtain ⟨v, hv⟩ := Option.isSome_iff_exists.mp h
  cases hs with
  | rest idle => exact h
  | cut cutOff => exact h
  | stages working done => exact h
  | raise error running notCut noFinish => exact h
  | persist ready commits => rwa [(persistTransaction_frame commits).2.1]
  | activate idle found isOpen activated =>
    simp only [get?_versions_activated hv]
    split_ifs <;> rfl
  | @finish a ctx f ends =>
    by_cases hw : w = ctx.documentVersionId
    · subst hw
      obtain ⟨v', hv', -⟩ := @get?_versions_finish p.statusManager ctx a.finishedAt s.db f v hv
      simp only [hv', Option.isSome_some]
    · simpa only [get?_versions_finish_of_ne f hw] using h

/-- The log only grows. -/
theorem log_step (hs : DeliveryCase p payload s slot e s' slot') :
    s'.log = s.log ∨ ∃ c, s'.log = s.log ++ [c] := by
  cases hs with
  | rest idle => exact Or.inl rfl
  | cut cutOff => exact Or.inl rfl
  | stages working done => exact Or.inl rfl
  | raise error running notCut noFinish => exact Or.inl rfl
  | persist ready commits => exact Or.inr ⟨_, rfl⟩
  | activate idle found isOpen activated => exact Or.inr ⟨_, rfl⟩
  | finish ends => exact Or.inr ⟨_, rfl⟩

/-- Step lemma for a delivery that does not take the step. -/
theorem Prepared.step (h : Prepared s other) (hs : DeliveryCase p payload s slot e s' slot') :
    Prepared s' other := by
  have hindexed : ∀ w, (lastIndexed s.log w).isSome → (lastIndexed s'.log w).isSome := by
    intro w hw
    rcases log_step hs with hlog | ⟨c, hlog⟩
    · rwa [hlog]
    · rw [hlog, lastIndexed_snoc]
      cases c.indexed? w <;> simp [hw]
  have hpersisted : ∀ w, (lastPersisted s.log w).isSome → (lastPersisted s'.log w).isSome := by
    intro w hw
    rcases log_step hs with hlog | ⟨c, hlog⟩
    · rwa [hlog]
    · rw [hlog, lastPersisted_snoc]
      cases c.persisted? w <;> simp [hw]
  exact ⟨fun ctx hctx => ⟨isSome_versions_step hs (h.version ctx hctx).1,
    hindexed _ (h.version ctx hctx).2⟩, h.chunks,
    fun ctx n hn => hpersisted _ (h.persisted ctx n hn)⟩

/-- Step lemma for the delivery that takes the step. -/
theorem Prepared.own (h : Prepared s slot)
    (hversion : (s.db.versions.get? payload.documentVersionId).isSome)
    (hs : DeliveryCase p payload s slot e s' slot') : Prepared s' slot' := by
  have hstep := h.step hs
  have hrow := isSome_versions_step hs hversion
  cases hs with
  | rest idle => exact prepared_idle
  | cut cutOff => exact prepared_idle
  | finish ends => exact prepared_idle
  | stages working done =>
    refine ⟨fun ctx hctx => h.version ctx (by rw [← hctx, working]; rfl), ?_, nofun⟩
    intro ctx chunks hready
    cases hready
    exact numbered_runStages done
  | raise error running notCut noFinish =>
    exact ⟨fun ctx hctx => h.version ctx (by rw [← hctx, running]; rfl), nofun, nofun⟩
  | persist ready commits =>
    refine ⟨fun ctx hctx => hstep.version ctx (by rw [← hctx, ready]; rfl), nofun, ?_⟩
    intro ctx n hpersisted
    cases hpersisted
    simp [lastPersisted_snoc, Commit.persisted?]
  | activate idle found isOpen activated =>
    refine ⟨fun ctx hctx => ?_, nofun, nofun⟩
    cases hctx
    exact ⟨hrow, by simp [lastIndexed_snoc, Commit.indexed?, IngestJobPayload.context]⟩

/-- The activation is logged as it is written. -/
theorem Described.activate {w : Id} (h : Described s w) (job' : IngestJob) (now : Time) :
    Described
      { db := p.statusManager.activated payload job' now s.db
        log := s.log ++ [.activate payload.ingestJobId payload.documentVersionId] } w := by
  refine ⟨fun v n? hv hlast => ?_, fun n hlast => ?_⟩
  · cases hrow : s.db.versions.get? w with
    | none =>
      rw [StatusManager.activated, Table.get?_update, hrow] at hv
      simp at hv
    | some v₀ =>
      rw [get?_versions_activated hrow] at hv
      rw [lastIndexed_snoc] at hlast
      split_ifs at hv with hw
      · cases hv
        have hn : n? = none := by simpa [Commit.indexed?, hw, eq_comm] using hlast
        subst hn
        simp [StatusManager.activateVersion]
      · cases hv
        exact h.status _ n? hrow (by simpa [Commit.indexed?, Ne.symm hw] using hlast)
  · rw [lastPersisted_snoc] at hlast
    exact h.chunks n hlast

/-- So is `persist_chunks`. -/
theorem Described.persist {w : Id} {a : Attempt} {ctx : JobContext} {chunks : List ChunkRecord}
    {persisted : Database} (h : Described s w) (hnumbered : Numbered chunks)
    (commits : p.indexer.persistTransaction ctx chunks a.newId a.persistedAt s.db =
      some persisted) :
    Described
      { db := persisted, log := s.log ++ [.persist ctx.documentVersionId chunks.length] } w := by
  have hversions := (persistTransaction_frame commits).2.1
  refine ⟨fun v n? hv hlast => ?_, fun n hlast => ?_⟩
  · rw [lastIndexed_snoc] at hlast
    exact h.status v n? (by rw [← hversions, hv]) hlast
  · rw [lastPersisted_snoc] at hlast
    by_cases hw : ctx.documentVersionId = w
    · have hn : chunks.length = n := by simpa [Commit.persisted?, hw] using hlast
      rw [← hn, ← hw, chunkNos_of_forall₂ (activeChunks_persistTransaction commits)]
      exact hnumbered
    · rw [activeChunks_persistTransaction_of_ne commits (Ne.symm hw)]
      exact h.chunks n (by simpa [Commit.persisted?, hw] using hlast)

/-- And the end of an attempt. -/
theorem Described.finish {w : Id} {ctx : JobContext} (h : Described s w)
    (hrow : (s.db.versions.get? ctx.documentVersionId).isSome) (f : Finish) (now : Time) :
    Described
      { db := p.statusManager.finish ctx f now s.db
        log := s.log ++ [.finish ctx.ingestJobId ctx.documentVersionId f] } w := by
  refine ⟨fun v n? hv hlast => ?_, fun n hlast => ?_⟩
  · rw [lastIndexed_snoc] at hlast
    by_cases hw : w = ctx.documentVersionId
    · subst hw
      obtain ⟨v₀, hrow⟩ := Option.isSome_iff_exists.mp hrow
      obtain ⟨v', hv', hstatus, hcount⟩ :=
        @get?_versions_finish p.statusManager ctx now s.db f v₀ hrow
      cases hv'.symm.trans hv
      have hn : f.chunkCount? = n? := by simpa [Commit.indexed?] using hlast
      rw [← hn, hstatus, hcount]
      refine ⟨versionStatus_eq_indexed, fun n hn => by rw [hn]; rfl⟩
    · rw [get?_versions_finish_of_ne f hw] at hv
      exact h.status v n? hv (by simpa [Commit.indexed?, Ne.symm hw] using hlast)
  · rw [lastPersisted_snoc] at hlast
    rw [activeChunks_finish]
    exact h.chunks n hlast

/-- Step lemma for the log. -/
theorem Described.step {w : Id} (h : Described s w) (hprepared : Prepared s slot)
    (hs : DeliveryCase p payload s slot e s' slot') : Described s' w := by
  cases hs with
  | rest idle => exact h
  | cut cutOff => exact h
  | stages working done => exact h
  | raise error running notCut noFinish => exact h
  | activate idle found isOpen activated => exact h.activate _ _
  | persist ready commits => exact h.persist (hprepared.chunks _ _ ready) commits
  | finish ends => exact h.finish (hprepared.version _ (ctx_of_finish ends)).1 _ _

theorem persisted_of_finish {phase : Phase} {ctx : JobContext} {f : Finish} {n : ℕ}
    (h : phase.finish? e = some (ctx, f)) (hf : f.chunkCount? = some n) :
    phase = .persisted ctx n := by
  unfold Phase.finish? at h
  split at h
  · split_ifs at h
    cases h
    cases hf
    rfl
  · split_ifs at h
    cases h
    unfold failureFinish at hf
    simp only at hf
    split_ifs at hf
    all_goals cases hf
  · cases h

theorem WellCounted.congr {db db' : Database} {w : Id} (h : WellCounted db w)
    (hversion : db'.versions.get? w = db.versions.get? w)
    (hchunks : db'.activeChunks w = db.activeChunks w) : WellCounted db' w := by
  unfold WellCounted
  rw [hversion, hchunks]
  exact h

/-- A version with `n` numbered active chunks is well counted exactly if it is
    not `INDEXED` or its chunk count is `n`. -/
theorem wellCounted_iff_of_numbered {db : Database} {w : Id} {v : DocumentVersion} {n : ℕ}
    (hv : db.versions.get? w = some v)
    (hchunks : (db.activeChunks w).map DocumentChunk.chunkNo = List.range' 1 n) :
    WellCounted db w ↔ (v.status = .indexed → v.chunkCount = n) := by
  have hlength : (db.activeChunks w).length = n := by
    have := congrArg List.length hchunks
    simpa using this
  constructor
  · intro h hindexed
    rw [(h v hv hindexed).1, hlength]
  · intro h v' hv' hindexed
    cases hv.symm.trans hv'
    have hcount := h hindexed
    exact ⟨by rw [hcount, hlength], by rw [hchunks, hcount]⟩

/-- A write to one version keeps the counts right exactly if it keeps its own right. -/
theorem forall_wellCounted_iff {db : Database} {w : Id}
    (hother : ∀ w' ≠ w, WellCounted db w') : (∀ w', WellCounted db w') ↔ WellCounted db w := by
  constructor
  · exact fun h => h w
  · intro h w'
    by_cases hw : w' = w
    · rw [hw]
      exact h
    · exact hother w' hw

/-- After the activation its version is not `INDEXED`. -/
theorem wellCounted_activated (hcounts : ∀ w, WellCounted s.db w) (job' : IngestJob) (now : Time)
    (w : Id) : WellCounted (p.statusManager.activated payload job' now s.db) w := by
  intro v hv hindexed
  cases hrow : s.db.versions.get? w with
  | none =>
    rw [StatusManager.activated, Table.get?_update, hrow] at hv
    simp at hv
  | some v₀ =>
    rw [get?_versions_activated hrow] at hv
    split_ifs at hv with hw
    · cases hv
      cases hindexed
    · cases hv
      exact hcounts w v hrow hindexed

/-- `persist_chunks` keeps the counts right exactly if it comes in order: the version is
    `INDEXED` exactly if a `mark_success` was the last to write it. -/
theorem wellCounted_persist_iff {a : Attempt} {ctx : JobContext} {chunks : List ChunkRecord}
    {persisted : Database} (hdescribed : ∀ w, Described s w) (hprepared : Prepared s slot)
    (hcounts : ∀ w, WellCounted s.db w) (ready : slot.phase = .ready ctx chunks)
    (commits : p.indexer.persistTransaction ctx chunks a.newId a.persistedAt s.db =
      some persisted) :
    (∀ w, WellCounted persisted w) ↔
      InOrder s.log (.persist ctx.documentVersionId chunks.length) := by
  have hversions := (persistTransaction_frame commits).2.1
  have hother : ∀ w ≠ ctx.documentVersionId, WellCounted persisted w := fun w hw =>
    (hcounts w).congr (by rw [hversions]) (activeChunks_persistTransaction_of_ne commits hw)
  obtain ⟨hrow, hlast⟩ := hprepared.version ctx (by rw [ready]; rfl)
  obtain ⟨v, hv⟩ := Option.isSome_iff_exists.mp hrow
  obtain ⟨m?, hm⟩ := Option.isSome_iff_exists.mp hlast
  obtain ⟨hstatus, hcount⟩ := (hdescribed _).status v m? hv hm
  have hnew : (persisted.activeChunks ctx.documentVersionId).map DocumentChunk.chunkNo =
      List.range' 1 chunks.length := by
    rw [chunkNos_of_forall₂ (activeChunks_persistTransaction commits)]
    exact hprepared.chunks ctx chunks ready
  have horder : InOrder s.log (.persist ctx.documentVersionId chunks.length) ↔
      (v.status = .indexed → v.chunkCount = chunks.length) := by
    rw [hstatus]
    cases m? with
    | none => simp [InOrder, hm]
    | some m => simp [InOrder, hm, hcount m rfl]
  rw [forall_wellCounted_iff hother, horder]
  exact wellCounted_iff_of_numbered (hversions ▸ hv) hnew

/-- The end of an attempt keeps the counts right exactly if it comes in order: the count
    that `mark_success` reports is that of the last `persist_chunks`. -/
theorem wellCounted_finish_iff {a : Attempt} {ctx : JobContext} {f : Finish}
    (hdescribed : ∀ w, Described s w) (hprepared : Prepared s slot)
    (hcounts : ∀ w, WellCounted s.db w) (ends : slot.phase.finish? (.next a) = some (ctx, f)) :
    (∀ w, WellCounted (p.statusManager.finish ctx f a.finishedAt s.db) w) ↔
      InOrder s.log (.finish ctx.ingestJobId ctx.documentVersionId f) := by
  have hother : ∀ w ≠ ctx.documentVersionId,
      WellCounted (p.statusManager.finish ctx f a.finishedAt s.db) w := fun w hw =>
    (hcounts w).congr (get?_versions_finish_of_ne f hw) (activeChunks_finish _ _ _ _)
  obtain ⟨v₀, hrow⟩ := Option.isSome_iff_exists.mp (hprepared.version ctx (ctx_of_finish ends)).1
  obtain ⟨v, hv, hstatus, hcount⟩ :=
    @get?_versions_finish p.statusManager ctx a.finishedAt s.db f v₀ hrow
  rw [forall_wellCounted_iff hother]
  cases hf : f.chunkCount? with
  | none =>
    -- the version is not `INDEXED` afterwards
    refine iff_of_true (fun v' hv' hindexed => ?_) (fun n hn => ?_)
    · cases hv.symm.trans hv'
      rw [hstatus, versionStatus_eq_indexed, hf] at hindexed
      cases hindexed
    · rw [hf] at hn
      cases hn
  | some n =>
    have hphase := persisted_of_finish ends hf
    obtain ⟨m, hm⟩ := Option.isSome_iff_exists.mp (hprepared.persisted ctx n hphase)
    have hchunks := (hdescribed ctx.documentVersionId).chunks m hm
    rw [← activeChunks_finish p.statusManager f a.finishedAt] at hchunks
    have hindexed : v.status = .indexed := by
      rw [hstatus, versionStatus_eq_indexed, hf]
      rfl
    have horder : InOrder s.log (.finish ctx.ingestJobId ctx.documentVersionId f) ↔
        (v.status = .indexed → v.chunkCount = m) := by
      rw [hcount, hf]
      simp [InOrder, hf, hm, hindexed, eq_comm]
    rw [horder]
    exact wellCounted_iff_of_numbered hv hchunks

/-- A step keeps the counts right exactly if its commit comes in order. -/
theorem wellCounted_iff (hdescribed : ∀ w, Described s w) (hprepared : Prepared s slot)
    (hcounts : ∀ w, WellCounted s.db w) (hs : DeliveryCase p payload s slot e s' slot') :
    (∀ w, WellCounted s'.db w) ↔ ∀ c, s'.log = s.log ++ [c] → InOrder s.log c := by
  have hquiet : (∀ w, WellCounted s.db w) ↔ ∀ c, s.log = s.log ++ [c] → InOrder s.log c :=
    iff_of_true hcounts fun c hc => by simp at hc
  have hcommit : ∀ c, (∀ c', s.log ++ [c] = s.log ++ [c'] → InOrder s.log c') ↔ InOrder s.log c :=
    fun c => ⟨fun h => h c rfl, fun h c' hc => by
      rw [List.append_cancel_left_eq, List.cons.injEq] at hc
      rwa [← hc.1]⟩
  cases hs with
  | rest idle => exact hquiet
  | cut cutOff => exact hquiet
  | stages working done => exact hquiet
  | raise error running notCut noFinish => exact hquiet
  | @activate a job job' document idle found isOpen activated =>
    rw [hcommit]
    exact iff_of_true (wellCounted_activated hcounts job' a.startedAt) trivial
  | persist ready commits =>
    rw [hcommit]
    exact wellCounted_persist_iff hdescribed hprepared hcounts ready commits
  | finish ends =>
    rw [hcommit]
    exact wellCounted_finish_iff hdescribed hprepared hcounts ends

end Steps

/-! ## Runs -/

section Runs

variable {ι : Type} [DecidableEq ι]

/-- The chunk count of every `INDEXED` version is right along exactly those runs
    in which the commits of each version come in order. -/
theorem chunkCount_right_iff (worker : ι → Pipeline) (payload : ι → IngestJobPayload)
    (db : Database) (hcounts : ∀ w, WellCounted db w)
    (hversions : ∀ i, (db.versions.get? (payload i).documentVersionId).isSome)
    (es : List (ι × DeliveryEvent)) :
    Always (deliveries worker payload) (fun s => ∀ w, WellCounted s.1.db w) (allIdle ι db) es ↔
      EachStep (deliveries worker payload)
        (fun s _ s' => ∀ c, s'.1.log = s.1.log ++ [c] → InOrder s.1.log c) (allIdle ι db) es := by
  let I : Store × (ι → Slot) → Prop := fun s =>
    (∀ i, (s.1.db.versions.get? (payload i).documentVersionId).isSome) ∧
      (∀ w, Described s.1 w) ∧ ∀ k, Prepared s.1 (s.2 k)
  have hstart : I (allIdle ι db) := ⟨hversions, described_start db, fun k => prepared_idle⟩
  refine @always_iff_eachStep _ _ _ I _ _ ?_ ?_ es _ hstart hcounts
  · rintro s ie s' ⟨hrows, hdescribed, hprepared⟩ - hs -
    obtain ⟨store, slot', hstep, rfl⟩ := interleave_eq_some.mp hs
    have hcase := deliveryStep_cases hstep
    refine ⟨fun i => isSome_versions_step hcase (hrows i),
      fun w => (hdescribed w).step (hprepared _) hcase, ?_⟩
    apply interleave_inv hs (J := fun _ slot => Prepared store slot)
    · intro slot' hstep
      exact (hprepared ie.1).own (hrows ie.1) (deliveryStep_cases hstep)
    · intro slot' hstep k _
      exact (hprepared k).step (deliveryStep_cases hstep)
  · rintro s ie s' ⟨-, hdescribed, hprepared⟩ hP hs
    obtain ⟨store, slot', hstep, rfl⟩ := interleave_eq_some.mp hs
    exact wellCounted_iff hdescribed (hprepared _) hP (deliveryStep_cases hstep)

end Runs

/-! ## Two workers with different settings -/

/-- The chunks of `twoParagraphs`, as they are hashed for the target 20 (one for
    each paragraph) and 40. -/
def paragraphDigest (input : Text) : String :=
  if input = "Restart the ingest worker after every settings change today.|||section_v2".toList then
    "c68b3c7cba157ff58cf4b9e4b1f0a464731f163d6e69bbcf64d6b58df2121ebc"
  else if input = "Check the waiting queue again before closing the open alert.|||section_v2".toList then
    "5bd619bb0db397238a6596cd36139a08838d432d2a90e91c5851ce45850e28fd"
  else "50285254390b8a3f4c64c222f004abcdb469f221644ca6f9a4d222bc338b32a0"

/-- Two paragraphs of fifteen tokens; `firstId` is the first UUID that is drawn. -/
def twoParagraphs (firstId : Id) : Attempt where
  parsed := .ok
    { fileType := "txt", sourceTitle := "Manual",
      blocks :=
        [{ text := "Restart the ingest worker after every settings change today.".toList },
          { text := "Check the waiting queue again before closing the open alert.".toList }] }
  newId i := firstId + i

/-- The worker `true` has `chunk_target_tokens` 40, the worker `false` 20. -/
def unequalWorkers (i : Bool) : Pipeline :=
  { manualPipeline with
    chunker :=
      { sampleChunker "" with
        settings := bif i then { chunkTargetTokens := 40, chunkOverlapTokens := 5 }
          else (sampleChunker "").settings
        sha256 := paragraphDigest } }

/-- Both workers cut the document; `true` indexes it, then `false` persists. -/
def latePersist : List (Bool × DeliveryEvent) :=
  [(false, .next (twoParagraphs 1)), (false, .next (twoParagraphs 1)),
    (true, .next (twoParagraphs 3)), (true, .next (twoParagraphs 3)),
    (true, .next (twoParagraphs 3)), (true, .next (twoParagraphs 3)),
    (false, .next (twoParagraphs 1))]

theorem manualDatabase_wellCounted (w : Id) : WellCounted manualDatabase w := by
  intro v hv hindexed
  have hmem : v ∈ manualDatabase.versions.rows := Table.mem_of_get? hv
  have hv : v = manualVersion := by simpa [manualDatabase] using hmem
  rw [hv] at hindexed
  cases hindexed

theorem chunkCount_right_iff_latePersist :
    Always (deliveries unequalWorkers fun _ => manualPayload) (fun s => ∀ w, WellCounted s.1.db w)
        (allIdle Bool manualDatabase) latePersist ↔
      EachStep (deliveries unequalWorkers fun _ => manualPayload)
        (fun s _ s' => ∀ c, s'.1.log = s.1.log ++ [c] → InOrder s.1.log c)
        (allIdle Bool manualDatabase) latePersist :=
  chunkCount_right_iff unequalWorkers (fun _ => manualPayload) manualDatabase
    manualDatabase_wellCounted (fun _ => by decide) latePersist

/-- The version is `INDEXED` with one chunk, and has two. -/
theorem chunkCount_wrong :
    ¬ ∀ es, Always (deliveries unequalWorkers fun _ => manualPayload)
      (fun s => ∀ w, WellCounted s.1.db w) (allIdle Bool manualDatabase) es := by
  intro hall
  let row := fun s : Store × (Bool → Slot) => (s.1.db.versions.get? 1).map fun v =>
    (v.status, v.chunkCount, (s.1.db.activeChunks 1).length)
  have hrun : (exec (deliveries unequalWorkers fun _ => manualPayload)
      (allIdle Bool manualDatabase) latePersist).map row = some (some (.indexed, 1, 2)) := by
    decide +kernel
  obtain ⟨s, hs, hrow⟩ := Option.map_eq_some_iff.mp hrun
  obtain ⟨v, hv, hrow⟩ := Option.map_eq_some_iff.mp hrow
  obtain ⟨hindexed, hcounts⟩ := Prod.mk.inj hrow
  obtain ⟨hcount, hlength⟩ := Prod.mk.inj hcounts
  have := ((hall latePersist).final hs 1 v hv hindexed).1
  omega

end RagStack.Ingest

import RagStack.Chat.Ask
import RagStack.Common.Runs
import RagStack.Ingest.Indexer

/-!
# Questions and answers

Any number of calls of `ask` (`services/api/src/chat/chat.service.ts`) on one database, one
statement or transaction at a time, while the other services write their own tables. What the
reads between the question and the answer return is left open.

* `askStep` — one step of a call.
* `exec_alone`: a call that nothing interrupts is `ask`.
* `keepsChunks_persistTransaction`: the worker keeps the chunks that were cited.

The store keeps, beside the tables, who has asked which question, and which question was answered.
No step reads it.
-/

namespace RagStack.Chat

open RagStack.Common RagStack.Api
open RagStack.Worker (Text)
open RagStack.Ingest (Id DocumentChunk ChunkTable Document DocumentVersion IngestJob)
open RagStack.Auth (User)
open RagStack.Access (AuthenticatedUser assertKnowledgeBaseRead getAccessibleConversation)

/-! ## Calls, one step at a time -/

/-- A call of `ask`, on an instance of the API. -/
structure Asker where
  user : AuthenticatedUser
  dto : AskQuestionDto
  config : ChatConfig
  gateway : Gateway

/-- What a call reads between the question and the answer. -/
structure AnswerReads where
  retrieval : Except HttpException RetrievalResult
  indexedChunkCount : ℕ
  history : List Message

/-- How far a call has come. -/
inductive AskState
  | start
  /-- `resolveKbScope` has found the conversation. -/
  | found (kbId : Id)
  | located (kb : KnowledgeBase)
  | opened (kb : KnowledgeBase) (conversation : Conversation)
  | questioned (kb : KnowledgeBase) (conversation : Conversation) (question : Id)
  | answered (asked : AskOutcome) (question : Id)
  | stored (response : ChatResponseView)
  | returned (response : ChatResponseView)
  | failed (error : HttpException)

/-- The tables, who has asked which question, and the answers with their questions. -/
structure ChatStore where
  db : Database
  asked : List (Id × AuthenticatedUser)
  answered : List (Id × Id)

/-- `assertKnowledgeBaseRead`, as a step. -/
def scopeStep (s : ChatStore) (user : AuthenticatedUser) (kbId : Id) : ChatStore × AskState :=
  match assertKnowledgeBaseRead s.db user kbId with
  | .error e => (s, .failed e)
  | .ok kb => (s, .located kb)

/-- The first read of `resolveKbScope` (lines 306–324). -/
def resolveStep (s : ChatStore) (asker : Asker) : ChatStore × AskState :=
  match asker.dto.kbId, asker.dto.conversationId with
  | some kbId, _ => scopeStep s asker.user kbId
  | none, none => (s, .failed (.badRequest "kbId or conversationId is required"))
  | none, some conversationId =>
    match getAccessibleConversation s.db asker.user conversationId with
    | .error e => (s, .failed e)
    | .ok conversation => (s, .found conversation.kbId)

/-- From the reads to the answer (lines 112–247). -/
def Asker.answer (uni : EcmaUnicode) (locale : LocaleCompare) (asker : Asker) (kb : KnowledgeBase)
    (conversationId : Id) (reads : AnswerReads) : Except HttpException AskOutcome := do
  let retrieval ← reads.retrieval
  assertRetrievedChunksStayInKb retrieval kb.id
  let outcome ← answerOutcome uni locale asker.config asker.gateway asker.dto.question
    reads.history reads.indexedChunkCount retrieval
  .ok { kb := kb, conversationId := conversationId, retrieval := retrieval, outcome := outcome }

/-- The response to a stored answer. -/
def responseOf (io : AskIo) (asked : AskOutcome) : ChatResponseView where
  conversationId := asked.conversationId
  messageId := io.assistantMessageId
  answer := asked.outcome.answer
  citations := asked.outcome.citations
  usage := asked.outcome.usage
  latencyMs := io.latencyMs
  status := asked.outcome.status

/-- One step of a call; `none` when it has ended. -/
def askStep (uni : EcmaUnicode) (locale : LocaleCompare) (asker : Asker) (s : ChatStore)
    (l : AskState) (io : AskIo) (reads : AnswerReads) : Option (ChatStore × AskState) :=
  match l with
  | .start => some (resolveStep s asker)
  | .found kbId => some (scopeStep s asker.user kbId)
  | .located kb =>
    match ensureConversationForAsk s.db io asker.user kb.id asker.dto.conversationId
      asker.dto.question with
    | .error e => some (s, .failed e)
    | .ok (db, conversation) => some ({ s with db := db }, .opened kb conversation)
  | .opened kb conversation =>
    match createUserMessage s.db io conversation.id asker.dto.question with
    | none => some (s, .failed persistenceFailure)
    | some db =>
      some
        ({ s with db := db, asked := s.asked ++ [(io.userMessageId, asker.user)] },
          .questioned kb conversation io.userMessageId)
  | .questioned kb conversation question =>
    match asker.answer uni locale kb conversation.id reads with
    | .error e => some (s, .failed e)
    | .ok asked => some (s, .answered asked question)
  | .answered asked question =>
    match createAssistantMessage s.db io (assistantMessageParams asker.config io
      asked.conversationId asker.dto.filters asked.retrieval asked.outcome) with
    | none => some (s, .failed persistenceFailure)
    | some db =>
      some
        ({ s with db := db, answered := s.answered ++ [(io.assistantMessageId, question)] },
          .stored (responseOf io asked))
  | .stored response =>
    if io.fails .createAuditLog then some (s, .failed .internal) else some (s, .returned response)
  | .returned _ => none
  | .failed _ => none

/-! ## The other services -/

/-- The tables that `ask` only reads. -/
structure OtherTables where
  users : Table User User.id
  knowledgeBases : Table KnowledgeBase KnowledgeBase.id
  members : Table KbMember KbMember.key
  documents : Table Document Document.id
  versions : Table DocumentVersion DocumentVersion.id
  jobs : Table IngestJob IngestJob.id
  chunks : ChunkTable

/-- The database with other tables. -/
def withOthers (db : Database) (tables : OtherTables) : Database :=
  { db with
    users := tables.users
    knowledgeBases := tables.knowledgeBases
    members := tables.members
    documents := tables.documents
    versions := tables.versions
    jobs := tables.jobs
    chunks := tables.chunks }

/-- No chunk is deleted, or given to another document or knowledge base. -/
def KeepsChunks (chunks chunks' : ChunkTable) : Prop :=
  ∀ c ∈ chunks.table.rows, ∃ c' ∈ chunks'.table.rows,
    c'.id = c.id ∧ c'.kbId = c.kbId ∧ c'.documentId = c.documentId

instance (chunks chunks' : ChunkTable) : Decidable (KeepsChunks chunks chunks') :=
  inferInstanceAs (Decidable (∀ c ∈ chunks.table.rows, ∃ c' ∈ chunks'.table.rows, _))

theorem KeepsChunks.refl (chunks : ChunkTable) : KeepsChunks chunks chunks :=
  fun c hc => ⟨c, hc, rfl, rfl, rfl⟩

/-- The worker supersedes chunks and inserts new ones. -/
theorem keepsChunks_persistTransaction {ix : Ingest.Indexer} {ctx : Ingest.JobContext}
    {records : List Worker.ChunkRecord} {newId : ℕ → Id} {now : Ingest.Time}
    {db db' : Ingest.Database} (h : ix.persistTransaction ctx records newId now db = some db') :
    KeepsChunks db.chunks db'.chunks := by
  simp only [Ingest.Indexer.persistTransaction, Option.bind_eq_bind, Option.bind_eq_some_iff] at h
  obtain ⟨rows, -, h⟩ := h
  split_ifs at h
  obtain ⟨inserted, hinserted, heq⟩ := Option.bind_eq_some_iff.mp h
  cases heq
  unfold ChunkTable.insertAll? at hinserted
  split at hinserted
  · cases hinserted
  · rename_i table htable
    split_ifs at hinserted
    cases hinserted
    have hrows := Table.rows_of_insertAll? htable
    intro c hc
    refine ⟨if Ingest.isActiveOf ctx.documentVersionId c then Ingest.supersede now c else c, ?_, ?_⟩
    · rw [hrows]
      refine List.mem_append_left _ ?_
      rw [ChunkTable.supersedeVersion, Table.rows_updateWhere]
      exact List.mem_map_of_mem hc
    · split_ifs <;> exact ⟨rfl, rfl, rfl⟩

/-- A call, or the other services. -/
inductive ChatParty
  | call (asker : Asker)
  | others

/-- What a step is given: what a call reads, or the tables that the others leave. -/
inductive ChatEvent
  | ask (io : AskIo) (reads : AnswerReads)
  | others (tables : OtherTables)

/-- One step of a party. -/
def partyStep (uni : EcmaUnicode) (locale : LocaleCompare) (party : ChatParty) (s : ChatStore)
    (l : AskState) (e : ChatEvent) : Option (ChatStore × AskState) :=
  match party, e with
  | .call asker, .ask io reads => askStep uni locale asker s l io reads
  | .others, .others tables =>
    if KeepsChunks s.db.chunks tables.chunks then
      some ({ s with db := withOthers s.db tables }, l)
    else none
  | _, _ => none

/-- No conversation, and none has asked. -/
def ChatStore.start (db : Database) : ChatStore where
  db := { db with conversations := .empty, messages := .empty, citations := .empty }
  asked := []
  answered := []

/-! ## A call on its own -/

/-- What a call has come to. -/
def AskState.result? : AskState → Option (Except HttpException ChatResponseView)
  | returned response => some (.ok response)
  | failed error => some (.error error)
  | _ => none

section Alone

variable (uni : EcmaUnicode) (locale : LocaleCompare) (asker : Asker)
  (retrieve : Id → Except HttpException RetrievalResult) (io : AskIo)

/-- What a call reads when nothing interrupts it. -/
def readsOf (s : ChatStore) (l : AskState) : AnswerReads :=
  match l with
  | .questioned kb conversation _ =>
    { retrieval := retrieve kb.id
      indexedChunkCount := countIndexedChunks uni s.db kb.id asker.dto.filters
      history := getPromptHistory s.db conversation.id asker.config.promptHistoryLimit }
  | _ => { retrieval := .error .internal, indexedChunkCount := 0, history := [] }

/-- The next step of the call. -/
def callStep (s : ChatStore × AskState) (_ : Unit) : Option (ChatStore × AskState) :=
  askStep uni locale asker s.1 s.2 io (readsOf uni asker retrieve s.1 s.2)

/-- The call ends with these tables and this result. -/
def EndsIn (s : ChatStore × AskState) (db : Database)
    (result : Except HttpException ChatResponseView) : Prop :=
  ∃ n s', exec (callStep uni locale asker retrieve io) s (List.replicate n ()) = some s' ∧
    s'.1.db = db ∧ s'.2.result? = some result

variable {uni locale asker retrieve io} {s : ChatStore} {l : AskState} {db : Database}
  {result : Except HttpException ChatResponseView}

theorem EndsIn.of_result (h : l.result? = some result) :
    EndsIn uni locale asker retrieve io (s, l) s.db result :=
  ⟨0, (s, l), rfl, rfl, h⟩

theorem EndsIn.of_step {t : ChatStore × AskState}
    (h : askStep uni locale asker s l io (readsOf uni asker retrieve s l) = some t)
    (ht : EndsIn uni locale asker retrieve io t db result) :
    EndsIn uni locale asker retrieve io (s, l) db result := by
  obtain ⟨n, s', hexec, hend⟩ := ht
  refine ⟨n + 1, s', ?_, hend⟩
  rw [List.replicate_succ, exec, callStep, h]
  exact hexec

/-- From the answer on. -/
theorem endsIn_answered (asked : AskOutcome) (question : Id) :
    EndsIn uni locale asker retrieve io (s, .answered asked question)
      (persistAnswerOutcome s.db asker.config io asked.conversationId asker.dto.filters
        asked.retrieval asked.outcome).1
      (persistAnswerOutcome s.db asker.config io asked.conversationId asker.dto.filters
        asked.retrieval asked.outcome).2 := by
  unfold persistAnswerOutcome
  cases hstored : createAssistantMessage s.db io (assistantMessageParams asker.config io
    asked.conversationId asker.dto.filters asked.retrieval asked.outcome) with
  | none =>
    refine EndsIn.of_step (t := (s, .failed persistenceFailure)) ?_ (EndsIn.of_result rfl)
    simp only [askStep, hstored]
  | some db =>
    let t : ChatStore :=
      { s with db := db, answered := s.answered ++ [(io.assistantMessageId, question)] }
    refine EndsIn.of_step (t := (t, .stored (responseOf io asked))) ?_ ?_
    · simp only [askStep, hstored, t]
    · by_cases haudit : io.fails .createAuditLog = true
      · simp only [haudit, if_true]
        refine EndsIn.of_step (t := (t, .failed .internal)) ?_ (EndsIn.of_result rfl)
        simp only [askStep, haudit, if_true]
      · simp only [haudit, Bool.false_eq_true, if_false]
        refine EndsIn.of_step (t := (t, .returned (responseOf io asked))) ?_ (EndsIn.of_result rfl)
        simp only [askStep, haudit, Bool.false_eq_true, if_false]

/-- From the scope on. -/
theorem endsIn_located {kb : KnowledgeBase}
    (hkb : resolveKbScope s.db asker.user asker.dto = .ok kb) :
    EndsIn uni locale asker retrieve io (s, .located kb)
      (ask uni locale asker.config asker.gateway retrieve s.db io asker.user asker.dto).1
      (ask uni locale asker.config asker.gateway retrieve s.db io asker.user asker.dto).2 := by
  unfold ask askOutcome
  simp only [hkb]
  cases hopen : ensureConversationForAsk s.db io asker.user kb.id asker.dto.conversationId
    asker.dto.question with
  | error e =>
    refine EndsIn.of_step (t := (s, .failed e)) ?_ (EndsIn.of_result rfl)
    simp only [askStep, hopen]
  | ok opened =>
    obtain ⟨db, conversation⟩ := opened
    refine EndsIn.of_step (t := ({ s with db := db }, .opened kb conversation)) ?_ ?_
    · simp only [askStep, hopen]
    simp only
    cases hquestion : createUserMessage db io conversation.id asker.dto.question with
    | none =>
      refine EndsIn.of_step (t := ({ s with db := db }, .failed persistenceFailure)) ?_
        (EndsIn.of_result rfl)
      simp only [askStep, hquestion]
    | some db' =>
      let t : ChatStore :=
        { s with db := db', asked := s.asked ++ [(io.userMessageId, asker.user)] }
      refine EndsIn.of_step (t := (t, .questioned kb conversation io.userMessageId)) ?_ ?_
      · simp only [askStep, hquestion, t]
      have hanswer : (do
          let retrieval ← retrieve kb.id
          assertRetrievedChunksStayInKb retrieval kb.id
          let outcome ← answerOutcome uni locale asker.config asker.gateway asker.dto.question
            (getPromptHistory db' conversation.id asker.config.promptHistoryLimit)
            (countIndexedChunks uni db' kb.id asker.dto.filters) retrieval
          .ok
            { kb := kb
              conversationId := conversation.id
              retrieval := retrieval
              outcome := outcome } : Except HttpException AskOutcome) =
          asker.answer uni locale kb conversation.id
            (readsOf uni asker retrieve t (.questioned kb conversation io.userMessageId)) := rfl
      simp only
      rw [hanswer]
      cases hasked : asker.answer uni locale kb conversation.id
          (readsOf uni asker retrieve t (.questioned kb conversation io.userMessageId)) with
      | error e =>
        refine EndsIn.of_step (t := (t, .failed e)) ?_ (EndsIn.of_result rfl)
        simp only [askStep, hasked]
      | ok asked =>
        refine EndsIn.of_step (t := (t, .answered asked io.userMessageId)) ?_
          (endsIn_answered asked io.userMessageId)
        simp only [askStep, hasked]

/-- A call that nothing interrupts is `ask`. -/
theorem exec_alone (s : ChatStore) :
    EndsIn uni locale asker retrieve io (s, .start)
      (ask uni locale asker.config asker.gateway retrieve s.db io asker.user asker.dto).1
      (ask uni locale asker.config asker.gateway retrieve s.db io asker.user asker.dto).2 := by
  refine EndsIn.of_step (t := resolveStep s asker) rfl ?_
  -- the scope in one step, as `resolveKbScope` reads it
  have hscope : ∀ kbId, resolveKbScope s.db asker.user asker.dto =
      assertKnowledgeBaseRead s.db asker.user kbId →
      EndsIn uni locale asker retrieve io (scopeStep s asker.user kbId)
        (ask uni locale asker.config asker.gateway retrieve s.db io asker.user asker.dto).1
        (ask uni locale asker.config asker.gateway retrieve s.db io asker.user asker.dto).2 := by
    intro kbId hresolve
    unfold scopeStep
    cases hread : assertKnowledgeBaseRead s.db asker.user kbId with
    | error e =>
      simp only [ask, askOutcome, hresolve, hread]
      exact EndsIn.of_result rfl
    | ok kb => exact endsIn_located (hresolve.trans hread)
  unfold resolveStep
  cases hkb : asker.dto.kbId with
  | some kbId => exact hscope kbId (by simp only [resolveKbScope, hkb])
  | none =>
    cases hconversation : asker.dto.conversationId with
    | none =>
      simp only [ask, askOutcome, resolveKbScope, hkb, hconversation]
      exact EndsIn.of_result rfl
    | some conversationId =>
      cases hread : getAccessibleConversation s.db asker.user conversationId with
      | error e =>
        simp only [ask, askOutcome, resolveKbScope, hkb, hconversation, hread]
        exact EndsIn.of_result rfl
      | ok conversation =>
        simp only [hread]
        refine EndsIn.of_step (t := scopeStep s asker.user conversation.kbId) rfl
          (hscope conversation.kbId ?_)
        simp only [resolveKbScope, hkb, hconversation, hread]

end Alone

end RagStack.Chat

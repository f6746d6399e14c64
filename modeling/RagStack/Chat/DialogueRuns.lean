import RagStack.Chat.Dialogues
import RagStack.Chat.PromptHistory

/-!
# Dialogues over whole runs

What the steps of any number of calls of `ask` keep, whichever way they interleave and wherever
they stop.

* `Grows`: what every step leaves. Messages, citations and owners of conversations stay.
* `Dialogue`: what the tables say of each question and each answer.
* `dialogues_sound`: both, for every run.
-/

namespace RagStack.Chat

open RagStack.Common RagStack.Api
open RagStack.Ingest (Id DocumentChunk)
open RagStack.Access (AuthenticatedUser getAccessibleConversation)

/-! ## What holds of the tables -/

/-- The citations of a message, in the order in which they were stored. -/
def citationsOf (db : Database) (messageId : Id) : List Citation :=
  db.citationRows.filter fun c => c.messageId = messageId

/-- The owner and the knowledge base of a conversation. -/
def scopeOf (db : Database) (conversationId : Id) : Option (Id × Id) :=
  (db.conversations.get? conversationId).map fun c => (c.userId, c.kbId)

/-- The user owns the conversation, or is an admin. -/
def MayAsk (db : Database) (conversationId : Id) (user : AuthenticatedUser) : Prop :=
  ∃ owner kbId, scopeOf db conversationId = some (owner, kbId) ∧
    (user.id = owner ∨ user.isAdmin = true)

/-- The message is a question, which the user has asked in a conversation of his. -/
structure AskedBy (s : ChatStore) (question : Message) (user : AuthenticatedUser) : Prop where
  stored : question ∈ s.db.messages.rows
  role : question.role = .user
  logged : (question.id, user) ∈ s.asked
  allowed : MayAsk s.db question.conversationId user

/-- The citations of an answer are those of its status. -/
structure CitesWell (db : Database) (answer : Message) : Prop where
  grounded_iff : answer.retrievalMetaJson.map RetrievalMetaJson.status = some .grounded ↔
    citationsOf db answer.id ≠ []
  ranks : (citationsOf db answer.id).map Citation.rank =
    List.range' 1 (citationsOf db answer.id).length
  inKb : ∀ c ∈ citationsOf db answer.id, ∃ chunk owner,
    db.chunks.table.get? c.chunkId = some chunk ∧ chunk.documentId = c.documentId ∧
      scopeOf db answer.conversationId = some (owner, chunk.kbId)

/-- The message is the answer to a question of its conversation that was stored before it. -/
def Answers (s : ChatStore) (answer : Message) : Prop :=
  ∃ question user, (answer.id, question.id) ∈ s.answered ∧ AskedBy s question user ∧
    question.conversationId = answer.conversationId ∧
    List.Sublist [question, answer] s.db.messages.rows

/-- What the tables say of each message. -/
structure Dialogue (s : ChatStore) : Prop where
  question : ∀ m ∈ s.db.messages.rows, m.role ≠ .assistant →
    citationsOf s.db m.id = [] ∧ ∃ user, AskedBy s m user
  answer : ∀ m ∈ s.db.messages.rows, m.role = .assistant → CitesWell s.db m ∧ Answers s m
  cited : ∀ c ∈ s.db.citationRows, ∃ m ∈ s.db.messages.rows, m.id = c.messageId
  answered : ∀ entry ∈ s.answered, (∃ m ∈ s.db.messages.rows, m.id = entry.1) ∧
    ∃ m ∈ s.db.messages.rows, m.id = entry.2
  /-- No two answers have one question. -/
  once : (s.answered.map Prod.snd).Nodup
  /-- No two questions have one answer. -/
  single : (s.answered.map Prod.fst).Nodup

/-! ## What a step leaves -/

/-- What every step keeps: nothing is changed or deleted but the activity of conversations, and no
    message that is there is cited for again. -/
structure Grows (s s' : ChatStore) : Prop where
  scopes : ∀ id scope, scopeOf s.db id = some scope → scopeOf s'.db id = some scope
  messages : s.db.messages.rows <+: s'.db.messages.rows
  citations : ∃ new, s'.db.citationRows = s.db.citationRows ++ new ∧
    ∀ c ∈ new, ∀ m ∈ s.db.messages.rows, m.id ≠ c.messageId
  chunks : KeepsChunks s.db.chunks s'.db.chunks
  asked : s.asked <+: s'.asked
  answered : s.answered <+: s'.answered

theorem Grows.refl (s : ChatStore) : Grows s s where
  scopes := fun _ _ h => h
  messages := List.prefix_rfl
  citations := ⟨[], (List.append_nil _).symm, fun _ hc => absurd hc List.not_mem_nil⟩
  chunks := KeepsChunks.refl _
  asked := List.prefix_rfl
  answered := List.prefix_rfl

section Grows

variable {s s' : ChatStore} {m : Message} {user : AuthenticatedUser}

theorem MayAsk.mono (hgrows : Grows s s') {conversationId : Id}
    (h : MayAsk s.db conversationId user) : MayAsk s'.db conversationId user := by
  obtain ⟨owner, kbId, hscope, hallowed⟩ := h
  exact ⟨owner, kbId, hgrows.scopes _ _ hscope, hallowed⟩

theorem AskedBy.mono (hgrows : Grows s s') (h : AskedBy s m user) : AskedBy s' m user where
  stored := hgrows.messages.subset h.stored
  role := h.role
  logged := hgrows.asked.subset h.logged
  allowed := h.allowed.mono hgrows

theorem Answers.mono (hgrows : Grows s s') (h : Answers s m) : Answers s' m := by
  obtain ⟨question, user, hlogged, hasked, hsame, hbefore⟩ := h
  exact ⟨question, user, hgrows.answered.subset hlogged, hasked.mono hgrows, hsame,
    hbefore.trans hgrows.messages.sublist⟩

/-- A message that is there keeps its citations. -/
theorem citationsOf_of_grows (hgrows : Grows s s') (hm : m ∈ s.db.messages.rows) :
    citationsOf s'.db m.id = citationsOf s.db m.id := by
  obtain ⟨new, hrows, hnew⟩ := hgrows.citations
  have hnone : new.filter (fun c => c.messageId = m.id) = [] :=
    List.filter_eq_nil_iff.mpr fun c hc => by simpa using (hnew c hc m hm).symm
  rw [citationsOf, hrows, List.filter_append, hnone, List.append_nil]
  rfl

theorem CitesWell.mono (hgrows : Grows s s') (hm : m ∈ s.db.messages.rows)
    (h : CitesWell s.db m) : CitesWell s'.db m := by
  have hsame := citationsOf_of_grows hgrows hm
  refine ⟨by rw [hsame]; exact h.grounded_iff, by rw [hsame]; exact h.ranks, fun c hc => ?_⟩
  rw [hsame] at hc
  obtain ⟨chunk, owner, hchunk, hdocument, hscope⟩ := h.inKb c hc
  obtain ⟨chunk', hmem, hid, hkb, hdocument'⟩ := hgrows.chunks chunk (Table.mem_of_get? hchunk)
  have hscope' := hgrows.scopes _ _ hscope
  refine ⟨chunk', owner, ?_, hdocument'.trans hdocument, by rw [hkb]; exact hscope'⟩
  have hkey : chunk.id = c.chunkId := Table.key_of_get? hchunk
  rw [← hkey, ← hid]
  exact s'.db.chunks.table.get?_of_mem hmem

/-- The messages that were there are still as the tables say. -/
theorem Dialogue.old (hgrows : Grows s s') (h : Dialogue s) (hm : m ∈ s.db.messages.rows) :
    (m.role ≠ .assistant → citationsOf s'.db m.id = [] ∧ ∃ user, AskedBy s' m user) ∧
      (m.role = .assistant → CitesWell s'.db m ∧ Answers s' m) := by
  constructor
  · intro hrole
    obtain ⟨hnone, user, hasked⟩ := h.question m hm hrole
    exact ⟨by rw [citationsOf_of_grows hgrows hm, hnone], user, hasked.mono hgrows⟩
  · intro hrole
    obtain ⟨hcites, hanswers⟩ := h.answer m hm hrole
    exact ⟨hcites.mono hgrows hm, hanswers.mono hgrows⟩

/-- The step has stored no message, and answered no question. -/
theorem Dialogue.quiet (hgrows : Grows s s') (h : Dialogue s)
    (hmessages : s'.db.messages.rows = s.db.messages.rows)
    (hcitations : s'.db.citationRows = s.db.citationRows) (hanswered : s'.answered = s.answered) :
    Dialogue s' where
  question := fun m hm => (h.old hgrows (hmessages ▸ hm)).1
  answer := fun m hm => (h.old hgrows (hmessages ▸ hm)).2
  cited := by rw [hmessages, hcitations]; exact h.cited
  answered := by rw [hmessages, hanswered]; exact h.answered
  once := by rw [hanswered]; exact h.once
  single := by rw [hanswered]; exact h.single

end Grows

/-! ## What the transactions leave -/

/-- The message was stored with its citations, and nothing else but the activity of the
    conversation has changed. -/
structure Stores (db db' : Database) (message : Message) (rows : List Citation) : Prop where
  messages : db'.messages.rows = db.messages.rows ++ [message]
  citations : db'.citationRows = db.citationRows ++ rows
  ofMessage : ∀ c ∈ rows, c.messageId = message.id
  chunks : db'.chunks = db.chunks
  scopes : ∀ id, scopeOf db' id = scopeOf db id

section Transactions

variable {db db' : Database} {io : AskIo} {conversationId : Id} {user : AuthenticatedUser}

theorem Stores.fresh {message : Message} {rows : List Citation}
    (h : Stores db db' message rows) : ∀ m ∈ db.messages.rows, m.id ≠ message.id := by
  have hnodup := db'.messages.keys_nodup
  rw [h.messages, List.map_append, List.nodup_append] at hnodup
  exact fun m hm => hnodup.2.2 m.id (List.mem_map_of_mem hm) message.id (by simp)

theorem scopeOf_touchConversation {statement : Statement} {now : Ingest.Time}
    (h : touchConversation db io statement conversationId now = some db') (id : Id) :
    scopeOf db' id = scopeOf db id := by
  unfold touchConversation at h
  split_ifs at h
  cases h
  exact Table.map_get?_update (g := fun c => { c with lastActivityAt := now, updatedAt := now })
    db.conversations conversationId id (fun _ => rfl) fun _ => rfl

theorem stores_createUserMessage {question : Worker.Text}
    (h : createUserMessage db io conversationId question = some db') :
    Stores db db' (questionMessage io conversationId question) [] := by
  have hmessages := messages_of_createUserMessage h
  simp only [createUserMessage, Option.bind_eq_bind, Option.bind_eq_some_iff] at h
  obtain ⟨db₁, hmessage, htouch⟩ := h
  obtain ⟨-, hcitations₁, hchunks₁, hconversations₁⟩ := createMessage_spec hmessage
  obtain ⟨-, hcitations, hchunks, -⟩ := touchConversation_spec htouch
  exact
    { messages := hmessages
      citations := by
        rw [List.append_nil, Database.citationRows, hcitations, hcitations₁]
        rfl
      ofMessage := fun c hc => absurd hc List.not_mem_nil
      chunks := hchunks.trans hchunks₁
      scopes := fun id => by rw [scopeOf_touchConversation htouch, scopeOf, hconversations₁]; rfl }

/-- The cited chunks are of the cited documents. -/
theorem document_of_createCitations {kbId messageId : Id} {citations : List CitationView}
    (h : createCitations db io kbId messageId citations = some db') :
    ∀ citation ∈ citations, ∃ chunk, db.chunks.table.get? citation.chunkId = some chunk ∧
      chunk.documentId = citation.documentId := by
  intro citation hcitation
  unfold createCitations at h
  simp only at h
  split_ifs at h with hnil hscope hfails
  · rw [hnil] at hcitation
    cases hcitation
  · have hall := not_not.mp (not_or.mp hfails).2
    obtain ⟨i, hi, rfl⟩ := List.getElem_of_mem hcitation
    have hrow := List.all_eq_true.mp hall (citationRow io messageId i citations[i])
      (List.mem_mapIdx.mpr ⟨i, hi, rfl⟩)
    obtain ⟨chunk, hchunk, hdocument⟩ := (Option.any_eq_true _ _).mp hrow
    exact ⟨chunk, hchunk, of_decide_eq_true hdocument⟩

theorem stores_createAssistantMessage {params : AssistantMessageParams}
    (h : createAssistantMessage db io params = some db') :
    Stores db db' (assistantMessage io params)
        (params.citations.mapIdx (citationRow io io.assistantMessageId)) ∧
      ∀ citation ∈ params.citations, ∃ chunk owner,
        db'.chunks.table.get? citation.chunkId = some chunk ∧
        chunk.documentId = citation.documentId ∧
        scopeOf db' params.conversationId = some (owner, chunk.kbId) := by
  obtain ⟨hmessages, hcitations, conversation, hconversation, hkb⟩ := createAssistantMessage_spec h
  simp only [createAssistantMessage, Option.bind_eq_bind, Option.bind_eq_some_iff] at h
  obtain ⟨row, -, db₁, hmessage, db₂, hcite, htouch⟩ := h
  obtain ⟨-, -, hchunks₁, hconversations₁⟩ := createMessage_spec hmessage
  obtain ⟨-, hchunks₂, hconversations₂, -, -⟩ := createCitations_spec hcite
  obtain ⟨-, -, hchunks₃, -⟩ := touchConversation_spec htouch
  refine ⟨⟨hmessages, hcitations, fun c hc => ?_, ?_, fun id => ?_⟩, fun citation hcitation => ?_⟩
  · obtain ⟨i, -, rfl⟩ := List.mem_mapIdx.mp hc
    rfl
  · rw [hchunks₃, hchunks₂, hchunks₁]
  · rw [scopeOf_touchConversation htouch, scopeOf, hconversations₂, hconversations₁]
    rfl
  · obtain ⟨chunk, hchunk, hchunkkb⟩ := hkb citation hcitation
    obtain ⟨chunk', hchunk', hdocument⟩ := document_of_createCitations hcite citation hcitation
    have hsame : chunk = chunk' := by
      rw [hchunks₃, hchunks₂, hchunk'] at hchunk
      exact (Option.some.inj hchunk).symm
    refine ⟨chunk, conversation.userId, hchunk, hsame ▸ hdocument, ?_⟩
    rw [scopeOf, hconversation, Option.map_some, hchunkkb]

/-- The user may ask in the conversation that was opened for him. -/
theorem mayAsk_ensureConversationForAsk {kbId : Id} {dtoConversation : Option Id}
    {question : Worker.Text} {conversation : Conversation}
    (h : ensureConversationForAsk db io user kbId dtoConversation question =
      .ok (db', conversation)) :
    MayAsk db' conversation.id user ∧
      ∀ id scope, scopeOf db id = some scope → scopeOf db' id = some scope := by
  unfold ensureConversationForAsk at h
  split at h
  · split at h
    · cases h
    · rename_i found hfound
      split_ifs at h
      cases h
      refine ⟨?_, fun _ _ hscope => hscope⟩
      unfold getAccessibleConversation at hfound
      split at hfound
      · cases hfound
      · rename_i row hrow
        cases hfound
        have hread := List.find?_some hrow
        simp only [Access.buildConversationReadWhere, Bool.and_eq_true, Bool.or_eq_true,
          decide_eq_true_eq] at hread
        refine ⟨conversation.userId, conversation.kbId, ?_, hread.1.2.symm.imp_left Eq.symm⟩
        rw [scopeOf, db.conversations.get?_of_mem (List.mem_of_find?_eq_some hrow)]
        rfl
  · simp only at h
    split_ifs at h
    split at h
    · cases h
    · rename_i conversations hinsert
      cases h
      refine ⟨⟨user.id, kbId, Table.map_get?_insert?_self hinsert _, Or.inl rfl⟩,
        fun id scope hscope => ?_⟩
      have hne := Table.ne_of_insert? hinsert hscope
      rw [scopeOf, Table.map_get?_insert? hinsert, if_neg hne]
      exact hscope

end Transactions

/-! ## Storing a message -/

section Messages

variable {s s' : ChatStore} {message : Message} {rows : List Citation}

theorem Stores.grows (h : Stores s.db s'.db message rows) (hasked : s.asked <+: s'.asked)
    (hanswered : s.answered <+: s'.answered) : Grows s s' where
  scopes := fun id scope hscope => by rw [h.scopes, hscope]
  messages := h.messages ▸ List.prefix_append _ _
  citations := ⟨rows, h.citations, fun c hc m hm => by
    rw [h.ofMessage c hc]
    exact h.fresh m hm⟩
  chunks := by rw [h.chunks]; exact KeepsChunks.refl _
  asked := hasked
  answered := hanswered

/-- The new message has the new citations. -/
theorem Stores.citationsOf_eq {db : Database} (h : Stores s.db db message rows) (hs : Dialogue s) :
    citationsOf db message.id = rows := by
  have hold : s.db.citationRows.filter (fun c => c.messageId = message.id) = [] := by
    refine List.filter_eq_nil_iff.mpr fun c hc => ?_
    obtain ⟨m, hm, hid⟩ := hs.cited c hc
    simpa [← hid] using h.fresh m hm
  have hnew : rows.filter (fun c => c.messageId = message.id) = rows :=
    List.filter_eq_self.mpr fun c hc => by simpa using h.ofMessage c hc
  rw [citationsOf, h.citations, List.filter_append, hold, hnew, List.nil_append]

/-- The step has stored one message. -/
theorem Dialogue.store (hs : Dialogue s) (hgrows : Grows s s') (h : Stores s.db s'.db message rows)
    (hquestion : message.role ≠ .assistant → rows = [] ∧ ∃ user, AskedBy s' message user)
    (hanswer : message.role = .assistant → CitesWell s'.db message ∧ Answers s' message)
    (hanswered : ∀ entry ∈ s'.answered, entry ∈ s.answered ∨
      entry.1 = message.id ∧ ∃ m ∈ s.db.messages.rows, m.id = entry.2)
    (honce : (s'.answered.map Prod.snd).Nodup) (hsingle : (s'.answered.map Prod.fst).Nodup) :
    Dialogue s' where
  question := by
    intro m hm hrole
    rw [h.messages] at hm
    rcases List.mem_append.mp hm with hold | hnew
    · exact (hs.old hgrows hold).1 hrole
    · rw [List.mem_singleton.mp hnew] at hrole ⊢
      rw [h.citationsOf_eq hs]
      exact hquestion hrole
  answer := by
    intro m hm hrole
    rw [h.messages] at hm
    rcases List.mem_append.mp hm with hold | hnew
    · exact (hs.old hgrows hold).2 hrole
    · rw [List.mem_singleton.mp hnew] at hrole ⊢
      exact hanswer hrole
  cited := by
    intro c hc
    rw [h.citations] at hc
    rw [h.messages]
    rcases List.mem_append.mp hc with hold | hnew
    · obtain ⟨m, hm, hid⟩ := hs.cited c hold
      exact ⟨m, List.mem_append_left _ hm, hid⟩
    · exact ⟨message, List.mem_append_right _ (List.mem_singleton_self _),
        (h.ofMessage c hnew).symm⟩
  answered := by
    intro entry hentry
    rcases hanswered entry hentry with hold | ⟨hnew, m, hm, hid⟩
    · obtain ⟨⟨m, hm, hid⟩, m', hm', hid'⟩ := hs.answered entry hold
      exact ⟨⟨m, hgrows.messages.subset hm, hid⟩, m', hgrows.messages.subset hm', hid'⟩
    · refine ⟨⟨message, ?_, hnew.symm⟩, m, hgrows.messages.subset hm, hid⟩
      rw [h.messages]
      exact List.mem_append_right _ (List.mem_singleton_self _)
  once := honce
  single := hsingle

end Messages

/-! ## One step of a call -/

/-- The question is stored, and not answered. -/
def OpenQuestion (s : ChatStore) (conversationId question : Id) (user : AuthenticatedUser) : Prop :=
  (∃ m, m.id = question ∧ m.conversationId = conversationId ∧ AskedBy s m user) ∧
    question ∉ s.answered.map Prod.snd

/-- What a grounded answer has, and no other. -/
structure OutcomeOk (outcome : AnswerOutcome) : Prop where
  grounded_iff : outcome.status = .grounded ↔ outcome.citations ≠ []
  ranks : outcome.citations.map CitationView.rank = List.range' 1 outcome.citations.length

/-- What a call relies on. -/
def AskOk (user : AuthenticatedUser) (s : ChatStore) : AskState → Prop
  | .opened _ conversation => MayAsk s.db conversation.id user
  | .questioned _ conversation question => OpenQuestion s conversation.id question user
  | .answered asked question =>
    OpenQuestion s asked.conversationId question user ∧ OutcomeOk asked.outcome
  | _ => True

/-- The question that a call is about to answer. -/
def AskState.question? : AskState → Option Id
  | questioned _ _ question => some question
  | answered _ question => some question
  | _ => none

/-- What a step of a call leaves, beside what the call relies on. -/
structure AskLeaves (s s' : ChatStore) (l l' : AskState) : Prop where
  grows : Grows s s'
  dialogue : Dialogue s'
  asks : ∀ question ∈ l'.question?, question ∈ l.question? ∨
    ∀ m ∈ s.db.messages.rows, m.id ≠ question
  answers : s'.answered = s.answered ∨
    ∃ answer, ∃ question ∈ l.question?, s'.answered = s.answered ++ [(answer, question)]

section Steps

variable {uni : EcmaUnicode} {locale : LocaleCompare} {asker : Asker} {s s' : ChatStore}
  {l l' : AskState} {io : AskIo} {reads : AnswerReads}

theorem OpenQuestion.mono {conversationId question : Id} {user : AuthenticatedUser}
    (hgrows : Grows s s') (hopen : question ∉ s'.answered.map Prod.snd)
    (h : OpenQuestion s conversationId question user) :
    OpenQuestion s' conversationId question user := by
  obtain ⟨⟨m, hid, hconversation, hasked⟩, -⟩ := h
  exact ⟨⟨m, hid, hconversation, hasked.mono hgrows⟩, hopen⟩

theorem AskOk.mono {user : AuthenticatedUser} (hgrows : Grows s s')
    (hopen : ∀ question ∈ l.question?, question ∉ s'.answered.map Prod.snd)
    (h : AskOk user s l) : AskOk user s' l := by
  cases l with
  | opened kb conversation => exact MayAsk.mono hgrows h
  | questioned kb conversation question => exact OpenQuestion.mono hgrows (hopen question rfl) h
  | answered asked question => exact ⟨h.1.mono hgrows (hopen question rfl), h.2⟩
  | _ => trivial

/-- A step that only reads. -/
theorem AskLeaves.quiet (hs : Dialogue s)
    (hquestion : ∀ question ∈ l'.question?, question ∈ l.question?) : AskLeaves s s l l' where
  grows := Grows.refl s
  dialogue := hs
  asks := fun question h => Or.inl (hquestion question h)
  answers := Or.inl rfl

theorem outcomeOk_of_answer {kb : KnowledgeBase} {conversationId : Id} {asked : AskOutcome}
    (h : asker.answer uni locale kb conversationId reads = .ok asked) :
    asked.conversationId = conversationId ∧ OutcomeOk asked.outcome := by
  unfold Asker.answer at h
  cases hretrieval : reads.retrieval with
  | error e =>
    rw [hretrieval] at h
    cases h
  | ok retrieval =>
    rw [hretrieval] at h
    cases hintegrity : assertRetrievedChunksStayInKb retrieval kb.id with
    | error e => simp [bind, Except.bind, hintegrity] at h
    | ok checked =>
      simp only [bind, Except.bind, hintegrity] at h
      split at h
      · cases h
      · rename_i outcome houtcome
        cases h
        obtain ⟨hgrounded, used, hcontract, -⟩ := citationContract_of_answerOutcome houtcome
        exact ⟨rfl, hgrounded, hcontract.ranks⟩

/-- The answer is stored. -/
theorem citesWell_of_stored {params : AssistantMessageParams} {db' : Database}
    (hrows : citationsOf db' io.assistantMessageId =
      params.citations.mapIdx (citationRow io io.assistantMessageId))
    (hinKb : ∀ citation ∈ params.citations, ∃ chunk owner,
      db'.chunks.table.get? citation.chunkId = some chunk ∧
      chunk.documentId = citation.documentId ∧
      scopeOf db' params.conversationId = some (owner, chunk.kbId))
    (hgrounded : params.status = .grounded ↔ params.citations ≠ [])
    (hranks : params.citations.map CitationView.rank = List.range' 1 params.citations.length) :
    CitesWell db' (assistantMessage io params) := by
  have hid : (assistantMessage io params).id = io.assistantMessageId := rfl
  refine ⟨?_, ?_, ?_⟩
  · rw [hid, hrows, Ne, List.mapIdx_eq_nil_iff]
    simpa [assistantMessage] using hgrounded
  · rw [hid, hrows, List.length_mapIdx, ← hranks]
    have hviews := congrArg (List.map CitationView.rank)
      (@map_citationView_rows io io.assistantMessageId params.citations)
    rw [List.map_map] at hviews
    exact hviews
  · intro c hc
    rw [hid, hrows] at hc
    obtain ⟨i, hi, rfl⟩ := List.mem_mapIdx.mp hc
    exact hinKb _ (List.getElem_mem hi)

theorem scopeStep_sound {kbId : Id} (h : scopeStep s asker.user kbId = (s', l'))
    (hs : Dialogue s) : AskLeaves s s' l l' ∧ AskOk asker.user s' l' := by
  unfold scopeStep at h
  split at h <;> cases h <;>
    exact ⟨AskLeaves.quiet hs fun q h => absurd h (Option.not_mem_none q), trivial⟩

theorem resolveStep_sound (h : resolveStep s asker = (s', l')) (hs : Dialogue s) :
    AskLeaves s s' l l' ∧ AskOk asker.user s' l' := by
  unfold resolveStep at h
  split at h
  · exact scopeStep_sound h hs
  · cases h
    exact ⟨AskLeaves.quiet hs fun q h => absurd h (Option.not_mem_none q), trivial⟩
  · split at h <;> cases h <;>
      exact ⟨AskLeaves.quiet hs fun q h => absurd h (Option.not_mem_none q), trivial⟩

/-- The conversation is there. -/
theorem located_sound {kb : KnowledgeBase} {db : Database} {conversation : Conversation}
    (hopens : ensureConversationForAsk s.db io asker.user kb.id asker.dto.conversationId
      asker.dto.question = .ok (db, conversation)) (hs : Dialogue s) :
    AskLeaves s { s with db := db } (.located kb) (.opened kb conversation) ∧
      AskOk asker.user { s with db := db } (.opened kb conversation) := by
  obtain ⟨hmay, hscopes⟩ := mayAsk_ensureConversationForAsk hopens
  obtain ⟨conversations, rfl⟩ := ensureConversationForAsk_spec hopens
  have hgrows : Grows s { s with db := { s.db with conversations := conversations } } :=
    { Grows.refl s with scopes := hscopes }
  exact
    ⟨{ grows := hgrows
       dialogue := hs.quiet hgrows rfl rfl rfl
       asks := fun q h => absurd h (Option.not_mem_none q)
       answers := Or.inl rfl }, hmay⟩

/-- The question is stored. -/
theorem opened_sound {kb : KnowledgeBase} {conversation : Conversation} {db : Database}
    (hcreate : createUserMessage s.db io conversation.id asker.dto.question = some db)
    (hs : Dialogue s) (hmay : MayAsk s.db conversation.id asker.user) :
    AskLeaves s { s with db := db, asked := s.asked ++ [(io.userMessageId, asker.user)] }
        (.opened kb conversation) (.questioned kb conversation io.userMessageId) ∧
      AskOk asker.user { s with db := db, asked := s.asked ++ [(io.userMessageId, asker.user)] }
        (.questioned kb conversation io.userMessageId) := by
  have hstores := stores_createUserMessage hcreate
  have hgrows : Grows s { s with db := db, asked := s.asked ++ [(io.userMessageId, asker.user)] } :=
    hstores.grows (List.prefix_append _ _) List.prefix_rfl
  have hasked : AskedBy { s with db := db, asked := s.asked ++ [(io.userMessageId, asker.user)] }
      (questionMessage io conversation.id asker.dto.question) asker.user :=
    { stored := by
        rw [hstores.messages]
        exact List.mem_append_right _ (List.mem_singleton_self _)
      role := rfl
      logged := List.mem_append_right _ (List.mem_singleton_self _)
      allowed := hmay.mono hgrows }
  -- an answered question is one of the messages that were there
  have hopen : io.userMessageId ∉ s.answered.map Prod.snd := by
    intro hmem
    obtain ⟨entry, hentry, hid⟩ := List.mem_map.mp hmem
    obtain ⟨-, m, hm, hquestion⟩ := hs.answered entry hentry
    exact hstores.fresh m hm (hquestion.trans hid)
  have hrole : (questionMessage io conversation.id asker.dto.question).role ≠ .assistant := by
    simp [questionMessage]
  refine ⟨⟨hgrows, ?_, fun question h => ?_, Or.inl rfl⟩, ⟨_, rfl, rfl, hasked⟩, hopen⟩
  · exact hs.store hgrows hstores (fun _ => ⟨rfl, asker.user, hasked⟩)
      (fun hassistant => absurd hassistant hrole) (fun _ hentry => Or.inl hentry) hs.once
      hs.single
  · cases h
    exact Or.inr hstores.fresh

/-- The answer is stored. -/
theorem answered_sound {asked : AskOutcome} {question : Id} {db : Database}
    (hcreate : createAssistantMessage s.db io (assistantMessageParams asker.config io
      asked.conversationId asker.dto.filters asked.retrieval asked.outcome) = some db)
    (hs : Dialogue s) (hopen : OpenQuestion s asked.conversationId question asker.user)
    (hok : OutcomeOk asked.outcome) (response : ChatResponseView) :
    AskLeaves s { s with db := db, answered := s.answered ++ [(io.assistantMessageId, question)] }
        (.answered asked question) (.stored response) := by
  obtain ⟨hstores, hinKb⟩ := stores_createAssistantMessage hcreate
  have hgrows : Grows s
      { s with db := db, answered := s.answered ++ [(io.assistantMessageId, question)] } :=
    hstores.grows List.prefix_rfl (List.prefix_append _ _)
  obtain ⟨⟨m, hid, hconversation, hasked⟩, hnew⟩ := hopen
  have hanswers : Answers
      { s with db := db, answered := s.answered ++ [(io.assistantMessageId, question)] }
      (assistantMessage io (assistantMessageParams asker.config io asked.conversationId
        asker.dto.filters asked.retrieval asked.outcome)) := by
    refine ⟨m, asker.user, ?_, hasked.mono hgrows, hconversation, ?_⟩
    · rw [hid]
      exact List.mem_append_right _ (List.mem_singleton_self _)
    · rw [hstores.messages]
      exact (List.singleton_sublist.mpr hasked.stored).append (List.Sublist.refl _)
  have hcites := citesWell_of_stored (hstores.citationsOf_eq hs) hinKb hok.grounded_iff hok.ranks
  refine ⟨hgrows, ?_, fun q h => absurd h (Option.not_mem_none q),
    Or.inr ⟨_, question, rfl, rfl⟩⟩
  refine hs.store hgrows hstores (fun hrole => absurd rfl hrole) (fun _ => ⟨hcites, hanswers⟩)
    (fun entry hentry => ?_) ?_ ?_
  · refine (List.mem_append.mp hentry).imp id fun hlast => ?_
    rw [List.mem_singleton.mp hlast]
    exact ⟨rfl, m, hasked.stored, hid⟩
  · rw [List.map_append, List.map_singleton]
    refine List.nodup_append.mpr ⟨hs.once, List.nodup_singleton _, fun q hq q' hq' heq => ?_⟩
    rw [heq, List.mem_singleton.mp hq'] at hq
    exact hnew hq
  · -- the answers before are messages that were there
    rw [List.map_append, List.map_singleton]
    refine List.nodup_append.mpr ⟨hs.single, List.nodup_singleton _, fun a ha a' ha' heq => ?_⟩
    obtain ⟨entry, hentry, rfl⟩ := List.mem_map.mp ha
    obtain ⟨⟨old, hold, hidold⟩, -⟩ := hs.answered entry hentry
    refine hstores.fresh old hold ?_
    rw [hidold, heq, List.mem_singleton.mp ha']
    rfl

/-- Every step of a call. -/
theorem askStep_sound (h : askStep uni locale asker s l io reads = some (s', l'))
    (hs : Dialogue s) (hl : AskOk asker.user s l) :
    AskLeaves s s' l l' ∧ AskOk asker.user s' l' := by
  cases l with
  | start => exact resolveStep_sound (Option.some.inj h) hs
  | found kbId => exact scopeStep_sound (Option.some.inj h) hs
  | located kb =>
    simp only [askStep] at h
    split at h
    · cases h
      exact ⟨AskLeaves.quiet hs fun q h => absurd h (Option.not_mem_none q), trivial⟩
    · rename_i hopens
      cases h
      exact located_sound hopens hs
  | opened kb conversation =>
    simp only [askStep] at h
    split at h
    · cases h
      exact ⟨AskLeaves.quiet hs fun q h => absurd h (Option.not_mem_none q), trivial⟩
    · rename_i hcreate
      cases h
      exact opened_sound hcreate hs hl
  | questioned kb conversation question =>
    simp only [askStep] at h
    split at h
    · cases h
      exact ⟨AskLeaves.quiet hs fun q h => absurd h (Option.not_mem_none q), trivial⟩
    · rename_i asked hanswer
      cases h
      obtain ⟨hconversation, hok⟩ := outcomeOk_of_answer hanswer
      exact ⟨AskLeaves.quiet hs fun q h => h, hconversation ▸ hl, hok⟩
  | answered asked question =>
    simp only [askStep] at h
    split at h
    · cases h
      exact ⟨AskLeaves.quiet hs fun q h => absurd h (Option.not_mem_none q), trivial⟩
    · rename_i hcreate
      cases h
      exact ⟨answered_sound hcreate hs hl.1 hl.2 _, trivial⟩
  | stored response =>
    simp only [askStep] at h
    split at h <;> cases h <;>
      exact ⟨AskLeaves.quiet hs fun q h => absurd h (Option.not_mem_none q), trivial⟩
  | returned response => cases h
  | failed error => cases h

end Steps

/-! ## Whole runs -/

/-- What a party relies on. -/
def PartyOk (party : ChatParty) (s : ChatStore) (l : AskState) : Prop :=
  match party with
  | .call asker => AskOk asker.user s l
  | .others => l.question? = none

section Runs

variable {uni : EcmaUnicode} {locale : LocaleCompare} {ι : Type} [DecidableEq ι]
  {parties : ι → ChatParty}

/-- What holds in every state: the dialogues, what every party relies on, and that no two are about
    to answer the same question. -/
structure ChatSound (parties : ι → ChatParty) (s : ChatStore × (ι → AskState)) : Prop where
  dialogue : Dialogue s.1
  parties : ∀ k, PartyOk (parties k) s.1 (s.2 k)
  apart : ∀ i j, i ≠ j → ∀ question ∈ (s.2 i).question?, question ∉ (s.2 j).question?

/-- The step of a party. -/
theorem partyStep_sound {party : ChatParty} {s s' : ChatStore} {l l' : AskState} {e : ChatEvent}
    (h : partyStep uni locale party s l e = some (s', l')) (hs : Dialogue s)
    (hl : PartyOk party s l) : AskLeaves s s' l l' ∧ PartyOk party s' l' := by
  unfold partyStep at h
  split at h
  · exact askStep_sound h hs hl
  · rename_i tables
    split_ifs at h with hkeeps
    cases h
    have hgrows : Grows s { s with db := withOthers s.db tables } :=
      { Grows.refl s with chunks := hkeeps }
    exact ⟨⟨hgrows, hs.quiet hgrows rfl rfl rfl, fun q h => Or.inl h, Or.inl rfl⟩, hl⟩
  · cases h

/-- A question that a party is about to answer is stored. -/
theorem PartyOk.stored {party : ChatParty} {s : ChatStore} {l : AskState} (h : PartyOk party s l)
    {question : Id} (hquestion : question ∈ l.question?) :
    (∃ m ∈ s.db.messages.rows, m.id = question) ∧ question ∉ s.answered.map Prod.snd := by
  cases party with
  | call asker =>
    cases l with
    | questioned kb conversation stored =>
      cases hquestion
      obtain ⟨⟨m, hid, -, hasked⟩, hopen⟩ := h
      exact ⟨⟨m, hasked.stored, hid⟩, hopen⟩
    | answered asked stored =>
      cases hquestion
      obtain ⟨⟨⟨m, hid, -, hasked⟩, hopen⟩, -⟩ := h
      exact ⟨⟨m, hasked.stored, hid⟩, hopen⟩
    | _ => cases hquestion
  | others =>
    rw [PartyOk] at h
    rw [h] at hquestion
    cases hquestion

theorem PartyOk.mono {party : ChatParty} {s s' : ChatStore} {l : AskState} (hgrows : Grows s s')
    (hopen : ∀ question ∈ l.question?, question ∉ s'.answered.map Prod.snd)
    (h : PartyOk party s l) : PartyOk party s' l := by
  cases party with
  | call asker => exact AskOk.mono hgrows hopen h
  | others => exact h

theorem chatSound_step (s : ChatStore × (ι → AskState)) (ie : ι × ChatEvent)
    (s' : ChatStore × (ι → AskState)) (hs : ChatSound parties s)
    (h : interleave (fun k => partyStep uni locale (parties k)) s ie = some s') :
    ChatSound parties s' ∧ Grows s.1 s'.1 := by
  obtain ⟨store, l, hstep, rfl⟩ := interleave_eq_some.mp h
  obtain ⟨hleaves, hown⟩ := partyStep_sound hstep hs.dialogue (hs.parties ie.1)
  refine ⟨⟨hleaves.dialogue, ?_, ?_⟩, hleaves.grows⟩
  · refine interleave_inv h (J := fun k m => PartyOk (parties k) store m) (fun l' hl' => ?_)
      fun l' hl' k hk => ?_
    · rw [hstep] at hl'
      cases hl'
      exact hown
    · refine (hs.parties k).mono hleaves.grows fun question hquestion hanswered => ?_
      -- the party that has answered a question was about to answer another one
      obtain ⟨-, hopen⟩ := (hs.parties k).stored hquestion
      rcases hleaves.answers with hsame | ⟨answer, other, hother, hlog⟩
      · exact hopen (hsame ▸ hanswered)
      · rw [hlog, List.map_append, List.mem_append] at hanswered
        rcases hanswered with hold | hnew
        · exact hopen hold
        · have heq : question = other := by simpa using hnew
          exact hs.apart k ie.1 hk question hquestion (heq ▸ hother)
  · refine interleave_pairwise h
      (K := fun l m => ∀ question ∈ l.question?, question ∉ m.question?)
      (fun l m hlm question hm hl => hlm question hl hm) hs.apart
      fun l' hl' k hk question hq hqk => ?_
    rw [hstep] at hl'
    cases hl'
    rcases hleaves.asks question hq with hbefore | hfresh
    · exact hs.apart ie.1 k hk.symm question hbefore hqk
    · obtain ⟨⟨m, hm, hid⟩, -⟩ := (hs.parties k).stored hqk
      exact hfresh m hm hid

omit [DecidableEq ι] in
theorem chatSound_start (db : Database) :
    ChatSound parties (ChatStore.start db, fun _ => .start) where
  dialogue :=
    { question := fun m hm => absurd hm List.not_mem_nil
      answer := fun m hm => absurd hm List.not_mem_nil
      cited := fun c hc => absurd hc List.not_mem_nil
      answered := fun entry hentry => absurd hentry List.not_mem_nil
      once := List.nodup_nil
      single := List.nodup_nil }
  parties := fun k => by
    cases hk : parties k <;> simp [PartyOk, AskOk, AskState.question?]
  apart := fun i j _ question h => absurd h (Option.not_mem_none question)

end Runs

/-- In every run of any number of calls of `ask`, however they interleave with each other and with
    the other services, and wherever they stop: each answer has one question, which was stored
    before it by a user who may ask in the conversation; it is grounded exactly if it has
    citations, and these count up and are of chunks of the knowledge base of the conversation.
    Nothing of a dialogue is changed or deleted. -/
theorem dialogues_sound (uni : EcmaUnicode) (locale : LocaleCompare) {ι : Type} [DecidableEq ι]
    (parties : ι → ChatParty) (db : Database) (es : List (ι × ChatEvent)) :
    Always (interleave fun k => partyStep uni locale (parties k)) (fun s => Dialogue s.1)
        (ChatStore.start db, fun _ => .start) es ∧
      EachStep (interleave fun k => partyStep uni locale (parties k))
        (fun s _ s' => Grows s.1 s'.1) (ChatStore.start db, fun _ => .start) es :=
  ⟨(always_of_inv (fun s ie s' hs h => (chatSound_step s ie s' hs h).1) es
      (chatSound_start db)).mono fun _ hs => hs.dialogue,
    eachStep_of_inv (fun s ie s' hs h => chatSound_step s ie s' hs h) es (chatSound_start db)⟩

end RagStack.Chat

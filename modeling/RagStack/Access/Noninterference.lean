import RagStack.Access.Reads
import RagStack.Access.View
import RagStack.Chat.ConversationReads
import RagStack.Chat.RetrievalQueries

/-!
# What a user reads depends on his rows only

The reads of a user who is not an admin: of knowledge bases, documents and
conversations, and those that `ask` makes. Each of them gives the same result on
the view of the user as on the database.

* `respond` — the result of a read, with its errors.
* `respond_view`: the result on the view.
* `reads_noninterference`: two databases that agree on the rows of the user give
  him the same results.
-/

namespace RagStack.Access

open RagStack.Common RagStack.Api
open RagStack.Ingest (Id Document DocumentVersion IngestJob DocumentChunk)
open RagStack.Retrieval (Scope Joined buildBaseFromClause baseWhere candidates)

/-! ## Reads -/

/-- The reads, with what a user supplies. -/
inductive ReadRequest
  | findAllKnowledgeBases
  | findOneKnowledgeBase (kbId : Id)
  | findAllDocuments (kbId : Id)
  | findOneDocument (documentId : Id)
  | listConversations (kbId : Option Id)
  | getConversation (conversationId : Id)
  | getConversationMessages (conversationId : Id) (limit : Option ℕ)
  | ask (dto : Chat.AskQuestionDto)

/-- The results of the reads. -/
inductive ReadResponse
  | knowledgeBases (views : List KnowledgeBaseView)
  | knowledgeBase (view : KnowledgeBaseDetailView)
  | documents (views : List DocumentListItemView)
  | document (view : DocumentDetailView)
  | conversations (views : List Chat.ConversationListItem)
  | conversation (view : Chat.ConversationDetail)
  | messages (views : List Chat.MessageView)
  | asked (reads : Chat.AskReads)

/-- What is the same for all requests: the Unicode tables, the functions of the
    database and the configuration. -/
structure ReadContext where
  uni : EcmaUnicode
  search : Chat.SearchFunctions
  settings : Chat.RetrievalSettings
  conversationMessageLimit : ℕ
  embeddingsConfigured : Bool

/-- The result of a read. -/
def respond (ctx : ReadContext) (user : AuthenticatedUser) (db : Database) :
    ReadRequest → Except HttpException ReadResponse
  | .findAllKnowledgeBases => .ok (.knowledgeBases (findAllKnowledgeBases db user))
  | .findOneKnowledgeBase kbId => (findOneKnowledgeBase db user kbId).map .knowledgeBase
  | .findAllDocuments kbId => (findAllDocuments db user kbId).map .documents
  | .findOneDocument documentId =>
    (findOneDocument ctx.embeddingsConfigured db user documentId).map .document
  | .listConversations kbId => (Chat.listConversations db user kbId).map .conversations
  | .getConversation conversationId =>
    (Chat.getConversation ctx.conversationMessageLimit db user conversationId).map .conversation
  | .getConversationMessages conversationId limit =>
    (Chat.getConversationMessages ctx.conversationMessageLimit db user conversationId limit).map
      .messages
  | .ask dto => (Chat.askReads ctx.uni ctx.search ctx.settings db user dto).map .asked

/-! ## Conditions on the view -/

section Conditions

variable {db : Database} {user : AuthenticatedUser}

/-- The memberships of the user are in the view. -/
theorem seesMember_of_own {m : KbMember} (h : m.userId = user.id) :
    seesMember db user m = true := by
  rw [seesMember, decide_eq_true h, Bool.true_or]

theorem get?_members_view (kbId : Id) :
    (view db user).members.get? (kbId, user.id) = db.members.get? (kbId, user.id) :=
  Table.get?_restrict_of_imp db.members fun _ hm =>
    seesMember_of_own (congrArg Prod.snd (Table.key_of_get? hm))

theorem hasMember_view (kb : KnowledgeBase) :
    hasMember (view db user) kb user.id = hasMember db kb user.id :=
  Table.any_restrict db.members fun _ _ hm => seesMember_of_own (of_decide_eq_true hm).2

theorem kbReadable_view : kbReadable (view db user) user = kbReadable db user := by
  funext kb
  rw [kbReadable, kbReadable, hasMember_view]

/-- Who is not an admin reads the active knowledge bases that he is a member of. -/
theorem isMemberKb_of_kbReadable (hadmin : user.isAdmin = false) {kb : KnowledgeBase}
    (hkb : kb ∈ db.knowledgeBases.rows) (h : kbReadable db user kb = true) :
    isMemberKb db user kb.id = true := by
  simp only [kbReadable, hadmin, Bool.false_or, Bool.and_eq_true] at h
  obtain ⟨hactive, hmember⟩ := h
  obtain ⟨m, hm, hkey⟩ := List.any_eq_true.mp hmember
  obtain ⟨hmkb, hmuser⟩ := of_decide_eq_true hkey
  have hget : db.members.get? (kb.id, user.id) = some m := by
    rw [← hmkb, ← hmuser]
    exact db.members.get?_of_mem hm
  rw [isMemberKb, db.knowledgeBases.get?_of_mem hkb, Option.any_some, hget, hactive]
  rfl

theorem isMemberKb_of_any_kbReadable (hadmin : user.isAdmin = false) {kbId : Id}
    (h : (db.knowledgeBases.get? kbId).any (kbReadable db user) = true) :
    isMemberKb db user kbId = true := by
  obtain ⟨kb, hkb, hreadable⟩ := (Option.any_eq_true _ _).mp h
  rw [← Table.key_of_get? hkb]
  exact isMemberKb_of_kbReadable hadmin (Table.mem_of_get? hkb) hreadable

theorem any_kbReadable_view (hadmin : user.isAdmin = false) (kbId : Id) :
    ((view db user).knowledgeBases.get? kbId).any (kbReadable (view db user) user) =
      (db.knowledgeBases.get? kbId).any (kbReadable db user) := by
  rw [kbReadable_view]
  exact Table.any_get?_restrict db.knowledgeBases kbId fun kb hget hreadable =>
    isMemberKb_of_kbReadable hadmin (Table.mem_of_get? hget) hreadable

/-! ## Knowledge bases -/

theorem buildKnowledgeBaseReadWhere_view (kbId : Option Id) :
    buildKnowledgeBaseReadWhere (view db user) user kbId =
      buildKnowledgeBaseReadWhere db user kbId := by
  funext kb
  rw [buildKnowledgeBaseReadWhere, buildKnowledgeBaseReadWhere, kbReadable_view]

/-- The condition admits rows of the view only. -/
theorem isMemberKb_of_where (hadmin : user.isAdmin = false) {kbId : Option Id}
    {kb : KnowledgeBase} (hkb : kb ∈ db.knowledgeBases.rows)
    (h : buildKnowledgeBaseReadWhere db user kbId kb = true) : isMemberKb db user kb.id = true := by
  simp only [buildKnowledgeBaseReadWhere, Bool.and_eq_true] at h
  exact isMemberKb_of_kbReadable hadmin hkb h.2

theorem find?_knowledgeBases_view (hadmin : user.isAdmin = false) (kbId : Option Id) :
    (view db user).knowledgeBases.rows.find?
        (buildKnowledgeBaseReadWhere (view db user) user kbId) =
      db.knowledgeBases.rows.find? (buildKnowledgeBaseReadWhere db user kbId) := by
  rw [buildKnowledgeBaseReadWhere_view]
  exact Table.find?_restrict db.knowledgeBases fun kb hkb h => isMemberKb_of_where hadmin hkb h

theorem assertKnowledgeBaseRead_view (hadmin : user.isAdmin = false) (kbId : Id) :
    assertKnowledgeBaseRead (view db user) user kbId = assertKnowledgeBaseRead db user kbId := by
  rw [assertKnowledgeBaseRead, find?_knowledgeBases_view hadmin, assertKnowledgeBaseRead]

/-- A knowledge base that was read is one of the user's. -/
theorem isMemberKb_of_assert (hadmin : user.isAdmin = false) {kbId : Id} {kb : KnowledgeBase}
    (h : assertKnowledgeBaseRead db user kbId = .ok kb) : isMemberKb db user kb.id = true := by
  unfold assertKnowledgeBaseRead at h
  split at h
  · cases h
  · rename_i hfound
    cases h
    exact isMemberKb_of_where hadmin (List.mem_of_find?_eq_some hfound) (List.find?_some hfound)

theorem assertKnowledgeBaseRole_view (hadmin : user.isAdmin = false) (kbId : Id)
    (allowedRoles : List KbRole) :
    assertKnowledgeBaseRole (view db user) user kbId allowedRoles =
      assertKnowledgeBaseRole db user kbId allowedRoles := by
  rw [assertKnowledgeBaseRole, find?_knowledgeBases_view hadmin, assertKnowledgeBaseRole]
  simp only [get?_members_view]

theorem knowledgeBaseView_view (kb : KnowledgeBase) :
    knowledgeBaseView (view db user) user kb = knowledgeBaseView db user kb := by
  have hmembership : membership (view db user) user kb = membership db user kb :=
    Table.find?_restrict db.members fun _ _ hm => seesMember_of_own (of_decide_eq_true hm).2
  rw [knowledgeBaseView, knowledgeBaseView, hmembership]

theorem findAllKnowledgeBases_view (hadmin : user.isAdmin = false) :
    findAllKnowledgeBases (view db user) user = findAllKnowledgeBases db user := by
  have hrows : (view db user).knowledgeBases.findMany (buildKnowledgeBaseReadWhere db user none)
      (fun a b => decide (b.updatedAt ≤ a.updatedAt)) =
        db.knowledgeBases.findMany (buildKnowledgeBaseReadWhere db user none)
          fun a b => decide (b.updatedAt ≤ a.updatedAt) :=
    Table.findMany_restrict db.knowledgeBases _ fun kb hkb h => isMemberKb_of_where hadmin hkb h
  rw [findAllKnowledgeBases, findAllKnowledgeBases, buildKnowledgeBaseReadWhere_view, hrows]
  exact List.map_congr_left fun kb _ => knowledgeBaseView_view kb

theorem findOneKnowledgeBase_view (hadmin : user.isAdmin = false) (kbId : Id) :
    findOneKnowledgeBase (view db user) user kbId = findOneKnowledgeBase db user kbId := by
  rw [findOneKnowledgeBase, findOneKnowledgeBase, assertKnowledgeBaseRead_view hadmin]
  cases hkb : assertKnowledgeBaseRead db user kbId with
  | error e => rfl
  | ok kb =>
    have hsees := isMemberKb_of_assert hadmin hkb
    have hmembers : (view db user).members.rows.countP (fun m => decide (m.kbId = kb.id)) =
        db.members.rows.countP fun m => decide (m.kbId = kb.id) :=
      Table.countP_restrict db.members fun m _ hm => by
        rw [seesMember, of_decide_eq_true hm, hsees, Bool.or_true]
    have hdocuments : (view db user).documents.rows.countP (fun d => decide (d.kbId = kb.id)) =
        db.documents.rows.countP fun d => decide (d.kbId = kb.id) :=
      Table.countP_restrict db.documents fun d _ hd => by
        rw [seesDocument, of_decide_eq_true hd, hsees]
    simp only [knowledgeBaseView_view, hmembers, hdocuments]

/-! ## Documents -/

theorem buildDocumentReadWhere_view (hadmin : user.isAdmin = false) (documentId : Option Id) :
    buildDocumentReadWhere (view db user) user documentId =
      buildDocumentReadWhere db user documentId := by
  funext d
  rw [buildDocumentReadWhere, any_kbReadable_view hadmin, buildDocumentReadWhere]

theorem seesDocument_of_where (hadmin : user.isAdmin = false) {documentId : Option Id}
    {d : Document} (h : buildDocumentReadWhere db user documentId d = true) :
    seesDocument db user d = true := by
  simp only [buildDocumentReadWhere, Bool.and_eq_true] at h
  exact isMemberKb_of_any_kbReadable hadmin h.2

theorem assertDocumentRead_view (hadmin : user.isAdmin = false) (documentId : Id) :
    assertDocumentRead (view db user) user documentId = assertDocumentRead db user documentId := by
  have hfind : (view db user).documents.rows.find?
      (buildDocumentReadWhere db user (some documentId)) =
        db.documents.rows.find? (buildDocumentReadWhere db user (some documentId)) :=
    Table.find?_restrict db.documents fun d _ h => seesDocument_of_where hadmin h
  rw [assertDocumentRead, buildDocumentReadWhere_view hadmin, hfind, assertDocumentRead]

/-- The versions of a document of the user are in the view. -/
theorem latestVersion_view {d : Document} (hd : d ∈ db.documents.rows)
    (hsees : seesDocument db user d = true) :
    latestVersion (view db user) d.id = latestVersion db d.id := by
  have hrows : (view db user).versions.findMany (fun v => decide (v.documentId = d.id))
      latestVersionFirst =
        db.versions.findMany (fun v => decide (v.documentId = d.id)) latestVersionFirst :=
    Table.findMany_restrict db.versions _ fun v _ hv => by
      rw [seesVersion, of_decide_eq_true hv, db.documents.get?_of_mem hd, Option.any_some, hsees]
  rw [latestVersion, hrows, latestVersion]

theorem mem_of_latestVersion {documentId : Id} {v : DocumentVersion}
    (h : latestVersion db documentId = some v) :
    v ∈ db.versions.rows ∧ v.documentId = documentId := by
  obtain ⟨hmem, hdocument⟩ :=
    Table.mem_findMany.mp (List.mem_of_mem_take (List.mem_of_mem_head? h))
  exact ⟨hmem, of_decide_eq_true hdocument⟩

/-- The jobs of a version of the user are in the view. -/
theorem latestIngestJob_view (take : ℕ) {v : DocumentVersion} (hv : v ∈ db.versions.rows)
    (hsees : seesVersion db user v = true) :
    latestIngestJob (view db user) take v.id = latestIngestJob db take v.id := by
  have hrows : (view db user).jobs.findMany (fun j => decide (j.documentVersionId = v.id))
      (fun a b => decide (b.createdAt ≤ a.createdAt)) =
        db.jobs.findMany (fun j => decide (j.documentVersionId = v.id))
          fun a b => decide (b.createdAt ≤ a.createdAt) :=
    Table.findMany_restrict db.jobs _ fun j _ hj => by
      rw [seesJob, of_decide_eq_true hj, db.versions.get?_of_mem hv, Option.any_some, hsees]
  rw [latestIngestJob, hrows, latestIngestJob]

theorem toDocumentListItemView_view (jobs : ℕ) {d : Document} (hd : d ∈ db.documents.rows)
    (hsees : seesDocument db user d = true) :
    toDocumentListItemView (view db user) jobs d = toDocumentListItemView db jobs d := by
  rw [toDocumentListItemView, toDocumentListItemView, latestVersion_view hd hsees]
  cases hversion : latestVersion db d.id with
  | none => rfl
  | some v =>
    obtain ⟨hv, hdocument⟩ := mem_of_latestVersion hversion
    have hvsees : seesVersion db user v = true := by
      rw [seesVersion, hdocument, db.documents.get?_of_mem hd, Option.any_some, hsees]
    simp only [Option.map_some, latestIngestJob_view jobs hv hvsees]

theorem findAllDocuments_view (hadmin : user.isAdmin = false) (kbId : Id) :
    findAllDocuments (view db user) user kbId = findAllDocuments db user kbId := by
  have hrows : (view db user).documents.findMany
      (fun d => buildDocumentReadWhere db user none d && decide (d.kbId = kbId))
      (fun a b => decide (b.createdAt ≤ a.createdAt)) =
        db.documents.findMany
          (fun d => buildDocumentReadWhere db user none d && decide (d.kbId = kbId))
          fun a b => decide (b.createdAt ≤ a.createdAt) :=
    Table.findMany_restrict db.documents _ fun d _ hd =>
      seesDocument_of_where hadmin (Bool.and_eq_true _ _ ▸ hd).1
  rw [findAllDocuments, findAllDocuments, assertKnowledgeBaseRole_view hadmin,
    buildDocumentReadWhere_view hadmin, hrows]
  have hviews : ∀ d ∈ db.documents.findMany
      (fun d => buildDocumentReadWhere db user none d && decide (d.kbId = kbId))
      (fun a b => decide (b.createdAt ≤ a.createdAt)),
      toDocumentListItemView (view db user) 1 d = toDocumentListItemView db 1 d := by
    intro d hd
    obtain ⟨hmem, hwhere⟩ := Table.mem_findMany.mp hd
    simp only [Bool.and_eq_true] at hwhere
    exact toDocumentListItemView_view 1 hmem (seesDocument_of_where hadmin hwhere.1)
  rw [List.map_congr_left hviews]

theorem findOneDocument_view (hadmin : user.isAdmin = false) (embeddingsConfigured : Bool)
    (documentId : Id) :
    findOneDocument embeddingsConfigured (view db user) user documentId =
      findOneDocument embeddingsConfigured db user documentId := by
  rw [findOneDocument, findOneDocument, assertDocumentRead_view hadmin]
  cases hread : assertDocumentRead db user documentId with
  | error e => rfl
  | ok d =>
    have hfound : d ∈ db.documents.rows ∧ seesDocument db user d = true := by
      unfold assertDocumentRead at hread
      split at hread
      · cases hread
      · rename_i hfind
        cases hread
        exact ⟨List.mem_of_find?_eq_some hfind,
          seesDocument_of_where hadmin (List.find?_some hfind)⟩
    simp only [toDocumentListItemView_view 5 hfound.1 hfound.2,
      latestVersion_view hfound.1 hfound.2]

/-! ## Conversations -/

theorem buildConversationReadWhere_view (hadmin : user.isAdmin = false)
    (conversationId : Option Id) :
    buildConversationReadWhere (view db user) user conversationId =
      buildConversationReadWhere db user conversationId := by
  funext c
  rw [buildConversationReadWhere, any_kbReadable_view hadmin, buildConversationReadWhere]

/-- The condition admits conversations of the user in his knowledge bases only. -/
theorem sees_of_conversationWhere (hadmin : user.isAdmin = false) {conversationId : Option Id}
    {c : Conversation} (h : buildConversationReadWhere db user conversationId c = true) :
    seesConversation user c = true ∧ isMemberKb db user c.kbId = true := by
  simp only [buildConversationReadWhere, hadmin, Bool.false_or, Bool.and_eq_true] at h
  exact ⟨h.1.2, isMemberKb_of_any_kbReadable hadmin h.2⟩

theorem getAccessibleConversation_view (hadmin : user.isAdmin = false) (conversationId : Id) :
    getAccessibleConversation (view db user) user conversationId =
      getAccessibleConversation db user conversationId := by
  have hfind : (view db user).conversations.rows.find?
      (buildConversationReadWhere db user (some conversationId)) =
        db.conversations.rows.find? (buildConversationReadWhere db user (some conversationId)) :=
    Table.find?_restrict db.conversations fun c _ h => (sees_of_conversationWhere hadmin h).1
  rw [getAccessibleConversation, buildConversationReadWhere_view hadmin, hfind,
    getAccessibleConversation]

/-- A conversation that was read is one of the user's, in one of his knowledge bases. -/
theorem sees_of_getAccessibleConversation (hadmin : user.isAdmin = false) {conversationId : Id}
    {c : Conversation} (h : getAccessibleConversation db user conversationId = .ok c) :
    c ∈ db.conversations.rows ∧ seesConversation user c = true ∧
      isMemberKb db user c.kbId = true := by
  unfold getAccessibleConversation at h
  split at h
  · cases h
  · rename_i hfind
    cases h
    exact ⟨List.mem_of_find?_eq_some hfind,
      sees_of_conversationWhere hadmin (List.find?_some hfind)⟩

theorem conversationKb_view {c : Conversation} (h : isMemberKb db user c.kbId = true) :
    Chat.conversationKb (view db user) c = Chat.conversationKb db c := by
  have hget : (view db user).knowledgeBases.get? c.kbId = db.knowledgeBases.get? c.kbId :=
    Table.get?_restrict_of_imp db.knowledgeBases fun kb hkb => by rw [Table.key_of_get? hkb, h]
  rw [Chat.conversationKb, hget, Chat.conversationKb]

/-- The messages of a conversation of the user are in the view. -/
theorem messagesDescending_view {c : Conversation} (hc : c ∈ db.conversations.rows)
    (hsees : seesConversation user c = true) :
    Chat.messagesDescending (view db user) c.id = Chat.messagesDescending db c.id :=
  Table.findMany_restrict db.messages _ fun m _ hm => by
    rw [seesMessage, of_decide_eq_true hm, db.conversations.get?_of_mem hc, Option.any_some, hsees]

theorem seesMessage_of_mem {c : Conversation} (hc : c ∈ db.conversations.rows)
    (hsees : seesConversation user c = true) {m : Message}
    (hm : m ∈ Chat.messagesDescending db c.id) :
    m ∈ db.messages.rows ∧ seesMessage db user m = true := by
  obtain ⟨hmem, hconversation⟩ := Table.mem_findMany.mp hm
  refine ⟨hmem, ?_⟩
  rw [seesMessage, of_decide_eq_true hconversation, db.conversations.get?_of_mem hc,
    Option.any_some, hsees]

/-- The citations of a message of the user are in the view. -/
theorem toMessageView_view {m : Message} (hm : m ∈ db.messages.rows)
    (hsees : seesMessage db user m = true) :
    Chat.toMessageView (view db user) m = Chat.toMessageView db m := by
  have hrows : (view db user).citations.table.findMany (fun c => decide (c.messageId = m.id))
      (fun a b => decide (a.rank ≤ b.rank)) =
        db.citations.table.findMany (fun c => decide (c.messageId = m.id))
          fun a b => decide (a.rank ≤ b.rank) :=
    Table.findMany_restrict db.citations.table _ fun c _ hc => by
      rw [seesCitation, of_decide_eq_true hc, db.messages.get?_of_mem hm, Option.any_some, hsees]
  rw [Chat.toMessageView, hrows, Chat.toMessageView]

theorem loadConversationMessages_view {c : Conversation} (hc : c ∈ db.conversations.rows)
    (hsees : seesConversation user c = true) (limit : ℕ) :
    Chat.loadConversationMessages (view db user) c.id limit =
      Chat.loadConversationMessages db c.id limit := by
  rw [Chat.loadConversationMessages, Chat.loadConversationMessages,
    messagesDescending_view hc hsees]
  refine List.map_congr_left fun m hm => ?_
  obtain ⟨hmem, hmsees⟩ :=
    seesMessage_of_mem hc hsees (List.mem_of_mem_take (List.mem_reverse.mp hm))
  exact toMessageView_view hmem hmsees

theorem conversationListItem_view {c : Conversation} (hc : c ∈ db.conversations.rows)
    (hsees : seesConversation user c = true) (hkb : isMemberKb db user c.kbId = true) :
    Chat.conversationListItem (view db user) c = Chat.conversationListItem db c := by
  rw [Chat.conversationListItem, conversationKb_view hkb, messagesDescending_view hc hsees,
    Chat.conversationListItem]

theorem resolveKbScope_view (hadmin : user.isAdmin = false) (dto : Chat.AskQuestionDto) :
    Chat.resolveKbScope (view db user) user dto = Chat.resolveKbScope db user dto := by
  rw [Chat.resolveKbScope, Chat.resolveKbScope]
  simp only [assertKnowledgeBaseRead_view hadmin, getAccessibleConversation_view hadmin]

theorem listConversations_view (hadmin : user.isAdmin = false) (kbId : Option Id) :
    Chat.listConversations (view db user) user kbId = Chat.listConversations db user kbId := by
  have hrows : (view db user).conversations.findMany
      (fun c => buildConversationReadWhere db user none c && kbId.all (c.kbId = ·))
      (fun a b => decide (b.lastActivityAt ≤ a.lastActivityAt)) =
        db.conversations.findMany
          (fun c => buildConversationReadWhere db user none c && kbId.all (c.kbId = ·))
          fun a b => decide (b.lastActivityAt ≤ a.lastActivityAt) :=
    Table.findMany_restrict db.conversations _ fun c _ hc =>
      (sees_of_conversationWhere hadmin (Bool.and_eq_true _ _ ▸ hc).1).1
  have hitems : ∀ c ∈ db.conversations.findMany
      (fun c => buildConversationReadWhere db user none c && kbId.all (c.kbId = ·))
      (fun a b => decide (b.lastActivityAt ≤ a.lastActivityAt)),
      Chat.conversationListItem (view db user) c = Chat.conversationListItem db c := by
    intro c hc
    obtain ⟨hmem, hwhere⟩ := Table.mem_findMany.mp hc
    simp only [Bool.and_eq_true] at hwhere
    obtain ⟨hsees, hkb⟩ := sees_of_conversationWhere hadmin hwhere.1
    exact conversationListItem_view hmem hsees hkb
  have hfound := List.map_congr_left hitems
  simp only [Chat.listConversations, buildConversationReadWhere_view hadmin, hrows, hfound,
    resolveKbScope_view hadmin]

theorem getConversation_view (hadmin : user.isAdmin = false) (messageLimit : ℕ)
    (conversationId : Id) :
    Chat.getConversation messageLimit (view db user) user conversationId =
      Chat.getConversation messageLimit db user conversationId := by
  rw [Chat.getConversation, Chat.getConversation, getAccessibleConversation_view hadmin]
  cases hread : getAccessibleConversation db user conversationId with
  | error e => rfl
  | ok c =>
    obtain ⟨hc, hsees, hkb⟩ := sees_of_getAccessibleConversation hadmin hread
    simp only [conversationKb_view hkb, loadConversationMessages_view hc hsees]

theorem getConversationMessages_view (hadmin : user.isAdmin = false) (messageLimit : ℕ)
    (conversationId : Id) (limit : Option ℕ) :
    Chat.getConversationMessages messageLimit (view db user) user conversationId limit =
      Chat.getConversationMessages messageLimit db user conversationId limit := by
  rw [Chat.getConversationMessages, Chat.getConversationMessages,
    getAccessibleConversation_view hadmin]
  cases hread : getAccessibleConversation db user conversationId with
  | error e => rfl
  | ok c =>
    obtain ⟨hc, hsees, -⟩ := sees_of_getAccessibleConversation hadmin hread
    simp only [loadConversationMessages_view hc hsees]

/-! ## Retrieval -/

section Chunks

variable (hfk : ForeignKeys db)
include hfk

/-- The document and the version of a chunk of the user are in the view. -/
theorem get?_view_of_seesChunk {dc : DocumentChunk} (hdc : dc ∈ db.chunkRows)
    (hsees : seesChunk db user dc = true) :
    (view db user).documents.get? dc.documentId = db.documents.get? dc.documentId ∧
      (view db user).versions.get? dc.documentVersionId =
        db.versions.get? dc.documentVersionId := by
  obtain ⟨⟨d, hd, hdkb⟩, v, hv, hvd⟩ := hfk.chunk dc hdc
  have hdsees : seesDocument db user d = true := by
    rw [seesDocument, hdkb]
    exact hsees
  constructor
  · refine Table.get?_restrict_of_imp db.documents fun d' hd' => ?_
    rw [hd] at hd'
    cases hd'
    exact hdsees
  · refine Table.get?_restrict_of_imp db.versions fun v' hv' => ?_
    rw [hv] at hv'
    cases hv'
    rw [seesVersion, hvd, hd, Option.any_some, hdsees]

/-- A chunk of the user is joined to the same rows in the view. -/
theorem buildBaseFromClause_view {dc : DocumentChunk} (hdc : dc ∈ db.chunkRows)
    (hsees : seesChunk db user dc = true) :
    buildBaseFromClause (Chat.searchTables (view db user)) user.id dc =
      buildBaseFromClause (Chat.searchTables db) user.id dc := by
  obtain ⟨hd, hv⟩ := get?_view_of_seesChunk hfk hdc hsees
  have hkb : (view db user).knowledgeBases.get? dc.kbId = db.knowledgeBases.get? dc.kbId :=
    Table.get?_restrict_of_imp db.knowledgeBases fun kb hkb => by
      rw [Table.key_of_get? hkb]
      exact hsees
  simp only [buildBaseFromClause, Chat.versions_searchTables, Chat.documents_searchTables,
    Chat.get?_knowledgeBases_searchTables, Chat.get?_members_searchTables, hd, hv, hkb,
    get?_members_view]

end Chunks

/-- A query of a user who is not an admin admits chunks of his knowledge bases only. -/
theorem seesChunk_of_baseWhere {sql : Retrieval.SqlFunctions} {scope : Scope}
    (huser : scope.userId = user.id) (hscope : scope.isAdmin = false) {dc : DocumentChunk}
    {row : Joined} (hjoined : buildBaseFromClause (Chat.searchTables db) scope.userId dc = some row)
    (hwhere : baseWhere sql scope dc row = true) : seesChunk db user dc = true := by
  obtain ⟨-, -, hkb, hkm⟩ := Retrieval.buildBaseFromClause_eq_some hjoined
  simp only [baseWhere, Retrieval.buildScopeClause, hscope, Bool.false_eq_true, false_or,
    Bool.and_eq_true, decide_eq_true_eq] at hwhere
  obtain ⟨⟨⟨⟨⟨⟨-, hmember⟩, hactive⟩, -⟩, -⟩, -⟩, -⟩ := hwhere
  rw [Chat.get?_knowledgeBases_searchTables, Option.map_eq_some_iff] at hkb
  rw [Chat.get?_members_searchTables] at hkm
  obtain ⟨kb, hget, hrow⟩ := hkb
  have hid : row.kb.id = dc.kbId := by
    rw [← hrow, ← Table.key_of_get? hget]
    rfl
  rw [hkm, hid, huser, Option.isSome_map] at hmember
  rw [← hrow] at hactive
  rw [seesChunk, isMemberKb, hget, Option.any_some, hmember, Bool.and_true]
  exact decide_eq_true hactive

/-- The admitted chunks with the rows that are joined to them. -/
theorem joinedCandidates_view (hfk : ForeignKeys db) {sql : Retrieval.SqlFunctions} {scope : Scope}
    (huser : scope.userId = user.id) (hscope : scope.isAdmin = false)
    {clause : DocumentChunk → Joined → Bool}
    (hclause : ∀ dc row, clause dc row = true → baseWhere sql scope dc row = true) :
    Chat.joinedCandidates (view db user) scope clause = Chat.joinedCandidates db scope clause := by
  have hjoin : ∀ dc ∈ (view db user).chunkRows,
      buildBaseFromClause (Chat.searchTables (view db user)) scope.userId dc =
        buildBaseFromClause (Chat.searchTables db) scope.userId dc := by
    intro dc hdc
    obtain ⟨hmem, hsees⟩ := List.mem_filter.mp hdc
    rw [huser]
    exact buildBaseFromClause_view hfk hmem hsees
  have hrows : candidates (Chat.searchTables (view db user)) scope clause =
      candidates (Chat.searchTables db) scope clause := by
    have hview : candidates (Chat.searchTables (view db user)) scope clause =
        (view db user).chunkRows.filter fun dc =>
          (buildBaseFromClause (Chat.searchTables db) scope.userId dc).any (clause dc) :=
      List.filter_congr fun dc hdc => by rw [hjoin dc hdc]
    rw [hview]
    refine Table.filter_restrict db.chunks.table fun dc _ hdc => ?_
    obtain ⟨row, hrow, hadmitted⟩ := (Option.any_eq_true _ _).mp hdc
    exact seesChunk_of_baseWhere huser hscope hrow (hclause dc row hadmitted)
  rw [Chat.joinedCandidates, Chat.joinedCandidates, ← hrows]
  refine List.filterMap_congr fun dc hdc => ?_
  rw [hjoin dc (List.mem_filter.mp hdc).1]

theorem countIndexedChunks_view (hfk : ForeignKeys db) (uni : EcmaUnicode) {kbId : Id}
    (hkb : isMemberKb db user kbId = true) (filters : Option Chat.ChatFilters) :
    Chat.countIndexedChunks uni (view db user) kbId filters =
      Chat.countIndexedChunks uni db kbId filters := by
  have hcount : (view db user).chunkRows.countP
      (Chat.isIndexedChunk uni (view db user) kbId filters) =
      (view db user).chunkRows.countP (Chat.isIndexedChunk uni db kbId filters) := by
    refine List.countP_congr fun dc hdc => ?_
    obtain ⟨hmem, hsees⟩ := List.mem_filter.mp hdc
    obtain ⟨hd, hv⟩ := get?_view_of_seesChunk hfk hmem hsees
    rw [Chat.isIndexedChunk, hd, hv, Chat.isIndexedChunk]
  rw [Chat.countIndexedChunks, hcount]
  refine Table.countP_restrict db.chunks.table fun dc _ hdc => ?_
  simp only [Chat.isIndexedChunk, Bool.and_eq_true, decide_eq_true_eq] at hdc
  rw [seesChunk, hdc.1.1.1.1.1, hkb]

theorem retrievalReads_view (hadmin : user.isAdmin = false) (hfk : ForeignKeys db)
    (uni : EcmaUnicode) (search : Chat.SearchFunctions) (settings : Chat.RetrievalSettings)
    {kbId : Id} (hkb : isMemberKb db user kbId = true) (dto : Chat.AskQuestionDto) :
    Chat.retrievalReads uni search settings (view db user) user kbId dto =
      Chat.retrievalReads uni search settings db user kbId dto := by
  let scope : Scope :=
    { kbId := kbId
      userId := user.id
      isAdmin := user.isAdmin
      filters := Chat.normalizeFilters uni dto.filters }
  have hsemantic : ∀ limit embedding dim model,
      Chat.fetchSemanticCandidates uni search (view db user)
          { scope := scope, candidateLimit := limit } embedding dim model =
        Chat.fetchSemanticCandidates uni search db
          { scope := scope, candidateLimit := limit } embedding dim model := by
    intro limit embedding dim model
    rw [Chat.fetchSemanticCandidates, Chat.fetchSemanticCandidates, joinedCandidates_view hfk
      rfl hadmin fun _ _ => Retrieval.baseWhere_of_semanticWhere]
  have hlexical : ∀ limit query,
      Chat.fetchLexicalCandidates uni search (view db user)
          { scope := scope, candidateLimit := limit } query =
        Chat.fetchLexicalCandidates uni search db
          { scope := scope, candidateLimit := limit } query := by
    intro limit query
    rw [Chat.fetchLexicalCandidates, Chat.fetchLexicalCandidates, joinedCandidates_view hfk
      rfl hadmin fun _ _ => Retrieval.baseWhere_of_lexicalWhere]
  rw [Chat.retrievalReads, Chat.retrievalReads]
  simp only [countIndexedChunks_view hfk uni hkb, scope, hsemantic, hlexical]

/-- The knowledge base of a question is one of the user's. -/
theorem isMemberKb_of_resolveKbScope (hadmin : user.isAdmin = false) {dto : Chat.AskQuestionDto}
    {kb : KnowledgeBase} (h : Chat.resolveKbScope db user dto = .ok kb) :
    isMemberKb db user kb.id = true := by
  unfold Chat.resolveKbScope at h
  split at h
  · exact isMemberKb_of_assert hadmin h
  · cases h
  · split at h
    · cases h
    · exact isMemberKb_of_assert hadmin h

theorem askReads_view (hadmin : user.isAdmin = false) (hfk : ForeignKeys db) (uni : EcmaUnicode)
    (search : Chat.SearchFunctions) (settings : Chat.RetrievalSettings)
    (dto : Chat.AskQuestionDto) :
    Chat.askReads uni search settings (view db user) user dto =
      Chat.askReads uni search settings db user dto := by
  have hcheck : ∀ kbId, Chat.checkConversation (view db user) user kbId dto.conversationId =
      Chat.checkConversation db user kbId dto.conversationId := by
    intro kbId
    simp only [Chat.checkConversation, getAccessibleConversation_view hadmin]
  rw [Chat.askReads, Chat.askReads, resolveKbScope_view hadmin]
  cases hscope : Chat.resolveKbScope db user dto with
  | error e => rfl
  | ok kb =>
    have hkb := isMemberKb_of_resolveKbScope hadmin hscope
    simp only [hcheck, retrievalReads_view hadmin hfk uni search settings hkb]

end Conditions

/-! ## Noninterference -/

section Noninterference

variable {user : AuthenticatedUser} {db db' : Database}

/-- A read gives the same result on the view of the user. -/
theorem respond_view (ctx : ReadContext) (hadmin : user.isAdmin = false) (hfk : ForeignKeys db)
    (request : ReadRequest) :
    respond ctx user (view db user) request = respond ctx user db request := by
  cases request with
  | findAllKnowledgeBases => rw [respond, findAllKnowledgeBases_view hadmin, respond]
  | findOneKnowledgeBase kbId => rw [respond, findOneKnowledgeBase_view hadmin, respond]
  | findAllDocuments kbId => rw [respond, findAllDocuments_view hadmin, respond]
  | findOneDocument documentId => rw [respond, findOneDocument_view hadmin, respond]
  | listConversations kbId => rw [respond, listConversations_view hadmin, respond]
  | getConversation conversationId => rw [respond, getConversation_view hadmin, respond]
  | getConversationMessages conversationId limit =>
    rw [respond, getConversationMessages_view hadmin, respond]
  | ask dto => rw [respond, askReads_view hadmin hfk, respond]

/-- The foreign keys do not depend on the order of the rows. -/
theorem SameRows.foreignKeys (h : SameRows db db') (hfk : ForeignKeys db) : ForeignKeys db' where
  member m hm := by
    rw [← h.knowledgeBases.get?, ← h.users.get?]
    exact hfk.member m (h.members.mem_iff.mpr hm)
  document d hd := by
    rw [← h.knowledgeBases.get?]
    exact hfk.document d (h.documents.mem_iff.mpr hd)
  version v hv := by
    rw [← h.documents.get?]
    exact hfk.version v (h.versions.mem_iff.mpr hv)
  job j hj := by
    rw [← h.versions.get?]
    exact hfk.job j (h.jobs.mem_iff.mpr hj)
  chunk c hc := by
    rw [← h.documents.get?, ← h.versions.get?]
    exact hfk.chunk c (h.chunks.mem_iff.mpr hc)
  conversation c hc := by
    rw [← h.users.get?, ← h.knowledgeBases.get?]
    exact hfk.conversation c (h.conversations.mem_iff.mpr hc)
  message m hm := by
    rw [← h.conversations.get?]
    exact hfk.message m (h.messages.mem_iff.mpr hm)
  citation c hc := by
    rw [← h.messages.get?, ← h.chunks.get?]
    exact hfk.citation c (h.citations.mem_iff.mpr hc)

/-- Two databases that agree on the rows of a user who is not an admin give him the
    same results: the results that are possible with some order of the rows, and the
    result itself where the rows of the user have the same order. -/
theorem reads_noninterference (hadmin : user.isAdmin = false) (hfk : ForeignKeys db)
    (hfk' : ForeignKeys db') (hagree : AgreeFor user db db') :
    (∀ ctx request result,
      Possible SameRows (fun db => respond ctx user db request) db result ↔
        Possible SameRows (fun db => respond ctx user db request) db' result) ∧
    (view db user = view db' user →
      ∀ ctx request, respond ctx user db request = respond ctx user db' request) := by
  constructor
  · intro ctx request result
    have hsymm : ∀ db db' : Database, SameRows db db' → SameRows db' db :=
      fun _ _ => SameRows.symm
    have hkeys : ∀ db db' : Database, SameRows db db' → ForeignKeys db → ForeignKeys db' :=
      fun _ _ => SameRows.foreignKeys
    have hread : ∀ db, ForeignKeys db →
        respond ctx user (view db user) request = respond ctx user db request :=
      fun _ h => respond_view ctx hadmin h request
    have hlift : ∀ db db' db₁, AgreeFor user db db' → SameRows db db₁ →
        ∃ db₂, SameRows db' db₂ ∧ view db₂ user = view db₁ user :=
      fun _ _ _ => exists_view_eq
    exact possible_iff_of_view hsymm hkeys hread hlift hfk hfk' hagree result
  · intro hview ctx request
    rw [← respond_view ctx hadmin hfk request, hview, respond_view ctx hadmin hfk' request]

end Noninterference

/-! ## A second tenant -/

/-- The guide of user 1, beside a knowledge base of user 2 with a document and a
    conversation. -/
def twoTenants : Database where
  users := ⟨Chat.guideDb.users.rows ++
    [{ id := 2, email := "b@example.com", passwordHash := "y" }], by decide⟩
  knowledgeBases := ⟨Chat.guideDb.knowledgeBases.rows ++ [
    { id := 2
      slug := "other".toList
      name := "Other".toList
      createdAt := 0
      updatedAt := 0 }], by decide⟩
  members := ⟨Chat.guideDb.members.rows ++
    [{ kbId := 2, userId := 2, role := .owner, createdAt := 0 }], by decide⟩
  documents := ⟨Chat.guideDb.documents.rows ++ [
    { id := 2
      kbId := 2
      name := "Other"
      type := "md"
      status := .indexed
      createdAt := 0
      updatedAt := 0 }], by decide⟩
  versions := ⟨Chat.guideDb.versions.rows ++ [
    { id := 2
      documentId := 2
      s3Key := "other"
      status := .indexed
      createdAt := 0
      updatedAt := 0 }], by decide⟩
  jobs := .empty
  chunks := ⟨⟨Chat.guideDb.chunkRows ++ [
    { Chat.bareChunk "Install the worker.".toList with
      id := 2
      documentId := 2
      documentVersionId := 2
      kbId := 2 }], by decide⟩, by decide⟩
  conversations := ⟨[
    { id := 1
      userId := 2
      kbId := 2
      lastActivityAt := 1
      createdAt := 1
      updatedAt := 1 }], by decide⟩
  messages := ⟨[
    { id := 1
      conversationId := 1
      role := .user
      content := "worker".toList
      createdAt := 1 }], by decide⟩
  citations := .empty

theorem foreignKeys_guideDb : ForeignKeys Chat.guideDb where
  member := by decide
  document := by decide
  version := by decide
  job := by decide
  chunk := by
    intro c hc
    rw [List.mem_singleton.mp hc]
    exact ⟨⟨_, rfl, rfl⟩, _, rfl, rfl⟩
  conversation := by decide
  message := by decide
  citation c hc := by cases hc

theorem foreignKeys_twoTenants : ForeignKeys twoTenants where
  member := by decide
  document := by decide
  version := by decide
  job := by decide
  chunk := by
    intro c hc
    rcases List.mem_cons.mp hc with rfl | hc
    · exact ⟨⟨_, rfl, rfl⟩, _, rfl, rfl⟩
    · rw [List.mem_singleton.mp hc]
      exact ⟨⟨_, rfl, rfl⟩, _, rfl, rfl⟩
  conversation := by decide
  message := by decide
  citation c hc := by cases hc

/-- User 1 does not see the second tenant. -/
theorem agreeFor_twoTenants : AgreeFor { id := 1 } Chat.guideDb twoTenants where
  users := List.Perm.refl []
  knowledgeBases := List.Perm.refl _
  members := List.Perm.refl _
  documents := List.Perm.refl _
  versions := List.Perm.refl _
  jobs := List.Perm.refl _
  chunks := List.Perm.refl _
  conversations := List.Perm.refl _
  messages := List.Perm.refl _
  citations := List.Perm.refl _

theorem reads_noninterference_twoTenants :
    (∀ ctx request result,
      Possible SameRows (fun db => respond ctx { id := 1 } db request) Chat.guideDb result ↔
        Possible SameRows (fun db => respond ctx { id := 1 } db request) twoTenants result) ∧
    (view Chat.guideDb { id := 1 } = view twoTenants { id := 1 } →
      ∀ ctx request, respond ctx { id := 1 } Chat.guideDb request =
        respond ctx { id := 1 } twoTenants request) :=
  reads_noninterference (by decide) foreignKeys_guideDb foreignKeys_twoTenants agreeFor_twoTenants

end RagStack.Access

import RagStack.Access.Authorization
import RagStack.Common.Views

/-!
# What a user may see

The rows that belong to a user who is not an admin: his memberships, his
conversations with their messages and citations, and everything but the
conversations of others in the active knowledge bases that he is a member of.

* `view` — the database with these rows only.
* `AgreeFor` — the views of two databases have the same rows.
* `exists_view_eq`: an order of the rows of one view can be taken over to the other
  database.
-/

namespace RagStack.Access

open RagStack.Common RagStack.Api
open RagStack.Ingest (Id Document DocumentVersion IngestJob DocumentChunk ChunkTable)

/-! ## The rows of a user -/

section View

variable (db : Database) (user : AuthenticatedUser)

/-- The knowledge base is active, and the user is a member of it. -/
def isMemberKb (kbId : Id) : Bool :=
  (db.knowledgeBases.get? kbId).any fun kb =>
    decide (kb.status = .active) && (db.members.get? (kbId, user.id)).isSome

def seesMember (m : KbMember) : Bool := decide (m.userId = user.id) || isMemberKb db user m.kbId

def seesDocument (d : Document) : Bool := isMemberKb db user d.kbId

def seesVersion (v : DocumentVersion) : Bool :=
  (db.documents.get? v.documentId).any (seesDocument db user)

def seesJob (j : IngestJob) : Bool :=
  (db.versions.get? j.documentVersionId).any (seesVersion db user)

def seesChunk (dc : DocumentChunk) : Bool := isMemberKb db user dc.kbId

def seesConversation (c : Conversation) : Bool := c.userId = user.id

def seesMessage (m : Message) : Bool :=
  (db.conversations.get? m.conversationId).any (seesConversation user)

def seesCitation (c : Citation) : Bool :=
  (db.messages.get? c.messageId).any (seesMessage db user)

end View

/-- The chunks that satisfy `p`. -/
def restrictChunks (chunks : ChunkTable) (p : DocumentChunk → Bool) : ChunkTable where
  table := chunks.table.restrict p
  active_nodup :=
    chunks.active_nodup.sublist ((List.filter_sublist.filter _).map DocumentChunk.versionChunk)

/-- The citations that satisfy `p`. -/
def restrictCitations (citations : CitationTable) (p : Citation → Bool) : CitationTable where
  table := citations.table.restrict p
  messageChunk_nodup :=
    citations.messageChunk_nodup.sublist (List.filter_sublist.map Citation.messageChunk)

/-- The database with the rows of the user only. -/
def view (db : Database) (user : AuthenticatedUser) : Database where
  users := db.users.restrict fun _ => false
  knowledgeBases := db.knowledgeBases.restrict fun kb => isMemberKb db user kb.id
  members := db.members.restrict (seesMember db user)
  documents := db.documents.restrict (seesDocument db user)
  versions := db.versions.restrict (seesVersion db user)
  jobs := db.jobs.restrict (seesJob db user)
  chunks := restrictChunks db.chunks (seesChunk db user)
  conversations := db.conversations.restrict (seesConversation user)
  messages := db.messages.restrict (seesMessage db user)
  citations := restrictCitations db.citations (seesCitation db user)

/-! ## The same rows -/

/-- The tables of the two databases have the same rows. -/
structure SameRows (db db' : Database) : Prop where
  users : db.users.SameRows db'.users
  knowledgeBases : db.knowledgeBases.SameRows db'.knowledgeBases
  members : db.members.SameRows db'.members
  documents : db.documents.SameRows db'.documents
  versions : db.versions.SameRows db'.versions
  jobs : db.jobs.SameRows db'.jobs
  chunks : db.chunks.table.SameRows db'.chunks.table
  conversations : db.conversations.SameRows db'.conversations
  messages : db.messages.SameRows db'.messages
  citations : db.citations.table.SameRows db'.citations.table

/-- The two databases agree on the rows of the user. -/
def AgreeFor (user : AuthenticatedUser) (db db' : Database) : Prop :=
  SameRows (view db user) (view db' user)

theorem SameRows.symm {db db' : Database} (h : SameRows db db') : SameRows db' db where
  users := List.Perm.symm h.users
  knowledgeBases := List.Perm.symm h.knowledgeBases
  members := List.Perm.symm h.members
  documents := List.Perm.symm h.documents
  versions := List.Perm.symm h.versions
  jobs := List.Perm.symm h.jobs
  chunks := List.Perm.symm h.chunks
  conversations := List.Perm.symm h.conversations
  messages := List.Perm.symm h.messages
  citations := List.Perm.symm h.citations

section SameRows

variable {db db' : Database} (h : SameRows db db') (user : AuthenticatedUser)
include h

theorem SameRows.isMemberKb : isMemberKb db' user = isMemberKb db user := by
  funext kbId
  simp only [Access.isMemberKb, h.knowledgeBases.get?, h.members.get?]

/-- What the user sees does not depend on the order of the rows. -/
theorem SameRows.sees :
    seesMember db' user = seesMember db user ∧ seesDocument db' user = seesDocument db user ∧
      seesVersion db' user = seesVersion db user ∧ seesJob db' user = seesJob db user ∧
      seesChunk db' user = seesChunk db user ∧
      seesMessage db' user = seesMessage db user ∧
      seesCitation db' user = seesCitation db user := by
  have hmember : seesMember db' user = seesMember db user := by
    funext m
    rw [seesMember, seesMember, h.isMemberKb]
  have hdocument : seesDocument db' user = seesDocument db user := by
    funext d
    rw [seesDocument, seesDocument, h.isMemberKb]
  have hversion : seesVersion db' user = seesVersion db user := by
    funext v
    rw [seesVersion, seesVersion, hdocument, h.documents.get?]
  have hjob : seesJob db' user = seesJob db user := by
    funext j
    rw [seesJob, seesJob, hversion, h.versions.get?]
  have hchunk : seesChunk db' user = seesChunk db user := by
    funext dc
    rw [seesChunk, seesChunk, h.isMemberKb]
  have hmessage : seesMessage db' user = seesMessage db user := by
    funext m
    rw [seesMessage, seesMessage, h.conversations.get?]
  have hcitation : seesCitation db' user = seesCitation db user := by
    funext c
    rw [seesCitation, seesCitation, hmessage, h.messages.get?]
  exact ⟨hmember, hdocument, hversion, hjob, hchunk, hmessage, hcitation⟩

end SameRows

theorem exists_restrictChunks_eq {t t' t₁ : ChunkTable} {q q' : DocumentChunk → Bool}
    (h : (t.table.restrict q).SameRows (t'.table.restrict q')) (h₁ : t.table.SameRows t₁.table) :
    ∃ t₂ : ChunkTable, t'.table.SameRows t₂.table ∧
      restrictChunks t₂ q' = restrictChunks t₁ q := by
  obtain ⟨table, hrows, hrestrict⟩ := Table.exists_restrict_eq h h₁
  have hactive := ((List.Perm.filter DocumentChunk.isActive hrows).map
    DocumentChunk.versionChunk).nodup_iff.mp t'.active_nodup
  exact ⟨⟨table, hactive⟩, hrows, by simp only [restrictChunks, hrestrict]⟩

theorem exists_restrictCitations_eq {t t' t₁ : CitationTable} {q q' : Citation → Bool}
    (h : (t.table.restrict q).SameRows (t'.table.restrict q')) (h₁ : t.table.SameRows t₁.table) :
    ∃ t₂ : CitationTable, t'.table.SameRows t₂.table ∧
      restrictCitations t₂ q' = restrictCitations t₁ q := by
  obtain ⟨table, hrows, hrestrict⟩ := Table.exists_restrict_eq h h₁
  have hkeys := (List.Perm.map Citation.messageChunk hrows).nodup_iff.mp t'.messageChunk_nodup
  exact ⟨⟨table, hkeys⟩, hrows, by simp only [restrictCitations, hrestrict]⟩

/-- Where the views of two databases have the same rows, each order of the rows of
    one has an order of the rows of the other with the same view. -/
theorem exists_view_eq {user : AuthenticatedUser} {db db' db₁ : Database}
    (h : AgreeFor user db db') (h₁ : SameRows db db₁) :
    ∃ db₂, SameRows db' db₂ ∧ view db₂ user = view db₁ user := by
  obtain ⟨knowledgeBases, hkbs, hkbsView⟩ :=
    Table.exists_restrict_eq h.knowledgeBases h₁.knowledgeBases
  obtain ⟨members, hmembers, hmembersView⟩ := Table.exists_restrict_eq h.members h₁.members
  obtain ⟨documents, hdocuments, hdocumentsView⟩ :=
    Table.exists_restrict_eq h.documents h₁.documents
  obtain ⟨versions, hversions, hversionsView⟩ := Table.exists_restrict_eq h.versions h₁.versions
  obtain ⟨jobs, hjobs, hjobsView⟩ := Table.exists_restrict_eq h.jobs h₁.jobs
  obtain ⟨chunks, hchunks, hchunksView⟩ := exists_restrictChunks_eq h.chunks h₁.chunks
  obtain ⟨conversations, hconversations, hconversationsView⟩ :=
    Table.exists_restrict_eq h.conversations h₁.conversations
  obtain ⟨messages, hmessages, hmessagesView⟩ := Table.exists_restrict_eq h.messages h₁.messages
  obtain ⟨citations, hcitations, hcitationsView⟩ :=
    exists_restrictCitations_eq h.citations h₁.citations
  obtain ⟨users, husers, husersView⟩ := Table.exists_restrict_eq h.users h₁.users
  have hrows : SameRows db' ⟨users, knowledgeBases, members, documents, versions, jobs, chunks,
      conversations, messages, citations⟩ :=
    ⟨husers, hkbs, hmembers, hdocuments, hversions, hjobs, hchunks, hconversations, hmessages,
      hcitations⟩
  refine ⟨_, hrows, ?_⟩
  obtain ⟨hm, hd, hv, hj, hc, hmsg, hcit⟩ := hrows.sees user
  obtain ⟨hm₁, hd₁, hv₁, hj₁, hc₁, hmsg₁, hcit₁⟩ := h₁.sees user
  simp only [view, hm, hd, hv, hj, hc, hmsg, hcit, hm₁, hd₁, hv₁, hj₁, hc₁, hmsg₁, hcit₁,
    hrows.isMemberKb, h₁.isMemberKb, husersView, hkbsView, hmembersView, hdocumentsView,
    hversionsView, hjobsView, hchunksView, hconversationsView, hmessagesView, hcitationsView]

end RagStack.Access

import RagStack.Access.Members

/-!
# The life of a knowledge base

`create`, `update`, `remove`, `addMember` and `removeMember` of
`services/api/src/knowledge-bases/knowledge-bases.service.ts` by any number of users on one
database, one database step at a time.

* `kbStep` — one step of a call.
* `kbStep_cases`: what a step can do. Each write comes from a call that was authorized.
* `archived_is_final`: once a knowledge base is archived and no authorized call is under way, no
  call changes the knowledge base or its members any more.

The store keeps, beside the tables, the roles that were granted. No step reads them.
-/

namespace RagStack.Access

open RagStack.Common RagStack.Api
open RagStack.Worker (Text)
open RagStack.Ingest (Id Time)

/-! ## Writes -/

/-- `UpdateKnowledgeBaseDto`: a field is missing, `null` or a value. -/
structure UpdateKnowledgeBaseDto where
  name : Option (Option Text) := none
  description : Option (Option Text) := none
  visibility : Option (Option KbVisibility) := none
deriving DecidableEq, Repr

/-- The row after an update with the fields that are there. -/
def setFields (dto : UpdateKnowledgeBaseDto) (now : Time) (kb : KnowledgeBase) :
    KnowledgeBase :=
  { kb with
    name := dto.name.join.getD kb.name
    description := dto.description.getD kb.description
    visibility := dto.visibility.join.getD kb.visibility
    updatedAt := now }

/-- The row after `remove`. -/
def archive (now : Time) (kb : KnowledgeBase) : KnowledgeBase :=
  { kb with status := .archived, archivedAt := some now, updatedAt := now }

theorem id_setFields (dto : UpdateKnowledgeBaseDto) (now : Time) (kb : KnowledgeBase) :
    (setFields dto now kb).id = kb.id := rfl

theorem id_archive (now : Time) (kb : KnowledgeBase) : (archive now kb).id = kb.id := rfl

/-- `knowledgeBase.update({ where: { id } })`; `none` when there is no such row. -/
def updateKnowledgeBase (kbId : Id) (f : KnowledgeBase → KnowledgeBase)
    (hf : ∀ kb, (f kb).id = kb.id) (db : Database) : Option Database :=
  if (db.knowledgeBases.get? kbId).isSome then
    some { db with knowledgeBases := db.knowledgeBases.update kbId f hf }
  else none

/-- `knowledgeBase.create` with its first member (lines 25–38); `none` when a constraint refuses
    it. -/
def insertKnowledgeBase (user : AuthenticatedUser) (dto : CreateKnowledgeBaseDto) (slug : Text)
    (kbId : Id) (now : Time) (db : Database) : Option Database := do
  let kb : KnowledgeBase :=
    { id := kbId, slug := slug, name := dto.name, description := dto.description
      visibility := dto.visibility, createdAt := now, updatedAt := now }
  let owner : KbMember := { kbId := kbId, userId := user.id, role := .owner, createdAt := now }
  guard ((db.users.get? user.id).isSome ∧ slugTaken db slug = false)
  let knowledgeBases ← db.knowledgeBases.insert? kb
  let members ← db.members.insert? owner
  return { db with knowledgeBases := knowledgeBases, members := members }

/-! ## Calls, one step at a time -/

/-- A call of `KnowledgeBasesService` that changes a knowledge base. -/
inductive KbCall
  /-- `create` under the UUID `kbId`. -/
  | create (user : AuthenticatedUser) (dto : CreateKnowledgeBaseDto) (kbId : Id)
  | update (kbId : Id) (user : AuthenticatedUser) (dto : UpdateKnowledgeBaseDto)
  | remove (kbId : Id) (user : AuthenticatedUser)
  | member (request : MemberRequest)
deriving DecidableEq, Repr

/-- The knowledge base of a call. -/
def KbCall.kbId : KbCall → Id
  | create _ _ kbId | update kbId _ _ | remove kbId _ => kbId
  | member request => request.kbId

/-- How far a call has come. -/
inductive KbState
  | start
  /-- `generateUniqueSlug` tries a candidate. -/
  | searching (search : SlugSearch)
  /-- The candidate is free. -/
  | slugged (slug : Text)
  /-- `assertKbAccess` has let the call through. -/
  | authorized
  /-- `remove` has written its audit entry. -/
  | audited
  | written
  | returned
  /-- `addMember` and `removeMember`. -/
  | member (state : MemberState)
  | failed (error : HttpException)

/-- By whom a role was granted. -/
inductive Grantor
  | creation
  | admin (user : AuthenticatedUser)
  | owner (userId : Id)
deriving DecidableEq, Repr

/-- A role that was granted. -/
structure Grant where
  kbId : Id
  userId : Id
  role : KbRole
  grantor : Grantor
deriving DecidableEq, Repr

/-- The tables, and the roles that were granted. -/
structure KbStore where
  db : Database
  grants : List Grant := []

/-- The grant of a request that has written. -/
def MemberRequest.grant? (request : MemberRequest) : Option Grant :=
  request.nextRole.map fun role =>
    { kbId := request.kbId, userId := request.target, role := role
      grantor :=
        if request.author.isAdmin then .admin request.author else .owner request.author.id }

/-- One step of `addMember` or `removeMember`. -/
def memberCallStep (request : MemberRequest) (s : KbStore) (state : MemberState) (io : StepIO) :
    Option (KbStore × KbState) :=
  (memberStep request s.db state io).map fun (db, state') =>
    let granted := if state' = .written then request.grant?.toList else []
    ({ db := db, grants := s.grants ++ granted }, .member state')

/-- One step of `create`; each turn of the loop in `generateUniqueSlug` is a step. -/
def createStep (uni : EcmaUnicode) (user : AuthenticatedUser) (dto : CreateKnowledgeBaseDto)
    (kbId : Id) (s : KbStore) (state : KbState) (io : StepIO) : Option (KbStore × KbState) :=
  let baseSlug := slugifyKnowledgeBaseName uni dto.name
  match state with
  | .start => some (s, .searching { candidate := baseSlug })
  | .searching search =>
    if slugTaken s.db search.candidate then
      some (s, .searching
        { candidate := suffixed baseSlug search.suffix, suffix := search.suffix + 1 })
    else some (s, .slugged search.candidate)
  | .slugged slug =>
    match insertKnowledgeBase user dto slug kbId io.now s.db with
    | none => some (s, .failed .internal)
    | some db =>
      let grant : Grant := { kbId := kbId, userId := user.id, role := .owner, grantor := .creation }
      some ({ db := db, grants := s.grants ++ [grant] }, .written)
  -- `audit.logAction` touches none of the tables
  | .written => some (s, .returned)
  | _ => none

/-- One step of `update`. -/
def updateStep (kbId : Id) (user : AuthenticatedUser) (dto : UpdateKnowledgeBaseDto) (s : KbStore)
    (state : KbState) (io : StepIO) : Option (KbStore × KbState) :=
  match state with
  | .start =>
    match assertKnowledgeBaseRole s.db user kbId [.owner, .editor] with
    | .error error => some (s, .failed error)
    | .ok _ => some (s, .authorized)
  | .authorized =>
    if dto.name = some none ∨ dto.visibility = some none then some (s, .failed .internal)
    else
      match updateKnowledgeBase kbId (setFields dto io.now) (id_setFields dto io.now) s.db with
      | none => some (s, .failed .internal)
      | some db => some ({ s with db := db }, .written)
  | .written => some (s, .returned)
  | _ => none

/-- One step of `remove`; the audit entry comes before the write. -/
def removeStep (kbId : Id) (user : AuthenticatedUser) (s : KbStore) (state : KbState)
    (io : StepIO) : Option (KbStore × KbState) :=
  match state with
  | .start =>
    match assertKnowledgeBaseRole s.db user kbId [.owner] with
    | .error error => some (s, .failed error)
    | .ok _ => some (s, .authorized)
  | .authorized => some (s, .audited)
  | .audited =>
    match updateKnowledgeBase kbId (archive io.now) (id_archive io.now) s.db with
    | none => some (s, .failed .internal)
    | some db => some ({ s with db := db }, .returned)
  | _ => none

/-- One step of a call, or a failure of the database in its place. -/
def kbStep (uni : EcmaUnicode) (call : KbCall) (s : KbStore) (state : KbState) (io : StepIO) :
    Option (KbStore × KbState) :=
  let orFails := fun next : Option (KbStore × KbState) =>
    if io.fails then next.map fun _ => (s, .failed .internal) else next
  match call, state with
  | .create user dto kbId, state => orFails (createStep uni user dto kbId s state io)
  | .update kbId user dto, state => orFails (updateStep kbId user dto s state io)
  | .remove kbId user, state => orFails (removeStep kbId user s state io)
  | .member request, .start => memberCallStep request s .start io
  | .member request, .member state => memberCallStep request s state io
  | .member _, _ => none

/-! ## What the steps do -/

/-- The guard of the request has passed, and the write is still to come. -/
def MemberState.Authorized : MemberState → Prop
  | .authorized | .checked | .counting | .allowed => True
  | _ => False

def KbState.Authorized : KbState → Prop
  | .authorized | .audited => True
  | .member state => state.Authorized
  | _ => False

/-- `assertKnowledgeBaseRole` lets the call through. -/
def Admits (db : Database) (kbId : Id) (user : AuthenticatedUser) (allowedRoles : List KbRole) :
    Prop :=
  ∃ access, assertKnowledgeBaseRole db user kbId allowedRoles = .ok access

/-- What one step of a call can do. -/
inductive KbCase (s : KbStore) (io : StepIO) : KbCall → KbState → KbStore → KbState → Prop
  | rest {call state state'} (idle : ¬ state'.Authorized) : KbCase s io call state s state'
  | begin {call state state'} {user : AuthenticatedUser} {allowedRoles : List KbRole}
      (admits : Admits s.db call.kbId user allowedRoles)
      (byOwner : ∀ request, call = .member request →
        user = request.author ∧ allowedRoles = [.owner]) : KbCase s io call state s state'
  | goOn {call state state'} (under : state.Authorized) : KbCase s io call state s state'
  | create {user dto kbId slug db}
      (commits : insertKnowledgeBase user dto slug kbId io.now s.db = some db) :
      KbCase s io (.create user dto kbId) (.slugged slug)
        { db := db
          grants := s.grants ++ [{ kbId := kbId, userId := user.id, role := .owner
                                   grantor := .creation }] }
        .written
  | update {call state state' f db} {hf : ∀ kb, (f kb).id = kb.id} (under : state.Authorized)
      (idle : ¬ state'.Authorized) (commits : updateKnowledgeBase call.kbId f hf s.db = some db) :
      KbCase s io call state { s with db := db } state'
  | write {request db} (commits : request.write io.now s.db = some db) :
      KbCase s io (.member request) (.member .allowed)
        { db := db, grants := s.grants ++ request.grant?.toList } (.member .written)

section Steps

variable {s s' : KbStore} {state state' : KbState} {io : StepIO}

/-- A request that goes on was authorized at its start, or before. -/
theorem memberStep_authorized {request : MemberRequest} {db db' : Database}
    {state state' : MemberState} (h : memberStep request db state io = some (db', state')) :
    db' = db ∧ state' ≠ .written ∧ (state'.Authorized →
        state.Authorized ∨ state = .start ∧ Admits db request.kbId request.author [.owner]) ∨
      state = .allowed ∧ state' = .written ∧ request.write io.now db = some db' := by
  unfold memberStep at h
  split at h
  · cases h
  · cases h
  · by_cases hfails : io.fails = true
    · rw [if_pos hfails] at h
      cases h
      exact Or.inl ⟨rfl, by simp, fun hgoes => absurd hgoes id⟩
    · rw [if_neg hfails] at h
      cases state with
      | start =>
        cases h
        refine Or.inl ⟨rfl, ?_⟩
        unfold afterAccess
        split
        · exact ⟨by simp, fun hgoes => absurd hgoes id⟩
        · rename_i access hpassed
          have hadmits : Admits db request.kbId request.author [.owner] := ⟨access, hpassed⟩
          split
          · exact ⟨by simp, fun _ => Or.inr ⟨rfl, hadmits⟩⟩
          · split_ifs
            · exact ⟨by simp, fun hgoes => absurd hgoes id⟩
            · exact ⟨by simp, fun _ => Or.inr ⟨rfl, hadmits⟩⟩
      | authorized =>
        simp only at h
        split_ifs at h <;> cases h <;> exact Or.inl ⟨rfl, by simp, fun _ => Or.inl trivial⟩
      | checked =>
        simp only at h
        split_ifs at h <;> cases h <;> exact Or.inl ⟨rfl, by simp, fun _ => Or.inl trivial⟩
      | counting =>
        simp only at h
        split_ifs at h <;> cases h <;> exact Or.inl ⟨rfl, by simp, fun _ => Or.inl trivial⟩
      | allowed =>
        simp only at h
        split at h
        · cases h
          exact Or.inl ⟨rfl, by simp, fun hgoes => absurd hgoes id⟩
        · rename_i hwrite
          cases h
          exact Or.inr ⟨rfl, rfl, hwrite⟩
      | written =>
        cases h
        exact Or.inl ⟨rfl, by simp, fun hgoes => absurd hgoes id⟩
      | returned => cases h
      | failed error => cases h

theorem memberCallStep_cases {request : MemberRequest} {member : MemberState}
    (hstate : state = .member member ∨ state = .start ∧ member = .start)
    (h : memberCallStep request s member io = some (s', state')) :
    KbCase s io (.member request) state s' state' := by
  obtain ⟨⟨db, member'⟩, hstep, heq⟩ := Option.map_eq_some_iff.mp h
  cases heq
  rcases memberStep_authorized hstep with ⟨rfl, hwritten, hauthorized⟩ | ⟨rfl, rfl, hwrite⟩
  · have hsame : (⟨s.db, s.grants ++ if member' = .written then request.grant?.toList else []⟩ :
        KbStore) = s := by
      rw [if_neg hwritten, List.append_nil]
    simp only [hsame]
    by_cases hgoes : member'.Authorized
    · rcases hauthorized hgoes with hunder | ⟨-, hadmits⟩
      · rcases hstate with rfl | ⟨-, rfl⟩
        · exact .goOn hunder
        · exact absurd hunder id
      · exact .begin hadmits fun _ heq => by cases heq; exact ⟨rfl, rfl⟩
    · exact .rest hgoes
  · rcases hstate with rfl | ⟨-, hstart⟩
    · rw [if_pos rfl]
      exact .write hwrite
    · cases hstart

theorem createStep_cases {uni : EcmaUnicode} {user : AuthenticatedUser}
    {dto : CreateKnowledgeBaseDto} {kbId : Id}
    (h : createStep uni user dto kbId s state io = some (s', state')) :
    KbCase s io (.create user dto kbId) state s' state' := by
  cases state with
  | start => cases h; exact .rest id
  | searching search =>
    simp only [createStep] at h
    split_ifs at h <;> (cases h; exact .rest id)
  | slugged slug =>
    simp only [createStep] at h
    split at h
    · cases h; exact .rest id
    · rename_i hinsert
      cases h
      exact .create hinsert
  | written => cases h; exact .rest id
  | _ => cases h

theorem updateStep_cases {kbId : Id} {user : AuthenticatedUser} {dto : UpdateKnowledgeBaseDto}
    (h : updateStep kbId user dto s state io = some (s', state')) :
    KbCase s io (.update kbId user dto) state s' state' := by
  cases state with
  | start =>
    simp only [updateStep] at h
    split at h
    · cases h; exact .rest id
    · rename_i access hpassed
      cases h
      exact .begin ⟨access, hpassed⟩ nofun
  | authorized =>
    simp only [updateStep] at h
    split_ifs at h
    · cases h; exact .rest id
    · split at h
      · cases h; exact .rest id
      · rename_i hupdate
        cases h
        exact .update trivial id hupdate
  | written => cases h; exact .rest id
  | _ => cases h

theorem removeStep_cases {kbId : Id} {user : AuthenticatedUser}
    (h : removeStep kbId user s state io = some (s', state')) :
    KbCase s io (.remove kbId user) state s' state' := by
  cases state with
  | start =>
    simp only [removeStep] at h
    split at h
    · cases h; exact .rest id
    · rename_i access hpassed
      cases h
      exact .begin ⟨access, hpassed⟩ nofun
  | authorized => cases h; exact .goOn trivial
  | audited =>
    simp only [removeStep] at h
    split at h
    · cases h; exact .rest id
    · rename_i hupdate
      cases h
      exact .update trivial id hupdate
  | _ => cases h

theorem kbStep_cases {uni : EcmaUnicode} {call : KbCall}
    (h : kbStep uni call s state io = some (s', state')) : KbCase s io call state s' state' := by
  unfold kbStep at h
  simp only at h
  split at h
  · split_ifs at h
    · obtain ⟨_, _, heq⟩ := Option.map_eq_some_iff.mp h
      cases heq
      exact .rest id
    · exact createStep_cases h
  · split_ifs at h
    · obtain ⟨_, _, heq⟩ := Option.map_eq_some_iff.mp h
      cases heq
      exact .rest id
    · exact updateStep_cases h
  · split_ifs at h
    · obtain ⟨_, _, heq⟩ := Option.map_eq_some_iff.mp h
      cases heq
      exact .rest id
    · exact removeStep_cases h
  · exact memberCallStep_cases (Or.inr ⟨rfl, rfl⟩) h
  · exact memberCallStep_cases (Or.inl rfl) h
  · cases h

/-! ## Writes of a step -/

theorem insertKnowledgeBase_eq_some {user : AuthenticatedUser} {dto : CreateKnowledgeBaseDto}
    {slug : Text} {kbId : Id} {now : Time} {db db' : Database}
    (h : insertKnowledgeBase user dto slug kbId now db = some db') :
    db.knowledgeBases.get? kbId = none ∧
      (∀ id ≠ kbId, db'.knowledgeBases.get? id = db.knowledgeBases.get? id) ∧
      ∀ kb u, existingRole db' kb u =
        if (kb, u) = (kbId, user.id) then some .owner else existingRole db kb u := by
  simp only [insertKnowledgeBase, Option.bind_eq_bind, Option.pure_def, Option.bind_eq_some_iff,
    Option.some.injEq] at h
  obtain ⟨-, -, knowledgeBases, hkb, members, hmembers, rfl⟩ := h
  refine ⟨Table.get?_eq_none_of_insert? hkb, fun id hid => ?_, fun kb u => ?_⟩
  · rw [Table.get?_insert? hkb, if_neg hid]
  · rw [existingRole, existingRole, Table.get?_insert? hmembers]
    split_ifs with hk hk' hk'
    · rfl
    · exact absurd hk hk'
    · exact absurd hk' hk
    · rfl

theorem updateKnowledgeBase_eq_some {kbId : Id} {f : KnowledgeBase → KnowledgeBase}
    {hf : ∀ kb, (f kb).id = kb.id} {db db' : Database}
    (h : updateKnowledgeBase kbId f hf db = some db') :
    db'.members = db.members ∧
      ∀ id ≠ kbId, db'.knowledgeBases.get? id = db.knowledgeBases.get? id := by
  unfold updateKnowledgeBase at h
  split_ifs at h
  cases h
  exact ⟨rfl, fun id hid => Table.get?_update_of_ne _ hid f hf⟩

theorem knowledgeBases_write {request : MemberRequest} {now : Time} {db db' : Database}
    (h : request.write now db = some db') : db'.knowledgeBases = db.knowledgeBases := by
  cases request with
  | addMember kbId author userId role =>
    simp only [MemberRequest.write, upsertMember] at h
    split at h
    · cases h; rfl
    · split_ifs at h
      obtain ⟨members, -, rfl⟩ := Option.map_eq_some_iff.mp h
      rfl
  | removeMember kbId author targetUserId =>
    simp only [MemberRequest.write, deleteMember] at h
    split at h <;> cases h
    rfl

end Steps

/-! ## Archives -/

/-- The knowledge base was removed. -/
def Archived (db : Database) (kbId : Id) : Prop :=
  ∃ kb, db.knowledgeBases.get? kbId = some kb ∧ kb.status = .archived

/-- Nobody has access to an archived knowledge base, not even an admin. -/
theorem not_admits_archived {db : Database} {kbId : Id} (h : Archived db kbId)
    (user : AuthenticatedUser) (allowedRoles : List KbRole) :
    ¬ Admits db kbId user allowedRoles := by
  rintro ⟨access, haccess⟩
  obtain ⟨kb, hkb, harchived⟩ := h
  unfold assertKnowledgeBaseRole at haccess
  split at haccess
  · cases haccess
  · rename_i found hfound
    have hreadable := List.find?_some hfound
    simp only [buildKnowledgeBaseReadWhere, kbReadable, Option.all_some, Bool.and_eq_true,
      decide_eq_true_eq] at hreadable
    have hget := Table.get?_of_mem db.knowledgeBases (List.mem_of_find?_eq_some hfound)
    rw [hreadable.1, hkb] at hget
    cases hget
    rw [harchived] at hreadable
    exact absurd hreadable.2.1 (by decide)

section Runs

variable {ι : Type} [DecidableEq ι]

/-- The calls `i : ι` on one database. -/
def kbCalls (uni : EcmaUnicode) (call : ι → KbCall) :
    KbStore × (ι → KbState) → ι × StepIO → Option (KbStore × (ι → KbState)) :=
  interleave fun i => kbStep uni (call i)

/-- The knowledge base and its members are as they were. -/
structure Unchanged (kbId : Id) (db db' : Database) : Prop where
  row : db'.knowledgeBases.get? kbId = db.knowledgeBases.get? kbId
  members : ∀ userId, existingRole db' kbId userId = existingRole db kbId userId

theorem Unchanged.trans {kbId : Id} {db db' db'' : Database} (h : Unchanged kbId db db')
    (h' : Unchanged kbId db' db'') : Unchanged kbId db db'' where
  row := h'.row.trans h.row
  members userId := (h'.members userId).trans (h.members userId)

/-- No call of the knowledge base is authorized, and none changes it. -/
theorem unchanged_of_archived {kbId : Id} {s s' : KbStore} {call : KbCall} {state state' : KbState}
    {io : StepIO} (harchived : Archived s.db kbId)
    (hidle : call.kbId = kbId → ¬ state.Authorized) (hs : KbCase s io call state s' state') :
    Unchanged kbId s.db s'.db ∧ (call.kbId = kbId → ¬ state'.Authorized) := by
  have hsame : Unchanged kbId s.db s.db := ⟨rfl, fun _ => rfl⟩
  cases hs with
  | rest idle => exact ⟨hsame, fun _ => idle⟩
  | @begin call state state' user allowedRoles admits byOwner =>
    refine ⟨hsame, fun hkb => ?_⟩
    rw [hkb] at admits
    exact absurd admits (not_admits_archived harchived user allowedRoles)
  | goOn under => exact ⟨hsame, fun hkb => absurd under (hidle hkb)⟩
  | @create user dto kbId' slug db commits =>
    obtain ⟨hfree, hrows, hroles⟩ := insertKnowledgeBase_eq_some commits
    have hne : kbId ≠ kbId' := by
      rintro rfl
      obtain ⟨kb, hkb, -⟩ := harchived
      rw [hfree] at hkb
      cases hkb
    refine ⟨⟨hrows kbId hne, fun userId => ?_⟩, fun _ => id⟩
    rw [hroles, if_neg fun heq => hne (Prod.mk.inj heq).1]
  | update under idle commits =>
    obtain ⟨hmembers, hrows⟩ := updateKnowledgeBase_eq_some commits
    refine ⟨⟨hrows kbId fun hkb => hidle hkb.symm under, fun userId => ?_⟩, fun _ => idle⟩
    rw [existingRole, existingRole, hmembers]
  | @write request db commits =>
    have hne : request.kbId ≠ kbId := fun hkb => hidle hkb trivial
    refine ⟨⟨by rw [knowledgeBases_write commits], fun userId => ?_⟩, fun _ => id⟩
    rw [existingRole_write commits, if_neg fun heq => hne (Prod.mk.inj heq).1.symm]

/-- Once a knowledge base is archived and no call that was authorized for it is under way, no
    later step changes the knowledge base or its members, and no call is authorized for it. -/
theorem archived_is_final (uni : EcmaUnicode) (call : ι → KbCall) (kbId : Id)
    (s : KbStore × (ι → KbState)) (es : List (ι × StepIO)) (harchived : Archived s.1.db kbId)
    (hidle : ∀ i, (call i).kbId = kbId → ¬ (s.2 i).Authorized) :
    Always (kbCalls uni call)
      (fun s' => Unchanged kbId s.1.db s'.1.db ∧
        ∀ i, (call i).kbId = kbId → ¬ (s'.2 i).Authorized) s es := by
  refine always_of_inv ?_ es ⟨⟨rfl, fun _ => rfl⟩, hidle⟩
  intro t ie t' ⟨hsame, hcalls⟩ hs
  obtain ⟨store, l, hstep, rfl⟩ := interleave_eq_some.mp hs
  have harchived' : Archived t.1.db kbId := by
    obtain ⟨kb, hkb, hstatus⟩ := harchived
    exact ⟨kb, hsame.row.trans hkb, hstatus⟩
  have hkeep {l : KbState} (hstep : kbStep uni (call ie.1) t.1 (t.2 ie.1) ie.2 = some (store, l)) :=
    unchanged_of_archived harchived' (hcalls ie.1) (kbStep_cases hstep)
  exact ⟨hsame.trans (hkeep hstep).1, interleave_inv hs
    (J := fun k m => (call k).kbId = kbId → ¬ m.Authorized)
    (fun l hl => (hkeep hl).2) fun _ _ k _ => hcalls k⟩

end Runs

/-- The handbook, archived at time 20. -/
def archivedHandbook : KbStore where
  db := { createdHandbook.1 with
    knowledgeBases := createdHandbook.1.knowledgeBases.update 7 (archive 20) (id_archive 20) }

/-- The owner renames the archived handbook, and an admin makes user 2 an owner of it. -/
def afterArchive : Bool → KbCall
  | false => .update 7 { id := 1 } { name := some (some "Handbook".toList) }
  | true => .member (.addMember 7 { id := 2, userRole := [some .superAdmin] } 2 .owner)

theorem archived_is_final_handbook :
    ∃ s, exec (kbCalls .ascii afterArchive) (archivedHandbook, fun _ => .start)
        [(false, {}), (true, {})] = some s ∧
      Unchanged 7 archivedHandbook.db s.1.db ∧
      ∀ i, (afterArchive i).kbId = 7 → ¬ (s.2 i).Authorized := by
  have hruns : (exec (kbCalls .ascii afterArchive) (archivedHandbook, fun _ => .start)
      [(false, {}), (true, {})]).isSome = true := by
    decide +kernel
  obtain ⟨s, hs⟩ := Option.isSome_iff_exists.mp hruns
  have harchived : (archivedHandbook.db.knowledgeBases.get? 7).any
      (fun kb => kb.status = .archived) = true := by
    decide +kernel
  obtain ⟨kb, hkb, hstatus⟩ := (Option.any_eq_true _ _).mp harchived
  exact ⟨s, hs, (archived_is_final .ascii afterArchive 7 (archivedHandbook, fun _ => .start)
    [(false, {}), (true, {})] ⟨kb, hkb, of_decide_eq_true hstatus⟩ fun _ _ => id).final hs⟩

end RagStack.Access

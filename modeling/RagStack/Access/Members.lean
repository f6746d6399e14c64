import Mathlib.Data.List.Count
import RagStack.Access.KnowledgeBases
import RagStack.Common.Runs

/-!
# Members of a knowledge base

`services/api/src/knowledge-bases/knowledge-bases.service.ts`: `addMember` and
`removeMember`, one database step at a time. The guard
`ensureOwnerMutationAllowed` counts the owners; the write that follows does not
count them again.

* `memberStep` — one step of a request.
* `memberStep_cases`: a request writes once, and only a request that its guard
  has let through.
* `owner_remains_iff`: a knowledge base keeps an owner along exactly those runs
  in which the guard of every write still passes when the write commits.
-/

namespace RagStack.Access

open RagStack.Common RagStack.Api
open RagStack.Ingest (Id Time)

/-! ## Reads and writes -/

/-- `kbMember.findUnique({ where: { kbId_userId } })`. -/
def existingRole (db : Database) (kbId userId : Id) : Option KbRole :=
  (db.members.get? (kbId, userId)).map KbMember.role

/-- The row is an owner of the knowledge base. -/
def isOwnerOf (kbId : Id) (m : KbMember) : Bool := m.kbId = kbId ∧ m.role = .owner

/-- `kbMember.count({ where: { kbId, role: OWNER } })`. -/
def ownerCount (db : Database) (kbId : Id) : ℕ := db.members.rows.countP (isOwnerOf kbId)

/-- The member takes this role from an owner. -/
def takesOwner (existing : Option KbRole) (nextRole : Option KbRole) : Bool :=
  existing = some .owner ∧ nextRole ≠ some .owner

/-- `ensureOwnerMutationAllowed` (lines 246–272), evaluated on one state. -/
def ownerMutationAllowed (db : Database) (kbId targetUserId : Id) (nextRole : Option KbRole) :
    Bool :=
  !takesOwner (existingRole db kbId targetUserId) nextRole || decide (1 < ownerCount db kbId)

def KbMember.setRole (role : KbRole) (m : KbMember) : KbMember := { m with role := role }

theorem key_setRole (role : KbRole) (m : KbMember) : (KbMember.setRole role m).key = m.key := rfl

/-- `kbMember.upsert`; `none` when a foreign key refuses the new row. -/
def upsertMember (kbId userId : Id) (role : KbRole) (now : Time) (db : Database) :
    Option Database :=
  match db.members.get? (kbId, userId) with
  | some _ =>
    some { db with
      members := db.members.update (kbId, userId) (KbMember.setRole role) (key_setRole role) }
  | none =>
    if (db.knowledgeBases.get? kbId).isSome ∧ (db.users.get? userId).isSome then
      (db.members.insert? { kbId := kbId, userId := userId, role := role, createdAt := now }).map
        fun members => { db with members := members }
    else none

/-- `kbMember.delete`; `none` when there is no such row. -/
def deleteMember (kbId userId : Id) (db : Database) : Option Database :=
  match db.members.get? (kbId, userId) with
  | none => none
  | some _ => some { db with members := db.members.delete (kbId, userId) }

/-! ## Requests, one step at a time -/

/-- A call of `addMember` or `removeMember`. -/
inductive MemberRequest
  | addMember (kbId : Id) (author : AuthenticatedUser) (userId : Id) (role : KbRole)
  | removeMember (kbId : Id) (author : AuthenticatedUser) (targetUserId : Id)
deriving DecidableEq, Repr

namespace MemberRequest

def kbId : MemberRequest → Id
  | addMember kbId _ _ _ | removeMember kbId _ _ => kbId

def author : MemberRequest → AuthenticatedUser
  | addMember _ author _ _ | removeMember _ author _ => author

/-- The member that the request changes. -/
def target : MemberRequest → Id
  | addMember _ _ userId _ => userId
  | removeMember _ _ targetUserId => targetUserId

/-- The role that the member has afterwards. -/
def nextRole : MemberRequest → Option KbRole
  | addMember _ _ _ role => some role
  | removeMember _ _ _ => none

/-- The write of the request. -/
def write (request : MemberRequest) (now : Time) (db : Database) : Option Database :=
  match request with
  | addMember kbId _ userId role => upsertMember kbId userId role now db
  | removeMember kbId _ targetUserId => deleteMember kbId targetUserId db

end MemberRequest

/-- How far a request has come. -/
inductive MemberState
  | start
  /-- The author is an owner, or an admin. -/
  | authorized
  /-- The user to add exists; `removeMember` has seen that its target is not its author. -/
  | checked
  /-- An owner is to lose the role. -/
  | counting
  /-- The guard has passed. -/
  | allowed
  | written
  | returned
  | failed (error : HttpException)
deriving DecidableEq, Repr

/-- What one step meets: the time, and whether the database fails. -/
structure StepIO where
  now : Time := 0
  fails : Bool := false
deriving DecidableEq, Repr

/-- The state after `assertKbAccess` (lines 165 and 189–192). -/
def afterAccess (request : MemberRequest) (db : Database) : MemberState :=
  match assertKnowledgeBaseRole db request.author request.kbId [.owner] with
  | .error error => .failed error
  | .ok _ =>
    match request with
    | .addMember _ _ _ _ => .authorized
    | .removeMember _ author targetUserId =>
      if author.id = targetUserId then .failed (.forbidden "Cannot remove yourself as an owner")
      else .checked

/-- One step of a request. -/
def memberStep (request : MemberRequest) (db : Database) (state : MemberState) (io : StepIO) :
    Option (Database × MemberState) :=
  match state with
  | .returned | .failed _ => none
  | state =>
    if io.fails then some (db, .failed .internal)
    else
      match state with
      | .start => some (db, afterAccess request db)
      | .authorized =>
        if (db.users.get? request.target).isSome then some (db, .checked)
        else some (db, .failed (.notFound "User not found"))
      | .checked =>
        if takesOwner (existingRole db request.kbId request.target) request.nextRole then
          some (db, .counting)
        else some (db, .allowed)
      | .counting =>
        if ownerCount db request.kbId ≤ 1 then
          some (db, .failed (.forbidden "Knowledge base must retain at least one owner"))
        else some (db, .allowed)
      | .allowed =>
        match request.write io.now db with
        | none => some (db, .failed .internal)
        | some db' => some (db', .written)
      -- `audit.logAction` touches none of the tables
      | .written => some (db, .returned)
      | .returned | .failed _ => none

/-! ## What the steps do -/

section Steps

variable {db db' : Database} {request : MemberRequest} {state state' : MemberState} {io : StepIO}

/-- A step leaves the tables alone, or it is the write of the request. -/
theorem memberStep_cases (h : memberStep request db state io = some (db', state')) :
    (db' = db ∧ ¬ (state = .allowed ∧ io.fails = false ∧ (request.write io.now db).isSome)) ∨
      state = .allowed ∧ io.fails = false ∧ request.write io.now db = some db' := by
  unfold memberStep at h
  split at h
  · cases h
  · cases h
  · by_cases hfails : io.fails = true
    · rw [if_pos hfails] at h
      cases h
      exact Or.inl ⟨rfl, by simp [hfails]⟩
    · rw [if_neg hfails] at h
      have hfails : io.fails = false := by simpa using hfails
      cases state with
      | start => cases h; exact Or.inl ⟨rfl, by simp⟩
      | authorized => simp only at h; split_ifs at h <;> cases h <;> exact Or.inl ⟨rfl, by simp⟩
      | checked => simp only at h; split_ifs at h <;> cases h <;> exact Or.inl ⟨rfl, by simp⟩
      | counting => simp only at h; split_ifs at h <;> cases h <;> exact Or.inl ⟨rfl, by simp⟩
      | allowed =>
        simp only at h
        split at h
        · rename_i hwrite
          cases h
          exact Or.inl ⟨rfl, by simp [hwrite]⟩
        · rename_i hwrite
          cases h
          exact Or.inr ⟨rfl, hfails, hwrite⟩
      | written => cases h; exact Or.inl ⟨rfl, by simp⟩
      | returned => cases h
      | failed error => cases h

theorem existingRole_upsertMember {kbId userId : Id} {role : KbRole} {now : Time}
    (h : upsertMember kbId userId role now db = some db') (kb u : Id) :
    existingRole db' kb u = if (kb, u) = (kbId, userId) then some role else existingRole db kb u := by
  unfold upsertMember at h
  split at h
  · rename_i m hm
    cases h
    rw [existingRole, existingRole, Table.get?_update]
    split_ifs with hk
    · rw [hk, hm]
      rfl
    · rfl
  · split_ifs at h
    obtain ⟨members, hinsert, rfl⟩ := Option.map_eq_some_iff.mp h
    rw [existingRole, existingRole, Table.get?_insert? hinsert]
    split_ifs with hk hk' hk'
    · rfl
    · exact absurd hk hk'
    · exact absurd hk' hk
    · rfl

theorem existingRole_deleteMember {kbId userId : Id} (h : deleteMember kbId userId db = some db')
    (kb u : Id) :
    existingRole db' kb u = if (kb, u) = (kbId, userId) then none else existingRole db kb u := by
  unfold deleteMember at h
  split at h
  · cases h
  · cases h
    rw [existingRole, existingRole, Table.get?_delete]
    split_ifs <;> rfl

/-- A write gives its target the new role, and leaves the other members alone. -/
theorem existingRole_write (h : request.write io.now db = some db') (kb u : Id) :
    existingRole db' kb u =
      if (kb, u) = (request.kbId, request.target) then request.nextRole
      else existingRole db kb u := by
  cases request with
  | addMember kbId author userId role => exact existingRole_upsertMember h kb u
  | removeMember kbId author targetUserId => exact existingRole_deleteMember h kb u

end Steps

/-! ## Owners -/

/-- The knowledge base has a member with the role `OWNER`. -/
def HasOwner (db : Database) (kbId : Id) : Prop :=
  ∃ m ∈ db.members.rows, m.kbId = kbId ∧ m.role = .owner

instance (db : Database) (kbId : Id) : Decidable (HasOwner db kbId) :=
  inferInstanceAs (Decidable (∃ m ∈ _, _))

section Owners

variable {db db' : Database} {kbId : Id}

theorem existingRole_eq_some {userId : Id} {role : KbRole} :
    existingRole db kbId userId = some role ↔
      ∃ m ∈ db.members.rows, m.kbId = kbId ∧ m.userId = userId ∧ m.role = role := by
  rw [existingRole, Option.map_eq_some_iff]
  constructor
  · rintro ⟨m, hm, hrole⟩
    have hkey : m.key = (kbId, userId) := Table.key_of_get? hm
    exact ⟨m, Table.mem_of_get? hm, congrArg Prod.fst hkey, congrArg Prod.snd hkey, hrole⟩
  · rintro ⟨m, hm, rfl, rfl, hrole⟩
    exact ⟨m, Table.get?_of_mem _ hm, hrole⟩

theorem hasOwner_iff : HasOwner db kbId ↔ ∃ userId, existingRole db kbId userId = some .owner := by
  constructor
  · rintro ⟨m, hm, hkb, hrole⟩
    exact ⟨m.userId, existingRole_eq_some.mpr ⟨m, hm, hkb, rfl, hrole⟩⟩
  · rintro ⟨userId, h⟩
    obtain ⟨m, hm, hkb, -, hrole⟩ := existingRole_eq_some.mp h
    exact ⟨m, hm, hkb, hrole⟩

/-- Beside an owner there is another one if the count exceeds one. -/
theorem one_lt_ownerCount_iff {userId : Id} (h : existingRole db kbId userId = some .owner) :
    1 < ownerCount db kbId ↔ ∃ u ≠ userId, existingRole db kbId u = some .owner := by
  obtain ⟨m, hm, hkb, huser, hrole⟩ := existingRole_eq_some.mp h
  have hnodup : db.members.rows.Nodup := db.members.keys_nodup.of_map KbMember.key
  have howner : isOwnerOf kbId m = true := by simp [isOwnerOf, hkb, hrole]
  have hpos : 0 < ownerCount db kbId := List.countP_pos_iff.mpr ⟨m, hm, howner⟩
  have hcount : (db.members.rows.erase m).countP (isOwnerOf kbId) = ownerCount db kbId - 1 := by
    rw [List.countP_erase, if_pos ⟨hm, howner⟩, ownerCount]
  have hlt : 1 < ownerCount db kbId ↔ 0 < (db.members.rows.erase m).countP (isOwnerOf kbId) := by
    omega
  rw [hlt, List.countP_pos_iff]
  constructor
  · rintro ⟨o, ho, hown⟩
    obtain ⟨hne, hmem⟩ := (hnodup.mem_erase_iff).mp ho
    have hfields : o.kbId = kbId ∧ o.role = .owner := by simpa [isOwnerOf] using hown
    refine ⟨o.userId, ?_, existingRole_eq_some.mpr ⟨o, hmem, hfields.1, rfl, hfields.2⟩⟩
    intro hsame
    have hkey : o.key = m.key := by simp [KbMember.key, hfields.1, hkb, hsame, huser]
    exact hne (db.members.eq_of_key_eq hmem hm hkey)
  · rintro ⟨u, hu, hown⟩
    obtain ⟨o, ho, hokb, houser, horole⟩ := existingRole_eq_some.mp hown
    have hne : o ≠ m := by
      rintro rfl
      exact hu (houser.symm.trans huser)
    exact ⟨o, (hnodup.mem_erase_iff).mpr ⟨hne, ho⟩, by simp [isOwnerOf, hokb, horole]⟩

/-- A write keeps an owner exactly if the guard passes on the state it meets. -/
theorem hasOwner_write_iff {request : MemberRequest} {now : Time}
    (hwrite : request.write now db = some db') (hkb : request.kbId = kbId)
    (hbefore : HasOwner db kbId) :
    HasOwner db' kbId ↔
      ownerMutationAllowed db kbId request.target request.nextRole = true := by
  subst hkb
  have hafter := existingRole_write (show request.write ({ now := now } : StepIO).now db = some db'
    from hwrite) request.kbId
  simp only [Prod.mk.injEq, true_and] at hafter
  rw [hasOwner_iff]
  by_cases hnext : request.nextRole = some .owner
  · have htarget : existingRole db' request.kbId request.target = some .owner := by
      rw [hafter, if_pos rfl, hnext]
    exact iff_of_true ⟨_, htarget⟩ (by simp [ownerMutationAllowed, takesOwner, hnext])
  · -- the owners afterwards are those beside the target
    have hothers : (∃ u, existingRole db' request.kbId u = some .owner) ↔
        ∃ u ≠ request.target, existingRole db request.kbId u = some .owner := by
      constructor
      · rintro ⟨u, hu⟩
        rw [hafter] at hu
        split_ifs at hu with hut
        · exact absurd hu hnext
        · exact ⟨u, hut, hu⟩
      · rintro ⟨u, hut, hu⟩
        exact ⟨u, by rw [hafter, if_neg hut, hu]⟩
    rw [hothers]
    by_cases howner : existingRole db request.kbId request.target = some .owner
    · rw [← one_lt_ownerCount_iff howner]
      simp [ownerMutationAllowed, takesOwner, howner, hnext]
    · obtain ⟨u, hu⟩ := hasOwner_iff.mp hbefore
      have hut : u ≠ request.target := by
        rintro rfl
        exact howner hu
      exact iff_of_true ⟨u, hut, hu⟩ (by simp [ownerMutationAllowed, takesOwner, howner])

/-- A write to another knowledge base changes none of its owners. -/
theorem hasOwner_write_of_ne {request : MemberRequest} {now : Time}
    (hwrite : request.write now db = some db') (hkb : request.kbId ≠ kbId) :
    HasOwner db' kbId ↔ HasOwner db kbId := by
  have hafter := existingRole_write (show request.write ({ now := now } : StepIO).now db = some db'
    from hwrite) kbId
  have hsame : ∀ u, existingRole db' kbId u = existingRole db kbId u := by
    intro u
    rw [hafter, if_neg (fun h => hkb (Prod.mk.inj h).1.symm)]
  simp only [hasOwner_iff, hsame]

/-- The creator is an owner. -/
theorem hasOwner_create {uni : EcmaUnicode} {user : AuthenticatedUser}
    {dto : CreateKnowledgeBaseDto} {now : Time} {kb : KnowledgeBase}
    (h : create uni user dto kbId now db = some (db', kb)) : kb.id = kbId ∧ HasOwner db' kbId := by
  simp only [create, Option.bind_eq_bind, Option.pure_def, Option.bind_eq_some_iff,
    Option.some.injEq, Prod.mk.injEq] at h
  obtain ⟨-, -, knowledgeBases, -, members, hmembers, rfl, rfl⟩ := h
  refine ⟨rfl, { kbId := kbId, userId := user.id, role := .owner, createdAt := now }, ?_, rfl, rfl⟩
  rw [Table.rows_of_insert? hmembers]
  simp

end Owners

/-! ## Interleavings -/

section Requests

variable {ι : Type} [DecidableEq ι]

/-- The requests `i : ι` on one database. -/
def memberRequests (request : ι → MemberRequest) :
    Database × (ι → MemberState) → ι × StepIO → Option (Database × (ι → MemberState)) :=
  interleave fun i => memberStep (request i)

/-- No request has begun. -/
def noneBegun (ι : Type) (db : Database) : Database × (ι → MemberState) := (db, fun _ => .start)

/-- If this step commits a write to the knowledge base, the guard of the request
    still passes. -/
def GuardHolds (kbId : Id) (request : MemberRequest) (db : Database) (state : MemberState)
    (io : StepIO) : Prop :=
  state = .allowed → io.fails = false → (request.write io.now db).isSome →
    request.kbId = kbId → ownerMutationAllowed db kbId request.target request.nextRole = true

/-- A step keeps an owner exactly if the guard of the write that it commits
    still passes. -/
theorem hasOwner_step_iff {request : ι → MemberRequest} {kbId : Id}
    {s s' : Database × (ι → MemberState)} {ie : ι × StepIO} (hbefore : HasOwner s.1 kbId)
    (hs : memberRequests request s ie = some s') :
    HasOwner s'.1 kbId ↔ GuardHolds kbId (request ie.1) s.1 (s.2 ie.1) ie.2 := by
  obtain ⟨db, state, hstep, rfl⟩ := interleave_eq_some.mp hs
  rcases memberStep_cases hstep with ⟨rfl, hquiet⟩ | ⟨hallowed, hok, hwrite⟩
  · refine iff_of_true hbefore fun hallowed hok hsome => ?_
    exact absurd ⟨hallowed, hok, hsome⟩ hquiet
  · simp only [GuardHolds, hallowed, hok, hwrite, Option.isSome_some, true_imp_iff]
    by_cases hkb : (request ie.1).kbId = kbId
    · rw [hasOwner_write_iff hwrite hkb hbefore]
      simp [hkb]
    · rw [hasOwner_write_of_ne hwrite hkb]
      exact iff_of_true hbefore fun h => absurd h hkb

/-- A knowledge base keeps an owner from its creation on, along exactly those runs
    in which the guard of every write still passes when the write commits. -/
theorem owner_remains_iff (uni : EcmaUnicode) (user : AuthenticatedUser)
    (dto : CreateKnowledgeBaseDto) (kbId : Id) (now : Time) (db db' : Database) (kb : KnowledgeBase)
    (hcreate : create uni user dto kbId now db = some (db', kb)) (request : ι → MemberRequest)
    (es : List (ι × StepIO)) :
    Always (memberRequests request) (fun s => HasOwner s.1 kb.id) (noneBegun ι db') es ↔
      EachStep (memberRequests request)
        (fun s ie _ => GuardHolds kb.id (request ie.1) s.1 (s.2 ie.1) ie.2) (noneBegun ι db') es := by
  obtain ⟨hid, howner⟩ := hasOwner_create hcreate
  rw [← hid] at howner
  exact always_iff_eachStep (I := fun _ => True) (fun _ _ _ _ _ _ _ => trivial)
    (fun _ _ _ _ hbefore hs => hasOwner_step_iff hbefore hs) trivial howner

end Requests

/-! ## Two owners that remove each other -/

/-- The users 1 and 2, and no knowledge base. -/
def twoUsers : Database where
  users := ⟨[{ id := 1, email := "a@example.com", passwordHash := "x" },
    { id := 2, email := "b@example.com", passwordHash := "y" }], by decide⟩
  knowledgeBases := .empty
  members := .empty
  documents := .empty
  versions := .empty
  jobs := .empty
  chunks := ⟨.empty, by decide⟩
  conversations := .empty
  messages := .empty
  citations := .empty

/-- User 1 has created the knowledge base 7. -/
def createdHandbook : Database × KnowledgeBase :=
  (create .ascii { id := 1 } { name := "Team handbook".toList } 7 10 twoUsers).get
    (by decide +kernel)

/-- User 1 makes user 2 an owner; then each of the two removes the other. -/
def mutualRemoval : Fin 3 → MemberRequest
  | 0 => .addMember 7 { id := 1 } 2 .owner
  | 1 => .removeMember 7 { id := 1 } 2
  | 2 => .removeMember 7 { id := 2 } 1

/-- Both removals count two owners before either of them deletes. -/
def removalsOverlap : List (Fin 3 × StepIO) :=
  ([0, 0, 0, 0, 0, 1, 2, 1, 2, 1, 2, 1, 2] : List (Fin 3)).map fun i => (i, {})

theorem owner_remains_iff_handbook :
    Always (memberRequests mutualRemoval) (fun s => HasOwner s.1 createdHandbook.2.id)
        (noneBegun _ createdHandbook.1) removalsOverlap ↔
      EachStep (memberRequests mutualRemoval)
        (fun s ie _ =>
          GuardHolds createdHandbook.2.id (mutualRemoval ie.1) s.1 (s.2 ie.1) ie.2)
        (noneBegun _ createdHandbook.1) removalsOverlap :=
  owner_remains_iff .ascii { id := 1 } { name := "Team handbook".toList } 7 10 twoUsers
    createdHandbook.1 createdHandbook.2
    (show create _ _ _ _ _ _ = some createdHandbook from (Option.some_get _).symm)
    mutualRemoval removalsOverlap

/-- The handbook is left without an owner. -/
theorem handbook_orphaned :
    ¬ ∀ es, Always (memberRequests mutualRemoval) (fun s => HasOwner s.1 createdHandbook.2.id)
      (noneBegun _ createdHandbook.1) es := by
  intro hall
  have hrun : ∃ s, exec (memberRequests mutualRemoval) (noneBegun _ createdHandbook.1)
      removalsOverlap = some s ∧ ¬ HasOwner s.1 createdHandbook.2.id := by
    refine ⟨_, (Option.some_get (show Option.isSome _ = true by decide +kernel)).symm, ?_⟩
    decide +kernel
  obtain ⟨s, hexec, hnone⟩ := hrun
  exact hnone ((hall removalsOverlap).final hexec)

end RagStack.Access

import RagStack.Access.Lifecycle
import RagStack.Common.Lineage

/-!
# Where roles come from

The guards of `addMember` and `removeMember` run before the writes, and other calls may write in
between. Still nobody has a role that nobody was allowed to give:

* `roles_trace_back`: a role in a knowledge base was granted by its creation, by an admin, or by an
  owner whose own role was granted so.
-/

namespace RagStack.Access

open RagStack.Common RagStack.Api
open RagStack.Ingest (Id Time)

namespace Grant

/-- The creator becomes an owner, and an admin gives what role they like. -/
def IsRoot (grant : Grant) : Prop :=
  (grant.grantor = .creation ∧ grant.role = .owner) ∨
    ∃ admin, grant.grantor = .admin admin ∧ admin.isAdmin = true

/-- The first grant makes an owner, who has made the second one in the same knowledge base. -/
def Hands (parent grant : Grant) : Prop :=
  grant.grantor = .owner parent.userId ∧ parent.kbId = grant.kbId ∧ parent.role = .owner

end Grant

/-- The roles that members have were granted, and all grants are traced back. -/
structure GrantsOk (s : KbStore) : Prop where
  lineal : Lineal Grant.IsRoot Grant.Hands s.grants
  granted : ∀ kbId userId role, existingRole s.db kbId userId = some role →
    ∃ grant ∈ s.grants, grant.kbId = kbId ∧ grant.userId = userId ∧ grant.role = role

/-- The author of a request that is authorized is an admin, or was made an owner. -/
def AuthorOk (grants : List Grant) (call : KbCall) (state : KbState) : Prop :=
  ∀ request, call = .member request → state.Authorized → request.author.isAdmin = true ∨
    ∃ grant ∈ grants, grant.kbId = request.kbId ∧ grant.userId = request.author.id ∧
      grant.role = .owner

section Steps

variable {s s' : KbStore} {call : KbCall} {state state' : KbState} {io : StepIO}

theorem AuthorOk.mono {grants grants' : List Grant} (hgrants : grants ⊆ grants')
    (h : AuthorOk grants call state) : AuthorOk grants' call state := by
  intro request hcall hstate
  refine (h request hcall hstate).imp_right ?_
  rintro ⟨grant, hgrant, hok⟩
  exact ⟨grant, hgrants hgrant, hok⟩

/-- Whom the guard for owners lets through. -/
theorem admin_or_owner_of_admits {db : Database} {kbId : Id} {user : AuthenticatedUser}
    (h : Admits db kbId user [.owner]) :
    user.isAdmin = true ∨ existingRole db kbId user.id = some .owner := by
  obtain ⟨access, haccess⟩ := h
  unfold assertKnowledgeBaseRole at haccess
  split at haccess
  · cases haccess
  · rename_i kb hkb
    split_ifs at haccess with hadmin
    · exact Or.inl hadmin
    · refine Or.inr ?_
      have hreadable := List.find?_some hkb
      simp only [buildKnowledgeBaseReadWhere, Option.all_some, Bool.and_eq_true,
        decide_eq_true_eq] at hreadable
      split at haccess
      · cases haccess
      · rename_i member hmember
        split_ifs at haccess with hrole
        rw [existingRole, ← hreadable.1, hmember, Option.map_some, List.mem_singleton.mp hrole]

theorem KbCase.grants_subset (hs : KbCase s io call state s' state') : s.grants ⊆ s'.grants := by
  cases hs with
  | create commits => exact List.subset_append_left _ _
  | write commits => exact List.subset_append_left _ _
  | _ => exact List.Subset.refl _

/-- A write that grants what it writes keeps the roles granted. -/
theorem granted_of_write {db : Database} {grants : List Grant} {kb u : Id} {next : Option KbRole}
    (hok : GrantsOk s) (hgrants : s.grants ⊆ grants)
    (hwrite : ∀ kbId userId, existingRole db kbId userId =
      if (kbId, userId) = (kb, u) then next else existingRole s.db kbId userId)
    (hnew : ∀ role, next = some role →
      ∃ grant ∈ grants, grant.kbId = kb ∧ grant.userId = u ∧ grant.role = role) :
    ∀ kbId userId role, existingRole db kbId userId = some role →
      ∃ grant ∈ grants, grant.kbId = kbId ∧ grant.userId = userId ∧ grant.role = role := by
  intro kbId userId role hrole
  rw [hwrite] at hrole
  split_ifs at hrole with hkey
  · cases hkey
    exact hnew role hrole
  · obtain ⟨grant, hgrant, hof⟩ := hok.granted kbId userId role hrole
    exact ⟨grant, hgrants hgrant, hof⟩

/-- The grant of a write is a root, or comes from the grant that has made its author an owner. -/
theorem origin_of_grant? {request : MemberRequest} {grants : List Grant} {grant : Grant}
    (hgrant : request.grant? = some grant)
    (hauthor : request.author.isAdmin = true ∨ ∃ owner ∈ grants, owner.kbId = request.kbId ∧
      owner.userId = request.author.id ∧ owner.role = .owner) :
    grant.IsRoot ∨ ∃ parent ∈ grants, parent.Hands grant := by
  obtain ⟨role, -, rfl⟩ := Option.map_eq_some_iff.mp hgrant
  by_cases hadmin : request.author.isAdmin = true
  · exact Or.inl (Or.inr ⟨request.author, if_pos hadmin, hadmin⟩)
  · obtain ⟨owner, howner, hkb, huser, hrole⟩ := hauthor.resolve_left hadmin
    exact Or.inr ⟨owner, howner, by rw [if_neg hadmin, huser], hkb, hrole⟩

theorem grantsOk_step (hok : GrantsOk s) (hauthor : AuthorOk s.grants call state)
    (hs : KbCase s io call state s' state') :
    GrantsOk s' ∧ AuthorOk s'.grants call state' := by
  cases hs with
  | rest idle => exact ⟨hok, fun _ _ hstate => absurd hstate idle⟩
  | begin admits byOwner =>
    refine ⟨hok, fun request hcall _ => ?_⟩
    obtain ⟨rfl, rfl⟩ := byOwner request hcall
    subst hcall
    exact (admin_or_owner_of_admits admits).imp_right (hok.granted _ _ _)
  | goOn under => exact ⟨hok, fun request hcall _ => hauthor request hcall under⟩
  | @create user dto kbId slug db commits =>
    obtain ⟨-, -, hroles⟩ := insertKnowledgeBase_eq_some commits
    refine ⟨⟨hok.lineal.snoc (Or.inl (Or.inl ⟨rfl, rfl⟩)), ?_⟩, nofun⟩
    refine granted_of_write hok (List.subset_append_left _ _) hroles fun role hrole => ?_
    exact ⟨_, List.mem_append_right _ (List.mem_singleton_self _), rfl, rfl, Option.some.inj hrole⟩
  | update under idle commits =>
    obtain ⟨hmembers, -⟩ := updateKnowledgeBase_eq_some commits
    refine ⟨⟨hok.lineal, fun kbId userId role hrole => ?_⟩, fun _ _ hstate => absurd hstate idle⟩
    rw [existingRole, hmembers] at hrole
    exact hok.granted kbId userId role hrole
  | @write request db commits =>
    have hallowed := hauthor request rfl trivial
    refine ⟨⟨?_, ?_⟩, fun _ _ hstate => absurd hstate id⟩
    · cases hgrant : request.grant? with
      | none =>
        rw [Option.toList_none, List.append_nil]
        exact hok.lineal
      | some grant => exact hok.lineal.snoc (origin_of_grant? hgrant hallowed)
    · refine granted_of_write hok (List.subset_append_left _ _)
        (fun kbId userId => existingRole_write commits kbId userId) fun role hrole => ?_
      obtain ⟨grant, hgrant, hof⟩ : ∃ grant, request.grant? = some grant ∧
          grant.kbId = request.kbId ∧ grant.userId = request.target ∧ grant.role = role := by
        rw [MemberRequest.grant?, hrole]
        exact ⟨_, rfl, rfl, rfl, rfl⟩
      refine ⟨grant, List.mem_append_right _ ?_, hof⟩
      rw [hgrant]
      exact List.mem_singleton_self _

end Steps

/-- In every state of every run, from a database without members: the role of a member was
    granted, and the grant goes back to the creation of the knowledge base, or to an admin,
    through grants that have made owners of it. -/
theorem roles_trace_back {ι : Type} [DecidableEq ι] (uni : EcmaUnicode) (call : ι → KbCall)
    (db : Database) (es : List (ι × StepIO)) (hempty : db.members = .empty) :
    Always (kbCalls uni call)
      (fun s => ∀ kbId userId role, existingRole s.1.db kbId userId = some role →
        ∃ grant ∈ s.1.grants, grant.kbId = kbId ∧ grant.userId = userId ∧ grant.role = role ∧
          TracesBack Grant.IsRoot Grant.Hands s.1.grants grant ∧
          ∃ origin ∈ s.1.grants, origin.IsRoot ∧ origin.kbId = kbId)
      ({ db := db }, fun _ => .start) es := by
  have hinv : Always (kbCalls uni call)
      (fun s => GrantsOk s.1 ∧ ∀ i, AuthorOk s.1.grants (call i) (s.2 i))
      ({ db := db }, fun _ => .start) es := by
    refine always_of_inv ?_ es ⟨⟨Lineal.nil, fun kbId userId role hrole => ?_⟩, fun _ _ _ => nofun⟩
    · intro s ie s' ⟨hok, hcalls⟩ hs
      obtain ⟨store, l, hstep, rfl⟩ := interleave_eq_some.mp hs
      have hkeep {l : KbState}
          (hstep : kbStep uni (call ie.1) s.1 (s.2 ie.1) ie.2 = some (store, l)) :=
        grantsOk_step hok (hcalls ie.1) (kbStep_cases hstep)
      refine ⟨(hkeep hstep).1, ?_⟩
      exact interleave_stable (R := fun t t' => t.grants ⊆ t'.grants)
        (J := fun k t m => AuthorOk t.grants (call k) m) hs hcalls
        (fun _ _ _ _ hgrows h => h.mono hgrows) (kbStep_cases hstep).grants_subset
        fun l hl => (hkeep hl).2
    · have hnone : existingRole db kbId userId = none := by
        rw [existingRole, hempty]
        rfl
      rw [hnone] at hrole
      cases hrole
  refine hinv.mono fun s ⟨hok, _⟩ kbId userId role hrole => ?_
  obtain ⟨grant, hgrant, hkb, huser, hof⟩ := hok.granted kbId userId role hrole
  have htraced := hok.lineal grant hgrant
  obtain ⟨origin, horigin, hroot, hsame⟩ :=
    htraced.exists_root (f := Grant.kbId) fun _ _ hhands => hhands.2.1
  exact ⟨grant, hgrant, hkb, huser, hof, htraced, origin, horigin, hroot, hsame.trans hkb⟩

/-- User 1 creates a knowledge base and makes user 2 an editor. -/
def twoGrants : Bool → KbCall
  | false => .create { id := 1 } { name := "Team handbook".toList } 7
  | true => .member (.addMember 7 { id := 1 } 2 .editor)

def twoGrantsRun : List (Bool × StepIO) :=
  ([false, false, false, false, true, true, true, true, true] : List Bool).map fun i => (i, {})

theorem roles_trace_back_editor :
    ∃ s, exec (kbCalls .ascii twoGrants) ({ db := twoUsers }, fun _ => .start) twoGrantsRun =
        some s ∧ existingRole s.1.db 7 2 = some .editor ∧
      ∃ grant ∈ s.1.grants, grant.kbId = 7 ∧ grant.userId = 2 ∧ grant.role = .editor ∧
        TracesBack Grant.IsRoot Grant.Hands s.1.grants grant ∧
        ∃ origin ∈ s.1.grants, origin.IsRoot ∧ origin.kbId = 7 := by
  have hruns : ((exec (kbCalls .ascii twoGrants) ({ db := twoUsers }, fun _ => .start)
      twoGrantsRun).map fun s => existingRole s.1.db 7 2) = some (some .editor) := by
    decide +kernel
  obtain ⟨s, hs, hrole⟩ := Option.map_eq_some_iff.mp hruns
  exact ⟨s, hs, hrole, (roles_trace_back .ascii twoGrants twoUsers twoGrantsRun rfl).final hs 7 2
    .editor hrole⟩

end RagStack.Access

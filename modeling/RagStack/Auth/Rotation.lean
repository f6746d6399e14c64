import Mathlib.Logic.Relation
import RagStack.Auth.Sessions

/-!
# Rotation and logout under concurrent calls

* `refresh_single_use_iff`: a refresh token is used once, and a session has one
  successor, along exactly those runs in which every transaction of `refresh`
  finds its session unrevoked, as its check did.
* `logout_revokes_iff`: when `logout` has run, the sessions that descend from
  earlier ones are all revoked, exactly if no `refresh` of the user commits
  after it.
-/

namespace RagStack.Auth

open RagStack.Common RagStack.Ingest

variable {ι : Type} [DecidableEq ι] {auth : AuthService}

/-- A call is what its state says: `refresh` has checked the session that its
    token names, and the session it has issued is in the list of rotations. -/
def Tracked (auth : AuthService) (s : Store) (call : Call) : CallState → Prop
  | .checked session user =>
    ∃ token row, call = .refresh token ∧ auth.sessionOf token = some session.id ∧
      user.id = session.userId ∧ s.db.session? session.id = some row ∧
      row.userId = session.userId
  | .returned issued _ _ =>
    ∃ token parent, call = .refresh token ∧ auth.sessionOf token = some parent ∧
      (parent, issued) ∈ s.rotations ∧ (s.db.session? issued).isSome
  | _ => True

section Tracked

variable {s s' : Store} {call : Call} {state state' : CallState} {io : StepIO}

/-- What holds of a call survives the steps of the others. -/
theorem Tracked.congr {other : Call} {st : CallState} (h : Tracked auth s other st)
    (hs : CallCase auth s io call state s' state') : Tracked auth s' other st := by
  have hrotations : ∀ e ∈ s.rotations, e ∈ s'.rotations := by
    intro e he
    cases hs with
    | rotate commits => exact List.mem_append_left _ he
    | _ => exact he
  cases st with
  | checked session user =>
    obtain ⟨token, row, hcall, hsession, huser, hrow, howner⟩ := h
    obtain ⟨row', hrow', howner', -⟩ := hs.session_kept hrow
    exact ⟨token, row', hcall, hsession, huser, hrow', howner'.trans howner⟩
  | returned issued pair user =>
    obtain ⟨token, parent, hcall, hsession, hmem, hissued⟩ := h
    obtain ⟨row, hrow⟩ := Option.isSome_iff_exists.mp hissued
    obtain ⟨row', hrow', -⟩ := hs.session_kept hrow
    exact ⟨token, parent, hcall, hsession, hrotations _ hmem, by simp [hrow']⟩
  | _ => trivial

/-- What a call has done, it has done. -/
theorem Tracked.own (h : Tracked auth s call state)
    (hs : CallCase auth s io call state s' state') : Tracked auth s' call state' := by
  cases hs with
  | fail error notRotating => trivial
  | check passed =>
    obtain ⟨hsession, hrow, howner, -⟩ := checkRefresh_eq_ok passed
    exact ⟨_, _, rfl, hsession, Table.key_of_get? howner, hrow, rfl⟩
  | rotate commits =>
    obtain ⟨token, row, hcall, hsession, huser, hrow, howner⟩ := h
    obtain ⟨-, -, -, new, -, -, hget⟩ := rotate_eq_ok commits
    exact ⟨token, _, hcall, hsession, by simp, by simp [hget]⟩
  | logout commits => trivial

end Tracked

/-- Every call is what its state says. -/
def AllTracked (auth : AuthService) (call : ι → Call) (s : Store × (ι → CallState)) : Prop :=
  ∀ i, Tracked auth s.1 (call i) (s.2 i)

omit [DecidableEq ι] in
theorem allTracked_notBegun (call : ι → Call) (db : Database) :
    AllTracked auth call (notBegun ι db) :=
  fun _ => trivial

theorem AllTracked.step {call : ι → Call} {s s' : Store × (ι → CallState)} {ie : ι × StepIO}
    (h : AllTracked auth call s) (hs : calls auth call s ie = some s') :
    AllTracked auth call s' :=
  interleave_inv hs (J := fun i => Tracked auth s'.1 (call i))
    (fun _ hl => (h ie.1).own (callStep_cases hl))
    (fun _ hl k _ => (h k).congr (callStep_cases hl))

/-! ## Refresh tokens are single use -/

/-- Of the calls that present one token at most one has returned a pair, and
    every session has at most one successor. -/
def SingleUse (token : ι → Token) (s : Store × (ι → CallState)) : Prop :=
  (∀ i j, token i = token j → (s.2 i).Returned → (s.2 j).Returned → i = j) ∧
    ∀ p a b, (p, a) ∈ s.1.rotations → (p, b) ∈ s.1.rotations → a = b

/-- If this step commits the transaction of a `refresh`, the session is not
    revoked. -/
def FindsUnrevoked (auth : AuthService) (db : Database) (state : CallState) (io : StepIO) : Prop :=
  match state with
  | .checked session user =>
    (auth.rotate session user io db).isOk →
      ∀ row, db.session? session.id = some row → row.revokedAt = none
  | _ => True

/-- The session that a call has issued. -/
def CallState.issued? : CallState → Option Id
  | returned issued _ _ => some issued
  | _ => none

theorem returned_iff {state : CallState} :
    state.Returned ↔ ∃ issued, state.issued? = some issued := by
  cases state <;> simp [CallState.Returned, CallState.issued?]

/-- A session with a successor is revoked, and the successor exists. -/
def RotationsOk (s : Store) : Prop :=
  ∀ p c, (p, c) ∈ s.rotations →
    (∃ row, s.db.session? p = some row ∧ row.revokedAt ≠ none) ∧ (s.db.session? c).isSome

/-- A session that `refresh` has found valid is revoked only if it has a successor. -/
def RevokedByRotation (s : Store) : CallState → Prop
  | .checked session _ => ∀ row, s.db.session? session.id = some row → row.revokedAt ≠ none →
      ∃ c, (session.id, c) ∈ s.rotations
  | _ => True

section Steps

variable {s s' : Store} {call : Call} {state state' : CallState} {io : StepIO}

theorem RotationsOk.step (h : RotationsOk s) (hs : CallCase auth s io call state s' state') :
    RotationsOk s' := by
  have hold : ∀ p c, (p, c) ∈ s.rotations →
      (∃ row, s'.db.session? p = some row ∧ row.revokedAt ≠ none) ∧ (s'.db.session? c).isSome := by
    intro p c hmem
    obtain ⟨⟨row, hrow, hrevoked⟩, hc⟩ := h p c hmem
    obtain ⟨row', hrow', -, hrevoked'⟩ := hs.session_kept hrow
    obtain ⟨child, hchild⟩ := Option.isSome_iff_exists.mp hc
    obtain ⟨child', hchild', -⟩ := hs.session_kept hchild
    exact ⟨⟨row', hrow', hrevoked' hrevoked⟩, by simp [hchild']⟩
  cases hs with
  | @rotate token session user db pair commits =>
    obtain ⟨-, hfree, ⟨old, hold'⟩, row, -, -, hget⟩ := rotate_eq_ok commits
    intro p c hmem
    rcases List.mem_append.mp hmem with hmem | hmem
    · exact hold p c hmem
    · -- the session is revoked and the new one inserted
      obtain ⟨rfl, rfl⟩ : p = session.id ∧ c = io.sessionId := by simpa using hmem
      have hne : session.id ≠ io.sessionId := by
        intro heq
        rw [heq, hfree] at hold'
        cases hold'
      refine ⟨⟨old.revoke io.now, ?_, by simp [RefreshSession.revoke]⟩, by simp [hget]⟩
      rw [hget, if_neg hne, hold', Option.map_some, if_pos (Table.key_of_get? hold')]
  | fail error notRotating => exact hold
  | check passed => exact hold
  | logout commits => exact hold

theorem RevokedByRotation.congr {st : CallState} {token : Token} (h : RevokedByRotation s st)
    (hs : CallCase auth s io (.refresh token) state s' state') :
    RevokedByRotation s' st := by
  cases st with
  | checked session user =>
    cases hs with
    | fail error notRotating => exact h
    | check passed => exact h
    | @rotate _ other _ db pair commits =>
      intro row hrow hrevoked
      obtain ⟨-, -, -, new, -, hvalid, hget⟩ := rotate_eq_ok commits
      by_cases heq : session.id = other.id
      · exact ⟨io.sessionId, by simp [heq]⟩
      · rw [hget] at hrow
        split_ifs at hrow with hnew
        · cases hrow
          exact absurd hvalid hrevoked
        · obtain ⟨old, hold, rfl⟩ := Option.map_eq_some_iff.mp hrow
          rw [if_neg (by rwa [Table.key_of_get? hold])] at hrevoked
          obtain ⟨c, hc⟩ := h old hold hrevoked
          exact ⟨c, List.mem_append_left _ hc⟩
  | _ => trivial

theorem RevokedByRotation.own (hs : CallCase auth s io call state s' state') :
    RevokedByRotation s' state' := by
  cases hs with
  | check passed =>
    intro row hrow hrevoked
    obtain ⟨-, hsession, -, hvalid⟩ := checkRefresh_eq_ok passed
    rw [hsession] at hrow
    cases hrow
    exact absurd hvalid hrevoked
  | _ => trivial

/-- The session that a step issues did not exist before. -/
theorem CallCase.issued_fresh (hs : CallCase auth s io call state s' state') {c : Id}
    (hc : state'.issued? = some c) : s.db.session? c = none := by
  cases hs with
  | rotate commits =>
    obtain ⟨-, hfree, -⟩ := rotate_eq_ok commits
    cases hc
    exact hfree
  | fail error notRotating => cases hc
  | check passed => cases hc
  | logout commits => cases hc

theorem Tracked.issued_exists (h : Tracked auth s call state) {c : Id}
    (hc : state.issued? = some c) :
    ∃ token p, call = .refresh token ∧ auth.sessionOf token = some p ∧ (p, c) ∈ s.rotations ∧
      (s.db.session? c).isSome := by
  cases state with
  | returned issued pair user =>
    cases hc
    exact h
  | _ => cases hc

end Steps

/-- What holds along the runs in which every call is a `refresh`. -/
structure RotationInv (auth : AuthService) (token : ι → Token) (s : Store × (ι → CallState)) :
    Prop where
  tracked : AllTracked auth (fun i => .refresh (token i)) s
  rotations : RotationsOk s.1
  revoked : ∀ i, RevokedByRotation s.1 (s.2 i)
  distinct : ∀ i j, i ≠ j → ∀ c, (s.2 i).issued? = some c → (s.2 j).issued? ≠ some c

section SingleUse

variable {token : ι → Token} {s s' : Store × (ι → CallState)} {ie : ι × StepIO}

theorem RotationInv.step (h : RotationInv auth token s)
    (hs : calls auth (fun i => .refresh (token i)) s ie = some s') :
    RotationInv auth token s' where
  tracked := h.tracked.step hs
  rotations := by
    obtain ⟨_, _, hstep, rfl⟩ := interleave_eq_some.mp hs
    exact h.rotations.step (callStep_cases hstep)
  revoked := interleave_inv hs (J := fun _ => RevokedByRotation s'.1)
    (fun _ hl => RevokedByRotation.own (callStep_cases hl))
    (fun _ hl k _ => (h.revoked k).congr (callStep_cases hl))
  distinct := by
    apply interleave_pairwise hs (K := fun l m => ∀ c, l.issued? = some c → m.issued? ≠ some c)
    · exact fun l m hlm c hm hl => hlm c hl hm
    · exact h.distinct
    · -- the session issued now did not exist, that of another call does
      intro l hl k _ c hc hk
      have hfresh := (callStep_cases hl).issued_fresh hc
      obtain ⟨-, -, -, -, -, hexists⟩ := (h.tracked k).issued_exists hk
      rw [hfresh] at hexists
      cases hexists

omit [DecidableEq ι] in
theorem rotationInv_notBegun (token : ι → Token) (db : Database) :
    RotationInv auth token (notBegun ι db) where
  tracked := allTracked_notBegun _ db
  rotations _ _ h := by cases h
  revoked _ := trivial
  distinct _ _ _ _ h := by cases h

/-- Calls that present one token have returned the same session, if each session
    has one successor. -/
theorem RotationInv.singleUse (h : RotationInv auth token s)
    (hone : ∀ p a b, (p, a) ∈ s.1.rotations → (p, b) ∈ s.1.rotations → a = b) :
    SingleUse token s := by
  refine ⟨fun i j htoken hi hj => ?_, hone⟩
  obtain ⟨a, ha⟩ := returned_iff.mp hi
  obtain ⟨b, hb⟩ := returned_iff.mp hj
  obtain ⟨_, p, hcall, hp, hpa, -⟩ := (h.tracked i).issued_exists ha
  obtain ⟨_, q, hcall', hq, hqb, -⟩ := (h.tracked j).issued_exists hb
  cases hcall
  cases hcall'
  rw [htoken, hq] at hp
  cases hp
  by_contra hij
  exact h.distinct i j hij a ha (by rw [hb, hone _ _ _ hpa hqb])

/-- Rotating a session that had no successor leaves each with at most one. -/
theorem unique_successor_append {rotations : List (Id × Id)} {old new : Id}
    (hone : ∀ p a b, (p, a) ∈ rotations → (p, b) ∈ rotations → a = b)
    (hnone : ∀ c, (old, c) ∉ rotations) (p a b : Id) (ha : (p, a) ∈ rotations ++ [(old, new)])
    (hb : (p, b) ∈ rotations ++ [(old, new)]) : a = b := by
  rcases List.mem_append.mp ha with haold | hanew <;>
    rcases List.mem_append.mp hb with hbold | hbnew
  · exact hone p a b haold hbold
  · obtain ⟨rfl, -⟩ : p = old ∧ b = new := by simpa using hbnew
    exact absurd haold (hnone a)
  · obtain ⟨rfl, -⟩ : p = old ∧ a = new := by simpa using hanew
    exact absurd hbold (hnone b)
  · obtain ⟨-, rfl⟩ : p = old ∧ a = new := by simpa using hanew
    obtain ⟨-, rfl⟩ : p = old ∧ b = a := by simpa using hbnew
    rfl

/-- A session has one successor only if a transaction finds it unrevoked. -/
theorem singleUse_step_iff (h : RotationInv auth token s) (hsingle : SingleUse token s)
    (hs : calls auth (fun i => .refresh (token i)) s ie = some s') :
    SingleUse token s' ↔ FindsUnrevoked auth s.1.db (s.2 ie.1) ie.2 := by
  have hcalls := (h.step hs).singleUse
  obtain ⟨i, io⟩ := ie
  obtain ⟨store, state', hstep, rfl⟩ := interleave_eq_some.mp hs
  have hcase := callStep_cases hstep
  have hrevoked := h.revoked i
  simp only at hcase hrevoked hcalls ⊢
  generalize s.2 i = state at hcase hrevoked ⊢
  cases hcase with
  | fail error notRotating =>
    refine iff_of_true (hcalls hsingle.2) ?_
    cases state with
    | checked session user => simp [FindsUnrevoked, notRotating session user rfl]
    | _ => trivial
  | check passed => exact iff_of_true (hcalls hsingle.2) trivial
  | @rotate _ session user db pair commits =>
    obtain ⟨-, hfree, ⟨old, hold⟩, -⟩ := rotate_eq_ok commits
    simp only [FindsUnrevoked, commits, Except.isOk, Except.toBool, true_imp_iff]
    constructor
    · -- a revoked session has a successor already, which is not the new one
      intro hsingle' row hrow
      by_contra hne
      obtain ⟨c, hc⟩ := hrevoked row hrow hne
      have hcnew : c = io.sessionId :=
        hsingle'.2 session.id c io.sessionId (List.mem_append_left _ hc) (by simp)
      obtain ⟨-, hexists⟩ := h.rotations _ _ hc
      rw [hcnew, hfree] at hexists
      cases hexists
    · -- an unrevoked session has none
      intro hvalid
      have hnone : ∀ c, (session.id, c) ∉ s.1.rotations := by
        intro c hc
        obtain ⟨⟨row, hrow, hne⟩, -⟩ := h.rotations _ _ hc
        exact hne (hvalid row hrow)
      exact hcalls (unique_successor_append hsingle.2 hnone)

omit [DecidableEq ι] in
theorem singleUse_notBegun (token : ι → Token) (db : Database) :
    SingleUse token (notBegun ι db) :=
  ⟨fun _ _ _ h => h.elim, fun _ _ _ h => by cases h⟩

/-- Refresh tokens are single use along exactly those runs in which every
    transaction of `refresh` that commits finds its session unrevoked. -/
theorem refresh_single_use_iff (auth : AuthService) (token : ι → Token) (db : Database)
    (es : List (ι × StepIO)) :
    Always (calls auth fun i => .refresh (token i)) (SingleUse token) (notBegun ι db) es ↔
      EachStep (calls auth fun i => .refresh (token i))
        (fun s ie _ => FindsUnrevoked auth s.1.db (s.2 ie.1) ie.2) (notBegun ι db) es :=
  always_iff_eachStep (I := RotationInv auth token)
    (fun _ _ _ h _ hs _ => h.step hs)
    (fun _ _ _ h hsingle hs => singleUse_step_iff h hsingle hs)
    (rotationInv_notBegun token db) (singleUse_notBegun token db)

end SingleUse

/-- A service whose tokens name the sessions 1, 2 and 3 of the user 1, for a
    thousand seconds. -/
def threeTokens : AuthService where
  jwt :=
    let claims := fun n : Id =>
      ({ sub := some 1, email := some "user@example.com", tokenType := some "refresh",
         sessionId := some n, exp := some 1000 } : Claims)
    let decode := fun token : Token =>
      if token = "refresh-1" then some (claims 1)
      else if token = "refresh-2" then some (claims 2)
      else if token = "refresh-3" then some (claims 3)
      else none
    { sign := fun payload _ =>
        match payload.sessionId with
        | some 1 => "refresh-1"
        | some 2 => "refresh-2"
        | some 3 => "refresh-3"
        | _ => "access"
      verify := fun token now => if now < 1000000 then decode token else none
      decode := decode
      decode_of_verify := by
        intro token now c h
        split_ifs at h
        exact h }
  sha256 token := "sha256:" ++ token

/-- The user 1 with the session 1. -/
def oneSession : Database where
  users := ⟨[{ id := 1, email := "user@example.com", passwordHash := "hash" }], by simp⟩
  sessions :=
    { table := ⟨[{ id := 1, userId := 1, tokenHash := "sha256:refresh-1", expiresAt := 1000000,
                   createdAt := 0 }], by simp⟩
      tokenHash_nodup := by simp }

/-- Two calls present the token of session 1; both check it, then both commit. -/
def checkCheckRotateRotate : List (Bool × StepIO) :=
  [(false, { now := 10 }), (true, { now := 10 }), (false, { now := 11, sessionId := 2 }),
    (true, { now := 12, sessionId := 3 })]

/-- Both calls return a pair. -/
theorem refresh_used_twice :
    ¬ ∀ es, Always (calls threeTokens fun _ : Bool => .refresh "refresh-1")
      (SingleUse fun _ => "refresh-1") (notBegun Bool oneSession) es := by
  intro hall
  have hrun : ((exec (calls threeTokens fun _ : Bool => .refresh "refresh-1")
      (notBegun Bool oneSession) checkCheckRotateRotate).map fun s => s.1.rotations) =
        some [(1, 2), (1, 3)] := by
    decide +kernel
  obtain ⟨s, hs, hrotations⟩ := Option.map_eq_some_iff.mp hrun
  have hsingle := ((hall checkCheckRotateRotate).final hs).2 1 2 3
  simp [hrotations] at hsingle

/-! ## Logout -/

/-- One call of `logout` for the user, and calls of `refresh`. -/
def logoutAmong (userId : Id) (token : ι → Token) : Option ι → Call
  | none => .logout userId
  | some i => .refresh (token i)

/-- The session `c` was issued for `p`, or for one that descends from `p`. -/
def Descends (s : Store) : Id → Id → Prop := Relation.ReflTransGen fun p c => (p, c) ∈ s.rotations

/-- The sessions of the user that descend from those in `earlier` are revoked. -/
def AllRevoked (userId : Id) (earlier : Database) (s : Store) : Prop :=
  ∀ c r, s.db.session? c = some r → r.userId = userId →
    (∃ p, (earlier.session? p).isSome ∧ Descends s p c) → r.revokedAt ≠ none

/-- This step commits the transaction of a `refresh` of the user. -/
def RotatesFor (auth : AuthService) (userId : Id) (db : Database) (state : CallState)
    (io : StepIO) : Prop :=
  match state with
  | .checked session user => session.userId = userId ∧ (auth.rotate session user io db).isOk
  | _ => False

/-- What holds after the logout: the calls present tokens of earlier sessions,
    those of the user are revoked, and every session descends from an earlier one. -/
structure LogoutInv (auth : AuthService) (userId : Id) (token : ι → Token) (earlier : Database)
    (s : Store × (Option ι → CallState)) : Prop where
  tracked : AllTracked auth (logoutAmong userId token) s
  loggedOut : s.2 none = .loggedOut
  revoked : ∀ p, (earlier.session? p).isSome →
    ∃ r, s.1.db.session? p = some r ∧ (r.userId = userId → r.revokedAt ≠ none)
  descends : ∀ c, (s.1.db.session? c).isSome →
    ∃ p, (earlier.session? p).isSome ∧ Descends s.1 p c

/-- The call has come to its end. -/
def CallState.Finished : CallState → Prop
  | returned _ _ _ | loggedOut | failed _ => True
  | _ => False

theorem CallState.finished_of_issued {state : CallState} {c : Id} (h : state.issued? = some c) :
    state.Finished := by
  cases state with
  | returned issued pair user => trivial
  | _ => cases h

section Logout

variable {userId : Id} {token : ι → Token} {earlier : Database} {io : StepIO}
  {s s' : Store × (Option ι → CallState)} {ie : Option ι × StepIO}

theorem Descends.mono {s s' : Store} (h : ∀ e ∈ s.rotations, e ∈ s'.rotations) {p c : Id}
    (hd : Descends s p c) : Descends s' p c := by
  induction hd with
  | refl => exact Relation.ReflTransGen.refl
  | tail _ hstep ih => exact ih.tail (h _ hstep)

omit [DecidableEq ι] in
/-- While all sessions descend from earlier ones, the sessions to look at are
    those of the user. -/
theorem LogoutInv.allRevoked_iff (h : LogoutInv auth userId token earlier s) :
    AllRevoked userId earlier s.1 ↔
      ∀ c r, s.1.db.session? c = some r → r.userId = userId → r.revokedAt ≠ none := by
  constructor
  · exact fun hall c r hr huser => hall c r hr huser (h.descends c (by simp [hr]))
  · exact fun hall c r hr huser _ => hall c r hr huser

/-- What a step after the logout does: it leaves the tables alone, or it commits
    the transaction of a `refresh` that has checked an earlier session. -/
theorem LogoutInv.cases (h : LogoutInv auth userId token earlier s)
    (hissued : ∀ i p, auth.sessionOf (token i) = some p → (earlier.session? p).isSome)
    (hs : calls auth (logoutAmong userId token) s ie = some s') :
    (s'.1 = s.1 ∧ ¬ RotatesFor auth userId s.1.db (s.2 ie.1) ie.2) ∨
      ∃ session user db pair, s.2 ie.1 = .checked session user ∧
        auth.rotate session user ie.2 s.1.db = .ok (db, pair) ∧
        (earlier.session? session.id).isSome ∧ user.id = session.userId ∧
        s'.1 = { db := db, rotations := s.1.rotations ++ [(session.id, ie.2.sessionId)] } := by
  obtain ⟨k, io⟩ := ie
  obtain ⟨store, state', hstep, rfl⟩ := interleave_eq_some.mp hs
  have hcase := callStep_cases hstep
  have htracked := h.tracked k
  have hlogged := h.loggedOut
  simp only at hcase htracked ⊢
  generalize hstate : s.2 k = state at hcase htracked ⊢
  generalize hcall : logoutAmong userId token k = call at hcase htracked
  cases hcase with
  | fail error notRotating =>
    refine Or.inl ⟨rfl, ?_⟩
    cases state with
    | checked session user => simp [RotatesFor, notRotating session user rfl]
    | _ => exact fun h => h
  | check passed => exact Or.inl ⟨rfl, fun h => h⟩
  | @rotate t session user db pair commits =>
    obtain ⟨t', row, ht, hsession, huser, -⟩ := htracked
    cases ht
    cases k with
    | none => cases hcall
    | some i =>
      cases hcall
      exact Or.inr ⟨session, user, db, pair, rfl, commits, hissued i _ hsession, huser, rfl⟩
  | logout commits =>
    cases k with
    | none => rw [h.loggedOut] at hstate; cases hstate
    | some i => cases hcall

theorem LogoutInv.step (h : LogoutInv auth userId token earlier s)
    (hissued : ∀ i p, auth.sessionOf (token i) = some p → (earlier.session? p).isSome)
    (hs : calls auth (logoutAmong userId token) s ie = some s') :
    LogoutInv auth userId token earlier s' := by
  have htracked := h.tracked.step hs
  have hlogged : s'.2 none = .loggedOut := by
    obtain ⟨k, io⟩ := ie
    obtain ⟨store, state', hstep, rfl⟩ := interleave_eq_some.mp hs
    cases k with
    | none =>
      simp only [logoutAmong, h.loggedOut, callStep] at hstep
      cases hstep
    | some i => simpa using h.loggedOut
  have hrevoked : ∀ p, (earlier.session? p).isSome →
      ∃ r, s'.1.db.session? p = some r ∧ (r.userId = userId → r.revokedAt ≠ none) := by
    intro p hp
    obtain ⟨r, hr, hrev⟩ := h.revoked p hp
    obtain ⟨_, _, hstep, rfl⟩ := interleave_eq_some.mp hs
    obtain ⟨r', hr', huser, hrev'⟩ := (callStep_cases hstep).session_kept hr
    exact ⟨r', hr', fun hu => hrev' (hrev (huser ▸ hu))⟩
  refine ⟨htracked, hlogged, hrevoked, ?_⟩
  rcases h.cases hissued hs with
    ⟨hstore, -⟩ | ⟨session, user, db, pair, -, commits, hearlier, -, hstore⟩
  · rw [hstore]
    exact h.descends
  · rw [hstore]
    obtain ⟨-, -, -, row, -, -, hget⟩ := rotate_eq_ok commits
    intro c hc
    by_cases hnew : c = ie.2.sessionId
    · -- the session issued now descends from the one that was revoked
      refine ⟨session.id, hearlier, Relation.ReflTransGen.single ?_⟩
      simp [hnew]
    · simp only [hget, if_neg hnew, Option.isSome_map] at hc
      obtain ⟨p, hp, hd⟩ := h.descends c hc
      exact ⟨p, hp, hd.mono fun e he => List.mem_append_left _ he⟩

/-- A session of the user that is not revoked after the logout stays so. -/
theorem LogoutInv.allRevoked_back (h : LogoutInv auth userId token earlier s)
    (hissued : ∀ i p, auth.sessionOf (token i) = some p → (earlier.session? p).isSome)
    (hs : calls auth (logoutAmong userId token) s ie = some s')
    (hall : AllRevoked userId earlier s'.1) : AllRevoked userId earlier s.1 := by
  rw [(h.step hissued hs).allRevoked_iff] at hall
  rw [h.allRevoked_iff]
  rcases h.cases hissued hs with
    ⟨hstore, -⟩ | ⟨session, user, db, pair, -, commits, hearlier, -, hstore⟩
  · rwa [hstore] at hall
  · rw [hstore] at hall
    obtain ⟨-, hfree, -, row, -, -, hget⟩ := rotate_eq_ok commits
    intro c r hr huser hvalid
    have hne : c ≠ ie.2.sessionId := by
      rintro rfl
      rw [hfree] at hr
      cases hr
    -- the session that is revoked now is an earlier one, and was revoked
    have hc : c ≠ session.id := by
      rintro rfl
      obtain ⟨r', hr', hrev⟩ := h.revoked _ hearlier
      rw [hr] at hr'
      cases hr'
      exact hrev huser hvalid
    have hkey : r.id = c := Table.key_of_get? hr
    have hafter : db.session? c = some r := by
      rw [hget, if_neg hne, hr, Option.map_some, if_neg (by rw [hkey]; exact hc)]
    exact hall c r hafter huser hvalid

/-- A step keeps all sessions of the user revoked exactly if it does not commit
    the transaction of a `refresh` of the user. -/
theorem LogoutInv.allRevoked_step (h : LogoutInv auth userId token earlier s)
    (hissued : ∀ i p, auth.sessionOf (token i) = some p → (earlier.session? p).isSome)
    (hall : AllRevoked userId earlier s.1)
    (hs : calls auth (logoutAmong userId token) s ie = some s') :
    AllRevoked userId earlier s'.1 ↔ ¬ RotatesFor auth userId s.1.db (s.2 ie.1) ie.2 := by
  rw [(h.step hissued hs).allRevoked_iff]
  rw [h.allRevoked_iff] at hall
  rcases h.cases hissued hs with
    ⟨hstore, hquiet⟩ | ⟨session, user, db, pair, hstate, commits, -, howner, hstore⟩
  · rw [hstore]
    exact iff_of_true hall hquiet
  · obtain ⟨-, -, -, row, huser, hvalid, hget⟩ := rotate_eq_ok commits
    simp only [hstore, hstate, RotatesFor, commits, Except.isOk, Except.toBool, and_true]
    constructor
    · intro hall' hmine
      refine hall' ie.2.sessionId row (by simp [hget]) ?_ hvalid
      rw [huser, howner, hmine]
    · intro hother c r hr hu
      rw [hget] at hr
      split_ifs at hr with hnew
      · cases hr
        rw [huser, howner] at hu
        exact absurd hu hother
      · obtain ⟨old, hold, rfl⟩ := Option.map_eq_some_iff.mp hr
        split_ifs at hu ⊢ with hid
        · simp [RefreshSession.revoke]
        · exact hall c old hold hu

/-- The state in which the logout has just committed. -/
theorem logoutInv_logout (htracked : AllTracked auth (logoutAmong userId token) s)
    (hs : calls auth (logoutAmong userId token) s (none, io) = some s')
    (hdone : s'.2 none = .loggedOut) :
    LogoutInv auth userId token s.1.db s' ∧ AllRevoked userId s.1.db s'.1 := by
  have htracked' := htracked.step hs
  obtain ⟨store, state', hstep, rfl⟩ := interleave_eq_some.mp hs
  have hcase := callStep_cases hstep
  simp only [Function.update_self] at hdone
  subst hdone
  have hlogout : ∃ db, logout userId io s.1.db = some db ∧ store.db = db := by
    simp only [logoutAmong] at hcase
    generalize s.2 none = state at hcase
    cases hcase with
    | logout commits => exact ⟨_, commits, rfl⟩
  obtain ⟨_, commits, rfl⟩ := hlogout
  obtain ⟨-, hget⟩ := logout_eq_some commits
  -- a session of the user that was valid is revoked now
  have hrow : ∀ c r, store.db.session? c = some r → r.userId = userId → r.revokedAt ≠ none := by
    intro c r hr huser
    rw [hget] at hr
    obtain ⟨old, -, rfl⟩ := Option.map_eq_some_iff.mp hr
    split_ifs at huser ⊢ with hvalid
    · simp [RefreshSession.revoke]
    · exact fun hnone => hvalid ⟨huser, hnone⟩
  have hinv : LogoutInv auth userId token s.1.db (store, Function.update s.2 none .loggedOut) := by
    refine ⟨htracked', by simp, fun p hp => ?_, fun c hc => ⟨c, ?_, Relation.ReflTransGen.refl⟩⟩
    · obtain ⟨r, hr⟩ := Option.isSome_iff_exists.mp hp
      exact ⟨_, by rw [hget, hr]; rfl, hrow p _ (by rw [hget, hr]; rfl)⟩
    · simpa [hget] using hc
  exact ⟨hinv, hinv.allRevoked_iff.mpr hrow⟩

end Logout

/-- When `logout` has run among calls of `refresh` that present tokens issued
    before it, the sessions of the user that descend from earlier ones are all
    revoked, exactly if no `refresh` of the user commits after the logout. -/
theorem logout_revokes_iff (auth : AuthService) (userId : Id) (token : ι → Token) (db : Database)
    {before after : List (Option ι × StepIO)} {io : StepIO}
    {s₁ s₂ s₃ : Store × (Option ι → CallState)}
    (hbefore : exec (calls auth (logoutAmong userId token)) (notBegun _ db) before = some s₁)
    (hlogout : calls auth (logoutAmong userId token) s₁ (none, io) = some s₂)
    (hdone : s₂.2 none = .loggedOut)
    (hissued : ∀ i p, auth.sessionOf (token i) = some p → (s₁.1.db.session? p).isSome)
    (hafter : exec (calls auth (logoutAmong userId token)) s₂ after = some s₃) :
    AllRevoked userId s₁.1.db s₃.1 ↔
      EachStep (calls auth (logoutAmong userId token))
        (fun s ie _ => ¬ RotatesFor auth userId s.1.db (s.2 ie.1) ie.2) s₂ after := by
  have htracked : AllTracked auth (logoutAmong userId token) s₁ :=
    (always_of_inv (fun _ _ _ h hs => h.step hs) before (allTracked_notBegun _ db)).final hbefore
  obtain ⟨hinv, hrevoked⟩ := logoutInv_logout htracked hlogout hdone
  rw [← always_iff_final (fun _ _ _ h hs => h.step hissued hs)
    (fun _ _ _ h hs => h.allRevoked_back hissued hs) hinv hafter]
  exact always_iff_eachStep (fun _ _ _ h _ hs _ => h.step hissued hs)
    (fun _ _ _ h hall hs => h.allRevoked_step hissued hall hs) hinv hrevoked

/-- The call of `refresh` has checked session 1. -/
def checkedSession : Store × (Option Unit → CallState) :=
  (exec (calls threeTokens (logoutAmong 1 fun _ => "refresh-1")) (notBegun _ oneSession)
    [(some (), { now := 10 })]).get (by decide +kernel)

/-- The logout has run. -/
def afterLogout : Store × (Option Unit → CallState) :=
  (calls threeTokens (logoutAmong 1 fun _ => "refresh-1") checkedSession
    (none, { now := 11 })).get (by decide +kernel)

/-- The transaction of `refresh` has committed after it. -/
def afterRotation : Store × (Option Unit → CallState) :=
  (exec (calls threeTokens (logoutAmong 1 fun _ => "refresh-1")) afterLogout
    [(some (), { now := 12, sessionId := 2 })]).get (by decide +kernel)

theorem checkedSession_issued (i : Unit) (p : Id)
    (h : threeTokens.sessionOf ((fun _ => "refresh-1") i) = some p) :
    (checkedSession.1.db.session? p).isSome := by
  have hp : threeTokens.sessionOf "refresh-1" = some 1 := by decide +kernel
  rw [hp] at h
  cases h
  decide +kernel

theorem logout_revokes_iff_rotation :
    AllRevoked 1 checkedSession.1.db afterRotation.1 ↔
      EachStep (calls threeTokens (logoutAmong 1 fun _ : Unit => "refresh-1"))
        (fun s ie _ => ¬ RotatesFor threeTokens 1 s.1.db (s.2 ie.1) ie.2) afterLogout
        [(some (), { now := 12, sessionId := 2 })] :=
  logout_revokes_iff threeTokens 1 (fun _ => "refresh-1") oneSession
    (show exec _ _ [(some (), { now := 10 })] = some checkedSession from (Option.some_get _).symm)
    (Option.some_get _).symm (by decide +kernel) checkedSession_issued (Option.some_get _).symm

/-- All calls have finished, and session 2 is valid. -/
theorem logout_outrun :
    ¬ ∀ (before after : List (Option Unit × StepIO)) (io : StepIO)
        (s₁ s₂ s₃ : Store × (Option Unit → CallState)),
      exec (calls threeTokens (logoutAmong 1 fun _ => "refresh-1")) (notBegun _ oneSession) before =
        some s₁ →
      calls threeTokens (logoutAmong 1 fun _ => "refresh-1") s₁ (none, io) = some s₂ →
      s₂.2 none = .loggedOut →
      (∀ i p, threeTokens.sessionOf ((fun _ : Unit => "refresh-1") i) = some p →
        (s₁.1.db.session? p).isSome) →
      exec (calls threeTokens (logoutAmong 1 fun _ => "refresh-1")) s₂ after = some s₃ →
      (∀ k, (s₃.2 k).Finished) → AllRevoked 1 s₁.1.db s₃.1 := by
  intro hall
  have hfinished : ∀ k, (afterRotation.2 k).Finished := by
    have hleft : afterRotation.2 none = .loggedOut := by decide +kernel
    have hright : (afterRotation.2 (some ())).issued? = some 2 := by decide +kernel
    intro k
    rcases k with _ | ⟨⟩
    · rw [hleft]
      trivial
    · exact CallState.finished_of_issued hright
  have hrevoked := hall _ _ _ checkedSession afterLogout afterRotation (Option.some_get _).symm
    (Option.some_get _).symm (by decide +kernel) checkedSession_issued (Option.some_get _).symm
    hfinished
  have hrow : (afterRotation.1.db.session? 2).map (fun r => (r.userId, r.revokedAt)) =
      some (1, none) := by
    decide +kernel
  obtain ⟨r, hr, hfields⟩ := Option.map_eq_some_iff.mp hrow
  obtain ⟨huser, hvalid⟩ := Prod.mk.inj hfields
  refine hrevoked 2 r hr huser ⟨1, by decide +kernel, Relation.ReflTransGen.single ?_⟩ hvalid
  decide +kernel

end RagStack.Auth

import RagStack.Common.Runs
import RagStack.Ingest.Schema

/-!
# Refresh sessions

`services/api/src/auth/auth.service.ts`: `refresh`, `logout` and
`issueTokenPair`, one database step at a time. `refresh` reads the session and
checks it; the transaction that revokes the session and issues the next pair
does not check it again.

* `callStep` — one step of a call.
* `callStep_cases`: what a step can do. The transaction of `refresh` revokes the
  row of its session and inserts the row of the next one; `logout` revokes the
  rows of its user; nothing else writes.

The store keeps, beside the tables, the list of the rotations that have
committed. No step reads it.
-/

namespace RagStack.Auth

open RagStack.Common RagStack.Ingest

/-! ## Tokens -/

/-- A signed token. -/
abbrev Token := String

/-- The payload of a token, as far as the service reads or writes it. -/
structure Claims where
  sub : Option Id := none
  email : Option String := none
  tokenType : Option String := none
  sessionId : Option Id := none
  exp : Option ℕ := none
deriving DecidableEq, Repr

/-- `JwtService`. `verify` is `verifyAsync` at a given time, with `none` where it
    throws; it returns what `decode` reads without verifying. -/
structure Jwt where
  sign : Claims → Time → Token
  verify : Token → Time → Option Claims
  decode : Token → Option Claims
  decode_of_verify : ∀ token now claims, verify token now = some claims → decode token = some claims

/-- What the service is built with. -/
structure AuthService where
  jwt : Jwt
  sha256 : Token → String

/-! ## Tables -/

/-- `enum UserStatus`. -/
inductive UserStatus
  | active | disabled
deriving DecidableEq, Repr

/-- `User`. -/
structure User where
  id : Id
  email : String
  passwordHash : String
  status : UserStatus := .active
deriving DecidableEq, Repr

/-- `RefreshSession`. -/
structure RefreshSession where
  id : Id
  userId : Id
  tokenHash : String
  expiresAt : Time
  revokedAt : Option Time := none
  createdAt : Time
  lastUsedAt : Option Time := none
deriving DecidableEq, Repr

/-- The session table, with the unique index on `tokenHash`. -/
structure SessionTable where
  table : Table RefreshSession RefreshSession.id
  tokenHash_nodup : (table.rows.map RefreshSession.tokenHash).Nodup

/-- The row of a session after it was revoked. -/
def RefreshSession.revoke (now : Time) (r : RefreshSession) : RefreshSession :=
  { r with revokedAt := some now, lastUsedAt := some now }

theorem id_revoke (now : Time) (r : RefreshSession) : (r.revoke now).id = r.id := rfl

/-- `UPDATE "RefreshSession" SET "revokedAt", "lastUsedAt" WHERE p`. -/
def SessionTable.revokeWhere (t : SessionTable) (p : RefreshSession → Bool) (now : Time) :
    SessionTable where
  table := t.table.updateWhere p (RefreshSession.revoke now) (id_revoke now)
  tokenHash_nodup := by
    have h : (RefreshSession.tokenHash ∘ fun a => if p a then a.revoke now else a) =
        RefreshSession.tokenHash := by
      funext a
      by_cases hp : p a <;> simp [hp, RefreshSession.revoke]
    rw [Table.rows_updateWhere, List.map_map, h]
    exact t.tokenHash_nodup

/-- `INSERT` of a session; `none` when its id or its token hash is taken. -/
def SessionTable.insert? (t : SessionTable) (r : RefreshSession) : Option SessionTable :=
  match t.table.insert? r with
  | none => none
  | some table =>
    if h : (table.rows.map RefreshSession.tokenHash).Nodup then some ⟨table, h⟩ else none

/-- The tables that the service reads and writes. -/
structure Database where
  users : Table User User.id
  sessions : SessionTable

/-- `refreshSession.findUnique({ where: { id } })`. -/
def Database.session? (db : Database) (id : Id) : Option RefreshSession :=
  db.sessions.table.get? id

/-! ## The service -/

/-- An `UnauthorizedException`, or any other error. -/
inductive AuthError
  | unauthorized (message : String)
  | internal
deriving DecidableEq, Repr

/-- What `issueTokenPair` returns. -/
structure TokenPair where
  accessToken : Token
  refreshToken : Token
deriving DecidableEq, Repr

/-- What one step of a call meets: the time, the UUID that `crypto.randomUUID`
    draws, and whether the database fails. -/
structure StepIO where
  now : Time := 0
  sessionId : Id := 0
  fails : Bool := false
deriving DecidableEq, Repr

namespace AuthService

variable (auth : AuthService)

/-- The session that a token names. -/
def sessionOf (token : Token) : Option Id := (auth.jwt.decode token).bind Claims.sessionId

/-- `issueTokenPair` (lines 132–167), with `resolveTokenExpiration` (lines 183–190): it fails
    when the token has no expiry, or when the insert fails or is refused. -/
def issueTokenPair (user : User) (io : StepIO) (db : Database) :
    Except AuthError (Database × TokenPair) :=
  let accessToken := auth.jwt.sign
    { email := some user.email, sub := some user.id, tokenType := some "access" } io.now
  let refreshToken := auth.jwt.sign
    { email := some user.email, sub := some user.id, tokenType := some "refresh",
      sessionId := some io.sessionId } io.now
  match (auth.jwt.decode refreshToken).bind Claims.exp with
  | none | some 0 => .error (.unauthorized "Invalid token expiry")
  | some exp =>
    let row : RefreshSession :=
      { id := io.sessionId, userId := user.id, tokenHash := auth.sha256 refreshToken,
        expiresAt := exp * 1000, createdAt := io.now }
    if io.fails then .error .internal
    else
      match db.sessions.insert? row with
      | none => .error .internal
      | some sessions =>
        .ok ({ db with sessions := sessions },
          { accessToken := accessToken, refreshToken := refreshToken })

/-- The reads and checks of `refresh` (lines 43–66). -/
def checkRefresh (token : Token) (io : StepIO) (db : Database) :
    Except AuthError (RefreshSession × User) :=
  if io.fails then .error .internal
  else
    let invalid := Except.error (.unauthorized "Invalid refresh token")
    match auth.jwt.verify token io.now with
    | none => invalid
    | some payload =>
      match payload.tokenType, payload.sessionId, payload.sub with
      | some "refresh", some sessionId, some sub =>
        match db.session? sessionId with
        | none => invalid
        | some session =>
          match db.users.get? session.userId with
          | none => .error .internal
          | some user =>
            if session.userId ≠ sub ∨ user.status ≠ .active ∨ session.revokedAt.isSome ∨
                session.expiresAt ≤ io.now ∨ session.tokenHash ≠ auth.sha256 token then invalid
            else .ok (session, user)
      | _, _, _ => invalid

/-- The transaction of `refresh` (lines 69–79), which rolls back when it fails. -/
def rotate (session : RefreshSession) (user : User) (io : StepIO) (db : Database) :
    Except AuthError (Database × TokenPair) :=
  if io.fails then .error .internal
  else
    match db.session? session.id with
    | none => .error .internal
    | some _ =>
      auth.issueTokenPair user io
        { db with sessions := db.sessions.revokeWhere (fun r => r.id = session.id) io.now }

end AuthService

/-- `logout` (lines 113–126). -/
def logout (userId : Id) (io : StepIO) (db : Database) : Option Database :=
  if io.fails then none
  else
    some { db with
      sessions := db.sessions.revokeWhere (fun r => r.userId = userId ∧ r.revokedAt.isNone) io.now }

/-! ## Calls, one step at a time -/

/-- A call of `refresh` or `logout`. -/
inductive Call
  | refresh (token : Token)
  | logout (userId : Id)
deriving DecidableEq, Repr

/-- How far a call has come. -/
inductive CallState
  | start
  /-- `refresh` has checked the session. -/
  | checked (session : RefreshSession) (user : User)
  /-- `refresh` has returned; `issued` is the session that its token names. -/
  | returned (issued : Id) (pair : TokenPair) (user : User)
  | loggedOut
  | failed (error : AuthError)
deriving DecidableEq

/-- The call has returned a token pair. -/
def CallState.Returned : CallState → Prop
  | returned _ _ _ => True
  | _ => False

/-- The tables, and the rotations that have committed: the session that was
    revoked with the one that was issued. -/
structure Store where
  db : Database
  rotations : List (Id × Id) := []

/-- One step of a call. -/
def callStep (auth : AuthService) (call : Call) (s : Store) (state : CallState) (io : StepIO) :
    Option (Store × CallState) :=
  match call, state with
  | .refresh token, .start =>
    match auth.checkRefresh token io s.db with
    | .error error => some (s, .failed error)
    | .ok (session, user) => some (s, .checked session user)
  | .refresh _, .checked session user =>
    match auth.rotate session user io s.db with
    | .error error => some (s, .failed error)
    | .ok (db, pair) =>
      some ({ db := db, rotations := s.rotations ++ [(session.id, io.sessionId)] },
        .returned io.sessionId pair user)
  | .logout userId, .start =>
    match logout userId io s.db with
    | none => some (s, .failed .internal)
    | some db => some ({ s with db := db }, .loggedOut)
  | _, _ => none

/-! ## What the steps do -/

section Steps

variable {auth : AuthService} {db db' : Database} {io : StepIO} {user : User} {pair : TokenPair}

theorem session?_revokeWhere (p : RefreshSession → Bool) (now : Time) (id : Id) :
    ({ db with sessions := db.sessions.revokeWhere p now } : Database).session? id =
      (db.session? id).map fun r => if p r then r.revoke now else r :=
  Table.get?_updateWhere _ p (RefreshSession.revoke now) (id_revoke now) id

theorem insert?_eq_some {t t' : SessionTable} {r : RefreshSession} (h : t.insert? r = some t') :
    t.table.insert? r = some t'.table := by
  unfold SessionTable.insert? at h
  split at h
  · cases h
  · rename_i table htable
    split_ifs at h
    cases h
    exact htable

/-- The row that `issueTokenPair` inserts is a valid session of the user, under a
    UUID that was free. -/
theorem issueTokenPair_eq_ok (h : auth.issueTokenPair user io db = .ok (db', pair)) :
    db'.users = db.users ∧ db.session? io.sessionId = none ∧
      ∃ row : RefreshSession, row.userId = user.id ∧ row.revokedAt = none ∧
        ∀ id, db'.session? id = if id = io.sessionId then some row else db.session? id := by
  simp only [AuthService.issueTokenPair] at h
  split at h
  · cases h
  · cases h
  · split_ifs at h
    split at h
    · cases h
    · rename_i sessions hinsert
      cases h
      have hinsert := insert?_eq_some hinsert
      exact ⟨rfl, Table.get?_eq_none_of_insert? hinsert, _, rfl, rfl, Table.get?_insert? hinsert⟩

/-- What `refresh` has seen when its checks pass. -/
theorem checkRefresh_eq_ok {token : Token} {session : RefreshSession}
    (h : auth.checkRefresh token io db = .ok (session, user)) :
    auth.sessionOf token = some session.id ∧ db.session? session.id = some session ∧
      db.users.get? session.userId = some user ∧ session.revokedAt = none := by
  simp only [AuthService.checkRefresh] at h
  split_ifs at h
  split at h
  · cases h
  · rename_i payload hverify
    split at h
    · rename_i sessionId sub htype hsession hsub
      split at h
      · cases h
      · rename_i row hrow
        split at h
        · cases h
        · rename_i owner howner
          split_ifs at h with hcheck
          cases h
          have hid : session.id = sessionId := Table.key_of_get? hrow
          have hdecode := auth.jwt.decode_of_verify _ _ _ hverify
          refine ⟨?_, ?_, howner, ?_⟩
          · rw [AuthService.sessionOf, hdecode, Option.bind_some, hsession, hid]
          · rw [hid, hrow]
          · by_contra hrevoked
            exact hcheck (Or.inr (Or.inr (Or.inl (Option.isSome_iff_ne_none.mpr hrevoked))))
    · cases h

/-- A rotation that commits revokes the row of its session and inserts a valid
    one for the same user. -/
theorem rotate_eq_ok {session : RefreshSession}
    (h : auth.rotate session user io db = .ok (db', pair)) :
    db'.users = db.users ∧ db.session? io.sessionId = none ∧
      (∃ row, db.session? session.id = some row) ∧
      ∃ row : RefreshSession, row.userId = user.id ∧ row.revokedAt = none ∧
        ∀ id, db'.session? id =
          if id = io.sessionId then some row
          else (db.session? id).map fun r => if r.id = session.id then r.revoke io.now else r := by
  unfold AuthService.rotate at h
  split_ifs at h
  split at h
  · cases h
  · rename_i old hold
    obtain ⟨husers, hfree, row, huser, hvalid, hget⟩ := issueTokenPair_eq_ok h
    simp only [session?_revokeWhere, decide_eq_true_eq] at hfree hget
    exact ⟨husers, Option.map_eq_none_iff.mp hfree, ⟨old, hold⟩, row, huser, hvalid, hget⟩

theorem logout_eq_some {userId : Id} (h : logout userId io db = some db') :
    db'.users = db.users ∧ ∀ id, db'.session? id = (db.session? id).map fun r =>
      if r.userId = userId ∧ r.revokedAt = none then r.revoke io.now else r := by
  unfold logout at h
  split_ifs at h
  cases h
  refine ⟨rfl, fun id => ?_⟩
  simp [session?_revokeWhere]

/-- What one step of a call can do. -/
inductive CallCase (auth : AuthService) (s : Store) (io : StepIO) :
    Call → CallState → Store → CallState → Prop
  | fail {call state} (error : AuthError)
      (notRotating : ∀ session user, state = .checked session user →
        (auth.rotate session user io s.db).isOk = false) :
      CallCase auth s io call state s (.failed error)
  | check {token session user} (passed : auth.checkRefresh token io s.db = .ok (session, user)) :
      CallCase auth s io (.refresh token) .start s (.checked session user)
  | rotate {token session user db pair}
      (commits : auth.rotate session user io s.db = .ok (db, pair)) :
      CallCase auth s io (.refresh token) (.checked session user)
        { db := db, rotations := s.rotations ++ [(session.id, io.sessionId)] }
        (.returned io.sessionId pair user)
  | logout {userId db} (commits : logout userId io s.db = some db) :
      CallCase auth s io (.logout userId) .start { s with db := db } .loggedOut

theorem callStep_cases {call : Call} {s s' : Store} {state state' : CallState}
    (h : callStep auth call s state io = some (s', state')) :
    CallCase auth s io call state s' state' := by
  unfold callStep at h
  split at h
  · split at h
    · cases h
      exact .fail _ fun _ _ hstate => by cases hstate
    · rename_i hcheck
      cases h
      exact .check hcheck
  · split at h
    · rename_i hrotate
      cases h
      refine .fail _ fun _ _ hstate => ?_
      cases hstate
      rw [hrotate]
      rfl
    · rename_i hrotate
      cases h
      exact .rotate hrotate
  · split at h
    · cases h
      exact .fail _ fun _ _ hstate => by cases hstate
    · rename_i hlogout
      cases h
      exact .logout hlogout
  · cases h

/-- No step removes a session or gives it to another user, and what is revoked
    stays revoked. -/
theorem CallCase.session_kept {call : Call} {s s' : Store} {state state' : CallState}
    (h : CallCase auth s io call state s' state') {id : Id} {r : RefreshSession}
    (hr : s.db.session? id = some r) :
    ∃ r', s'.db.session? id = some r' ∧ r'.userId = r.userId ∧
      (r.revokedAt ≠ none → r'.revokedAt ≠ none) := by
  cases h with
  | fail error notRotating => exact ⟨r, hr, rfl, fun h => h⟩
  | check passed => exact ⟨r, hr, rfl, fun h => h⟩
  | rotate commits =>
    obtain ⟨-, hfree, -, row, -, -, hget⟩ := rotate_eq_ok commits
    have hid : id ≠ io.sessionId := by
      rintro rfl
      rw [hfree] at hr
      cases hr
    rw [hget, if_neg hid, hr, Option.map_some]
    refine ⟨_, rfl, ?_, ?_⟩ <;> split_ifs <;> simp [RefreshSession.revoke]
  | logout commits =>
    obtain ⟨-, hget⟩ := logout_eq_some commits
    rw [hget, hr, Option.map_some]
    refine ⟨_, rfl, ?_, ?_⟩ <;> split_ifs <;> simp [RefreshSession.revoke]

end Steps

/-! ## Interleavings -/

section Calls

variable {ι : Type} [DecidableEq ι]

/-- The calls `i : ι` on one database. -/
def calls (auth : AuthService) (call : ι → Call) :
    Store × (ι → CallState) → ι × StepIO → Option (Store × (ι → CallState)) :=
  interleave fun i => callStep auth (call i)

/-- No call has begun. -/
def notBegun (ι : Type) (db : Database) : Store × (ι → CallState) := ({ db := db }, fun _ => .start)

end Calls

end RagStack.Auth

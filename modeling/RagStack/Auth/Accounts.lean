import RagStack.Api.Basic
import RagStack.Auth.Sessions

/-!
# Accounts

The other calls of `services/api/src/auth/auth.service.ts`, with `jwt.strategy.ts`: `register`,
`login`, and the requests with a bearer token (`/auth/logout` and `/auth/me` of
`auth.controller.ts`), next to `refresh`, one database step at a time.

* `accountStep` — one step of a call.
* `accountStep_cases`: what a step can do. `register` inserts a user, an operator sets the status
  of one, and nothing else writes users.

The store keeps, beside the tables, the token pairs that were issued. No step reads them.
-/

namespace RagStack.Auth

open RagStack.Common RagStack.Api
open RagStack.Ingest (Id Time)

/-- `bcryptjs`; `salt` is what `hash` draws. -/
structure Bcrypt where
  hash : (password salt : String) → String
  compare : (password passwordHash : String) → Bool
  compare_hash : ∀ password salt, compare password (hash password salt) = true

/-- What the service is built with. -/
structure AccountService extends AuthService where
  bcrypt : Bcrypt
  uni : EcmaUnicode

/-! ## Users -/

/-- `user.findUnique({ where: { email } })`; the column is of type `citext`. -/
def Database.userByEmail? (db : Database) (email : String) : Option User :=
  db.users.rows.find? fun user => foldCase user.email.toList = foldCase email.toList

/-- `INSERT` of a user; `none` when the id or the email is taken. -/
def Database.insertUser? (db : Database) (user : User) : Option Database :=
  if (db.userByEmail? user.email).isSome then none
  else (db.users.insert? user).map fun users => { db with users := users }

def User.setStatus (status : UserStatus) (user : User) : User := { user with status := status }

theorem id_setStatus (status : UserStatus) (user : User) : (user.setStatus status).id = user.id :=
  rfl

/-! ## The service -/

namespace AccountService

variable (svc : AccountService)

/-- `normalizeEmail` (lines 128–130). -/
def normalizeEmail (email : String) : String :=
  String.ofList (svc.uni.toLowerCase (trim email.toList))

/-- `validateUser` (lines 19–27). -/
def validateUser (email pass : String) (db : Database) : Option User :=
  (db.userByEmail? (svc.normalizeEmail email)).filter fun user =>
    user.status = .active && svc.bcrypt.compare pass user.passwordHash

/-- `JwtStrategy`: the token is verified, and `validate` (jwt.strategy.ts, lines 25–38) reads its
    user. -/
def validate (bearer : Token) (io : StepIO) (db : Database) : Except AuthError User :=
  let unauthorized := Except.error (.unauthorized "Unauthorized")
  match svc.jwt.verify bearer io.now with
  | none => unauthorized
  | some payload =>
    match payload.tokenType, payload.sub with
    | some "access", some sub =>
      if io.fails then .error .internal
      else
        match db.users.get? sub with
        | none => unauthorized
        | some user => if user.status = .active then .ok user else unauthorized
    | _, _ => unauthorized

end AccountService

/-- `getUserById` (lines 104–111). -/
def getUserById (id : Id) (io : StepIO) (db : Database) : Except AuthError User :=
  if io.fails then .error .internal
  else
    match db.users.get? id with
    | none => .error (.unauthorized "User not found")
    | some user => .ok user

/-! ## Calls, one step at a time -/

/-- A call of `AuthService`. -/
inductive AccountCall
  | register (email password : String)
  | login (email password : String)
  | refresh (token : Token)
  | logout (bearer : Token)
  | me (bearer : Token)
  /-- An operator changes the status of a user in the database. -/
  | setStatus (userId : Id) (status : UserStatus)
deriving DecidableEq, Repr

/-- The token that a call presents. -/
def AccountCall.token? : AccountCall → Option Token
  | refresh token => some token
  | logout bearer | me bearer => some bearer
  | _ => none

/-- What a call of `AuthService` throws. -/
inductive AccountError
  | auth (error : AuthError)
  | conflict (message : String)
deriving DecidableEq, Repr

/-- How far a call has come. -/
inductive AccountState
  | start
  /-- `register` has found no user, and has hashed the password. -/
  | free (email passwordHash : String)
  | registered (user : User)
  /-- `login` has checked the password. -/
  | validated (user : User)
  /-- `refresh` has checked the session. -/
  | checked (session : RefreshSession) (user : User)
  /-- `login` or `refresh` has returned. -/
  | issued (pair : TokenPair) (user : User)
  /-- `JwtStrategy` has let the request in. -/
  | admitted (user : User)
  | loggedOut
  | profile (user : User)
  | done
  | failed (error : AccountError)
deriving DecidableEq

/-- Why a pair was issued. -/
inductive Cause
  | login (password : String) (row : User)
  | rotation (session : Id)
deriving DecidableEq, Repr

/-- A pair that was issued, with its session. -/
structure Issue where
  session : Id
  userId : Id
  pair : TokenPair
  cause : Cause
deriving DecidableEq, Repr

/-- The tables, and the pairs that were issued. -/
structure AccountStore where
  db : Database
  issues : List Issue := []

/-- What one step meets: also the UUID of a new user, and the salt. -/
structure AccountIO extends StepIO where
  userId : Id := 0
  salt : String := ""
deriving DecidableEq, Repr

/-- The row that `register` inserts (lines 94–99). -/
def newUser (email passwordHash : String) (io : AccountIO) : User :=
  { id := io.userId, email := email, passwordHash := passwordHash }

/-- One step of a call. -/
def accountStep (svc : AccountService) (call : AccountCall) (s : AccountStore)
    (state : AccountState) (io : AccountIO) : Option (AccountStore × AccountState) :=
  let internal := some (s, AccountState.failed (.auth .internal))
  match call, state with
  | .register email password, .start =>
    if io.fails then internal
    else if (s.db.userByEmail? (svc.normalizeEmail email)).isSome then
      some (s, .failed (.conflict "Email already in use"))
    else some (s, .free (svc.normalizeEmail email) (svc.bcrypt.hash password io.salt))
  | .register _ _, .free email passwordHash =>
    if io.fails then internal
    else
      match s.db.insertUser? (newUser email passwordHash io) with
      | none => internal
      | some db => some ({ s with db := db }, .registered (newUser email passwordHash io))
  | .login email password, .start =>
    if io.fails then internal
    else
      match svc.validateUser email password s.db with
      | none => some (s, .failed (.auth (.unauthorized "Invalid credentials")))
      | some user => some (s, .validated user)
  | .login _ password, .validated user =>
    match svc.issueTokenPair user io.toStepIO s.db with
    | .error error => some (s, .failed (.auth error))
    | .ok (db, pair) =>
      let issue : Issue :=
        { session := io.sessionId, userId := user.id, pair := pair, cause := .login password user }
      some ({ db := db, issues := s.issues ++ [issue] }, .issued pair user)
  | .refresh token, .start =>
    match svc.checkRefresh token io.toStepIO s.db with
    | .error error => some (s, .failed (.auth error))
    | .ok (session, user) => some (s, .checked session user)
  | .refresh _, .checked session user =>
    match svc.rotate session user io.toStepIO s.db with
    | .error error => some (s, .failed (.auth error))
    | .ok (db, pair) =>
      let issue : Issue :=
        { session := io.sessionId, userId := user.id, pair := pair, cause := .rotation session.id }
      some ({ db := db, issues := s.issues ++ [issue] }, .issued pair user)
  | .logout bearer, .start | .me bearer, .start =>
    match svc.validate bearer io.toStepIO s.db with
    | .error error => some (s, .failed (.auth error))
    | .ok user => some (s, .admitted user)
  | .logout _, .admitted user =>
    match logout user.id io.toStepIO s.db with
    | none => internal
    | some db => some ({ s with db := db }, .loggedOut)
  | .me _, .admitted user =>
    match getUserById user.id io.toStepIO s.db with
    | .error error => some (s, .failed (.auth error))
    | .ok user => some (s, .profile user)
  | .setStatus userId status, .start =>
    some ({ s with db.users := s.db.users.update userId (User.setStatus status) (id_setStatus status) },
      .done)
  | _, _ => none

/-- What one step of a call can do. -/
inductive AccountCase (svc : AccountService) (s : AccountStore) (io : AccountIO) :
    AccountCall → AccountState → AccountStore → AccountState → Prop
  | fail {call state} (error : AccountError) : AccountCase svc s io call state s (.failed error)
  | free {email password} (fits : s.db.userByEmail? (svc.normalizeEmail email) = none) :
      AccountCase svc s io (.register email password) .start s
        (.free (svc.normalizeEmail email) (svc.bcrypt.hash password io.salt))
  | register {email password free passwordHash db}
      (commits : s.db.insertUser? (newUser free passwordHash io) = some db) :
      AccountCase svc s io (.register email password) (.free free passwordHash)
        { s with db := db } (.registered (newUser free passwordHash io))
  | validate {email password user} (valid : svc.validateUser email password s.db = some user) :
      AccountCase svc s io (.login email password) .start s (.validated user)
  | login {email password user db pair}
      (commits : svc.issueTokenPair user io.toStepIO s.db = .ok (db, pair)) :
      AccountCase svc s io (.login email password) (.validated user)
        { db := db
          issues := s.issues ++ [{ session := io.sessionId, userId := user.id, pair := pair,
                                   cause := .login password user }] }
        (.issued pair user)
  | check {token session user}
      (passed : svc.checkRefresh token io.toStepIO s.db = .ok (session, user)) :
      AccountCase svc s io (.refresh token) .start s (.checked session user)
  | rotate {token session user db pair}
      (commits : svc.rotate session user io.toStepIO s.db = .ok (db, pair)) :
      AccountCase svc s io (.refresh token) (.checked session user)
        { db := db
          issues := s.issues ++ [{ session := io.sessionId, userId := user.id, pair := pair,
                                   cause := .rotation session.id }] }
        (.issued pair user)
  | letIn {call bearer user} (carries : call = .logout bearer ∨ call = .me bearer)
      (valid : svc.validate bearer io.toStepIO s.db = .ok user) :
      AccountCase svc s io call .start s (.admitted user)
  | logout {bearer user db} (commits : logout user.id io.toStepIO s.db = some db) :
      AccountCase svc s io (.logout bearer) (.admitted user) { s with db := db } .loggedOut
  | profile {bearer user row} (found : getUserById user.id io.toStepIO s.db = .ok row) :
      AccountCase svc s io (.me bearer) (.admitted user) s (.profile row)
  | setStatus {userId status} :
      AccountCase svc s io (.setStatus userId status) .start
        { s with
          db.users := s.db.users.update userId (User.setStatus status) (id_setStatus status) }
        .done

theorem accountStep_cases {svc : AccountService} {call : AccountCall} {s s' : AccountStore}
    {state state' : AccountState} {io : AccountIO}
    (h : accountStep svc call s state io = some (s', state')) :
    AccountCase svc s io call state s' state' := by
  unfold accountStep at h
  simp only at h
  split at h
  · split_ifs at h with hfails htaken
    · cases h
      exact .fail _
    · cases h
      exact .fail _
    · cases h
      exact .free (by simpa using htaken)
  · split_ifs at h
    · cases h
      exact .fail _
    · split at h
      · cases h
        exact .fail _
      · rename_i hinsert
        cases h
        exact .register hinsert
  · split_ifs at h
    · cases h
      exact .fail _
    · split at h
      · cases h
        exact .fail _
      · rename_i hvalid
        cases h
        exact .validate hvalid
  · split at h
    · cases h
      exact .fail _
    · rename_i hissue
      cases h
      exact .login hissue
  · split at h
    · cases h
      exact .fail _
    · rename_i hcheck
      cases h
      exact .check hcheck
  · split at h
    · cases h
      exact .fail _
    · rename_i hrotate
      cases h
      exact .rotate hrotate
  · split at h
    · cases h
      exact .fail _
    · rename_i hvalid
      cases h
      exact .letIn (Or.inl rfl) hvalid
  · split at h
    · cases h
      exact .fail _
    · rename_i hvalid
      cases h
      exact .letIn (Or.inr rfl) hvalid
  · split at h
    · cases h
      exact .fail _
    · rename_i hlogout
      cases h
      exact .logout hlogout
  · split at h
    · cases h
      exact .fail _
    · rename_i hfound
      cases h
      exact .profile hfound
  · cases h
    exact .setStatus
  · cases h

end RagStack.Auth

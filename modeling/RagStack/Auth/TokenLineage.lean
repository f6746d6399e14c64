import RagStack.Auth.Accounts
import RagStack.Common.Lineage

/-!
# Where tokens come from

The calls of any number of clients on one database, who present what tokens they like. Only
tokens that the service has signed verify: `Unforged` says so of a step.

* `admitted_traces_back`: a request is let in as a user who is active, with an access token that
  goes back to a `login` with the password of that user, through the rotations of refresh tokens.
-/

namespace RagStack.Auth

open RagStack.Common RagStack.Api
open RagStack.Ingest (Id Time)

/-- What `verify` reads of a token that `sign` has made. -/
def ReadsSigned (jwt : Jwt) : Prop :=
  ∀ claims signed now read, jwt.verify (jwt.sign claims signed) now = some read →
    read.sub = claims.sub ∧ read.tokenType = claims.tokenType ∧ read.sessionId = claims.sessionId

/-- If the token of the call verifies, the service has issued it. -/
def Unforged (svc : AccountService) (s : AccountStore) (call : AccountCall) (io : AccountIO) : Prop :=
  ∀ token, call.token? = some token → (svc.jwt.verify token io.now).isSome = true →
    ∃ issue ∈ s.issues, token = issue.pair.accessToken ∨ token = issue.pair.refreshToken

instance (svc : AccountService) (s : AccountStore) (call : AccountCall) (io : AccountIO) :
    Decidable (Unforged svc s call io) :=
  inferInstanceAs (Decidable (∀ token ∈ call.token?, _))

namespace Issue

variable (svc : AccountService) (issue : Issue)

/-- The pair that `issueTokenPair` has signed for the user. -/
def Signed : Prop :=
  ∃ email now, issue.pair =
    { accessToken := svc.jwt.sign
        { email := some email, sub := some issue.userId, tokenType := some "access" } now
      refreshToken := svc.jwt.sign
        { email := some email, sub := some issue.userId, tokenType := some "refresh"
          sessionId := some issue.session } now }

/-- The pair was issued for a password of the user, who was active. -/
def FromPassword : Prop :=
  ∃ password row, issue.cause = .login password row ∧ row.id = issue.userId ∧
    row.status = .active ∧ svc.bcrypt.compare password row.passwordHash = true

/-- The session of the first pair was rotated for the second one, of the same user. -/
def Rotates (parent issue : Issue) : Prop :=
  issue.cause = .rotation parent.session ∧ parent.userId = issue.userId

end Issue

/-! ## What a step leaves -/

section Steps

variable {svc : AccountService} {db db' : Database} {io : StepIO} {user : User} {pair : TokenPair}

theorem signed_issueTokenPair {cause : Cause}
    (h : svc.issueTokenPair user io db = .ok (db', pair)) :
    Issue.Signed svc { session := io.sessionId, userId := user.id, pair := pair, cause := cause } := by
  simp only [AuthService.issueTokenPair] at h
  split at h
  · cases h
  · cases h
  · split_ifs at h
    split at h
    · cases h
    · cases h
      exact ⟨user.email, io.now, rfl⟩

theorem signed_rotate {session : RefreshSession} {cause : Cause}
    (h : svc.rotate session user io db = .ok (db', pair)) :
    Issue.Signed svc { session := io.sessionId, userId := user.id, pair := pair, cause := cause } := by
  unfold AuthService.rotate at h
  split_ifs at h
  split at h
  · cases h
  · exact signed_issueTokenPair h

/-- What a token says that verifies, if it is of an issue. -/
theorem read_of_issue (hreads : ReadsSigned svc.jwt) {issue : Issue} (hsigned : issue.Signed svc)
    {token : Token} {now : Time} {read : Claims} (hread : svc.jwt.verify token now = some read)
    (htoken : token = issue.pair.accessToken ∨ token = issue.pair.refreshToken) :
    read.sub = some issue.userId ∧
      (read.tokenType = some "access" ∧ token = issue.pair.accessToken ∨
        read.tokenType = some "refresh" ∧ read.sessionId = some issue.session ∧
          token = issue.pair.refreshToken) := by
  obtain ⟨email, signed, hpair⟩ := hsigned
  rcases htoken with htoken | htoken
  · have hsaid := hreads _ _ _ _ (by rw [htoken, hpair] at hread; exact hread)
    exact ⟨hsaid.1, Or.inl ⟨hsaid.2.1, htoken⟩⟩
  · have hsaid := hreads _ _ _ _ (by rw [htoken, hpair] at hread; exact hread)
    exact ⟨hsaid.1, Or.inr ⟨hsaid.2.1, hsaid.2.2, htoken⟩⟩

/-- What the checks of `refresh` have read. -/
theorem checkRefresh_reads {token : Token} {session : RefreshSession}
    (h : svc.checkRefresh token io db = .ok (session, user)) :
    ∃ read, svc.jwt.verify token io.now = some read ∧ read.tokenType = some "refresh" ∧
      read.sessionId = some session.id ∧ read.sub = some user.id := by
  simp only [AuthService.checkRefresh] at h
  split_ifs at h
  split at h
  · cases h
  · rename_i payload hverify
    split at h
    · rename_i sessionId sub htype hsession hsub
      split at h
      · cases h
      · rename_i row hrow
        split at h
        · cases h
        · rename_i owner howner
          split_ifs at h with hcheck
          cases h
          refine ⟨payload, hverify, htype, ?_, ?_⟩
          · rw [hsession, show session.id = sessionId from Table.key_of_get? hrow]
          · rw [hsub, show user.id = session.userId from Table.key_of_get? howner]
            exact congrArg some (by_contra fun hne => hcheck (Or.inl (Ne.symm hne)))
    · cases h

/-- What `JwtStrategy` has read. -/
theorem validate_eq_ok {bearer : Token} (h : svc.validate bearer io db = .ok user) :
    user.status = .active ∧ db.users.get? user.id = some user ∧
      ∃ read, svc.jwt.verify bearer io.now = some read ∧ read.tokenType = some "access" ∧
        read.sub = some user.id := by
  simp only [AccountService.validate] at h
  split at h
  · cases h
  · rename_i payload hverify
    split at h
    · rename_i sub htype hsub
      split_ifs at h
      split at h
      · cases h
      · rename_i row hrow
        split_ifs at h with hactive
        cases h
        have hid : user.id = sub := Table.key_of_get? hrow
        exact ⟨hactive, by rw [hid, hrow], payload, hverify, htype, by rw [hsub, hid]⟩
    · cases h

theorem validateUser_eq_some {email pass : String} (h : svc.validateUser email pass db = some user) :
    user.status = .active ∧ svc.bcrypt.compare pass user.passwordHash = true := by
  obtain ⟨-, hvalid⟩ := Option.filter_eq_some_iff.mp h
  simpa using hvalid

end Steps

/-! ## Invariants -/

/-- Every pair in the list is signed and traced back. -/
structure IssuesOk (svc : AccountService) (issues : List Issue) : Prop where
  signed : ∀ issue ∈ issues, issue.Signed svc
  lineal : Lineal (Issue.FromPassword svc) Issue.Rotates issues

/-- What a call relies on. -/
def AccountOk (svc : AccountService) (issues : List Issue) (call : AccountCall) :
    AccountState → Prop
  | .validated user => ∀ email password, call = .login email password →
      user.status = .active ∧ svc.bcrypt.compare password user.passwordHash = true
  | .checked session user => ∃ issue ∈ issues, call.token? = some issue.pair.refreshToken ∧
      issue.session = session.id ∧ issue.userId = user.id
  | .issued pair user => ∃ issue ∈ issues, issue.pair = pair ∧ issue.userId = user.id ∧
      ∀ token, call = .refresh token → ∃ parent ∈ issues, parent.pair.refreshToken = token ∧
        parent.Rotates issue
  | .admitted user => user.status = .active ∧ ∃ issue ∈ issues,
      call.token? = some issue.pair.accessToken ∧ issue.userId = user.id
  | _ => True

section Invariant

variable {svc : AccountService} {issues issues' : List Issue} {call : AccountCall}
  {state state' : AccountState} {s s' : AccountStore} {io : AccountIO}

theorem AccountOk.mono (hissues : issues ⊆ issues') (h : AccountOk svc issues call state) :
    AccountOk svc issues' call state := by
  cases state with
  | checked session user =>
    obtain ⟨issue, hissue, hok⟩ := h
    exact ⟨issue, hissues hissue, hok⟩
  | issued pair user =>
    obtain ⟨issue, hissue, hpair, huser, hparent⟩ := h
    refine ⟨issue, hissues hissue, hpair, huser, fun token htoken => ?_⟩
    obtain ⟨parent, hmem, hok⟩ := hparent token htoken
    exact ⟨parent, hissues hmem, hok⟩
  | admitted user =>
    obtain ⟨hactive, issue, hissue, hok⟩ := h
    exact ⟨hactive, issue, hissues hissue, hok⟩
  | _ => exact h

theorem IssuesOk.snoc {issue : Issue} (h : IssuesOk svc issues) (hsigned : issue.Signed svc)
    (horigin : issue.FromPassword svc ∨ ∃ parent ∈ issues, parent.Rotates issue) :
    IssuesOk svc (issues ++ [issue]) where
  signed := by
    intro i hi
    rcases List.mem_append.mp hi with hold | hnew
    · exact h.signed i hold
    · rw [List.mem_singleton.mp hnew]
      exact hsigned
  lineal := h.lineal.snoc horigin

/-- The list of issues only grows. -/
theorem AccountCase.issues_subset (hs : AccountCase svc s io call state s' state') :
    s.issues ⊆ s'.issues := by
  cases hs with
  | login commits => exact List.subset_append_left _ _
  | rotate commits => exact List.subset_append_left _ _
  | _ => exact List.Subset.refl _

/-- One step keeps the list traced back, and the call what it relies on. -/
theorem accountOk_step (hreads : ReadsSigned svc.jwt) (hissues : IssuesOk svc s.issues)
    (hcall : AccountOk svc s.issues call state) (hunforged : Unforged svc s call io)
    (hs : AccountCase svc s io call state s' state') :
    IssuesOk svc s'.issues ∧ AccountOk svc s'.issues call state' := by
  -- a token that verifies is of an issue
  have hissued : ∀ token read, call.token? = some token →
      svc.jwt.verify token io.now = some read → ∃ issue ∈ s.issues, read.sub = some issue.userId ∧
        (read.tokenType = some "access" ∧ token = issue.pair.accessToken ∨
          read.tokenType = some "refresh" ∧ read.sessionId = some issue.session ∧
            token = issue.pair.refreshToken) := by
    intro token read htoken hread
    obtain ⟨issue, hissue, hof⟩ := hunforged token htoken (by rw [hread]; rfl)
    exact ⟨issue, hissue, read_of_issue hreads (hissues.signed issue hissue) hread hof⟩
  cases hs with
  | fail error => exact ⟨hissues, trivial⟩
  | free fits => exact ⟨hissues, trivial⟩
  | register commits => exact ⟨hissues, trivial⟩
  | validate valid =>
    refine ⟨hissues, fun email password heq => ?_⟩
    cases heq
    exact validateUser_eq_some valid
  | @login email password user db pair commits =>
    obtain ⟨hactive, hcompare⟩ := hcall email password rfl
    exact ⟨hissues.snoc (signed_issueTokenPair commits)
        (Or.inl ⟨password, user, rfl, rfl, hactive, hcompare⟩),
      _, List.mem_append_right _ (List.mem_singleton_self _), rfl, rfl, nofun⟩
  | @check token session user passed =>
    obtain ⟨read, hread, htype, hsession, hsub⟩ := checkRefresh_reads passed
    obtain ⟨issue, hissue, huser, haccess | hrefresh⟩ := hissued token read rfl hread
    · rw [htype] at haccess
      exact absurd haccess.1 (by decide)
    · obtain ⟨-, hid, rfl⟩ := hrefresh
      exact ⟨hissues, issue, hissue, rfl, Option.some.inj (hid.symm.trans hsession),
        Option.some.inj (huser.symm.trans hsub)⟩
  | @rotate token session user db pair commits =>
    obtain ⟨parent, hparent, htoken, hsession, huser⟩ := hcall
    have hrotates : parent.Rotates
        { session := io.sessionId, userId := user.id, pair := pair
          cause := .rotation session.id } := ⟨by rw [hsession], huser⟩
    refine ⟨hissues.snoc (signed_rotate commits) (Or.inr ⟨parent, hparent, hrotates⟩),
      _, List.mem_append_right _ (List.mem_singleton_self _), rfl, rfl, fun presented heq => ?_⟩
    cases heq
    exact ⟨parent, List.mem_append_left _ hparent, (Option.some.inj htoken).symm, hrotates⟩
  | @letIn _ bearer user carries valid =>
    obtain ⟨hactive, -, read, hread, htype, hsub⟩ := validate_eq_ok valid
    have htoken : call.token? = some bearer := by rcases carries with rfl | rfl <;> rfl
    obtain ⟨issue, hissue, huser, haccess | hrefresh⟩ := hissued bearer read htoken hread
    · exact ⟨hissues, hactive, issue, hissue, by rw [htoken, haccess.2],
        Option.some.inj (huser.symm.trans hsub)⟩
    · rw [htype] at hrefresh
      exact absurd hrefresh.1 (by decide)
  | logout commits => exact ⟨hissues, trivial⟩
  | profile found => exact ⟨hissues, trivial⟩
  | setStatus => exact ⟨hissues, trivial⟩

end Invariant

/-! ## Runs -/

section Runs

variable {ι : Type} [DecidableEq ι]

/-- The calls `i : ι` on one database. -/
def accountCalls (svc : AccountService) (call : ι → AccountCall) :
    AccountStore × (ι → AccountState) → ι × AccountIO → Option (AccountStore × (ι → AccountState)) :=
  interleave fun i => accountStep svc (call i)

/-- No call has begun, and no pair was issued. -/
def noCalls (ι : Type) (db : Database) : AccountStore × (ι → AccountState) :=
  ({ db := db }, fun _ => .start)

/-- In every run with no forged tokens: a request is let in as a user who is active, with the
    access token of a pair that goes back to a `login` with the password of the user; and
    `refresh` returns a pair for the refresh token of an earlier one. -/
theorem admitted_traces_back (svc : AccountService) (call : ι → AccountCall) (db : Database)
    (es : List (ι × AccountIO)) (hreads : ReadsSigned svc.jwt)
    (hunforged : EachStep (accountCalls svc call)
      (fun s ie _ => Unforged svc s.1 (call ie.1) ie.2) (noCalls ι db) es) :
    Always (accountCalls svc call)
      (fun s => ∀ i,
        (∀ user, s.2 i = .admitted user → user.status = .active ∧
          ∃ issue ∈ s.1.issues, (call i).token? = some issue.pair.accessToken ∧
            issue.userId = user.id ∧
            TracesBack (Issue.FromPassword svc) Issue.Rotates s.1.issues issue ∧
            ∃ origin ∈ s.1.issues, origin.FromPassword svc ∧ origin.userId = user.id) ∧
        ∀ token pair user, call i = .refresh token → s.2 i = .issued pair user →
          ∃ issue ∈ s.1.issues, ∃ parent ∈ s.1.issues, issue.pair = pair ∧
            parent.pair.refreshToken = token ∧ parent.Rotates issue)
      (noCalls ι db) es := by
  have hinv : Always (accountCalls svc call)
      (fun s => IssuesOk svc s.1.issues ∧ ∀ i, AccountOk svc s.1.issues (call i) (s.2 i))
      (noCalls ι db) es := by
    refine always_of_eachStep ?_ hunforged
      ⟨⟨fun issue hissue => absurd hissue List.not_mem_nil, Lineal.nil⟩, fun _ => trivial⟩
    intro s ie s' ⟨hissues, hcalls⟩ hs hforged
    obtain ⟨store, l, hstep, rfl⟩ := interleave_eq_some.mp hs
    have hkeep {l : AccountState}
        (hstep : accountStep svc (call ie.1) s.1 (s.2 ie.1) ie.2 = some (store, l)) :=
      accountOk_step hreads hissues (hcalls ie.1) hforged (accountStep_cases hstep)
    refine ⟨(hkeep hstep).1, ?_⟩
    exact interleave_stable (R := fun t t' => t.issues ⊆ t'.issues)
      (J := fun k t m => AccountOk svc t.issues (call k) m) hs hcalls
      (fun _ _ _ _ hgrows h => h.mono hgrows) (accountStep_cases hstep).issues_subset
      fun l hl => (hkeep hl).2
  refine hinv.mono fun s ⟨hissues, hcalls⟩ i => ⟨fun user hstate => ?_, ?_⟩
  · obtain ⟨hactive, issue, hissue, htoken, huser⟩ := (hstate ▸ hcalls i : AccountOk _ _ _ _)
    have htraced := hissues.lineal issue hissue
    obtain ⟨origin, horigin, hpassword, hsame⟩ :=
      htraced.exists_root (f := Issue.userId) fun _ _ hrotates => hrotates.2
    exact ⟨hactive, issue, hissue, htoken, huser, htraced, origin, horigin, hpassword,
      hsame.trans huser⟩
  · intro token pair user hcall hstate
    obtain ⟨issue, hissue, hpair, -, hparent⟩ := (hstate ▸ hcalls i : AccountOk _ _ _ _)
    obtain ⟨parent, hmem, htoken, hrotates⟩ := hparent token hcall
    exact ⟨issue, hissue, parent, hmem, hpair, htoken, hrotates⟩

end Runs

/-- What the tokens of the user 1 say. -/
def signedClaims : List (Token × Claims) :=
  let claims : Claims := { sub := some 1, email := some "user@example.com" }
  [("access", { claims with tokenType := some "access" }),
    ("refresh-1", { claims with tokenType := some "refresh", sessionId := some 1 }),
    ("refresh-2", { claims with tokenType := some "refresh", sessionId := some 2 })]

/-- A service that signs these, for a thousand seconds. -/
def signingService : AccountService where
  jwt :=
    let decode := fun token : Token =>
      (signedClaims.lookup token).map fun claims => { claims with exp := some 1000 }
    { sign := fun claims _ =>
        ((signedClaims.find? fun entry => entry.2 = claims).map Prod.fst).getD "unknown"
      verify := fun token now => if now < 1000000 then decode token else none
      decode := decode
      decode_of_verify := by
        intro token now c h
        split_ifs at h
        exact h }
  sha256 token := "sha256:" ++ token
  bcrypt :=
    { hash := fun password salt => salt ++ password
      compare := fun password passwordHash => password.toList.isSuffixOf passwordHash.toList
      compare_hash := by
        intro password salt
        simp [List.isSuffixOf_iff_suffix] }
  uni := .ascii

theorem readsSigned_signingService : ReadsSigned signingService.jwt := by
  intro claims signed now read h
  simp only [signingService] at h
  split_ifs at h
  cases hfound : signedClaims.find? fun entry => entry.2 = claims with
  | none =>
    rw [hfound] at h
    cases h
  | some entry =>
    rw [hfound] at h
    have hclaims : entry.2 = claims := by simpa using List.find?_some hfound
    have hmem := List.mem_of_find?_eq_some hfound
    simp only [signedClaims, List.mem_cons, List.not_mem_nil, or_false] at hmem
    rcases hmem with rfl | rfl | rfl <;> subst hclaims <;> cases h <;> exact ⟨rfl, rfl, rfl⟩

/-- A user registers, logs in, asks for the profile, and rotates the session. -/
def visit : Fin 4 → AccountCall
  | 0 => .register " User@Example.com" "correct horse 1"
  | 1 => .login "user@example.com " "correct horse 1"
  | 2 => .me "access"
  | 3 => .refresh "refresh-1"

def visitRun : List (Fin 4 × AccountIO) :=
  [(0, { salt := "salt" }), (0, { userId := 1 }), (1, {}), (1, { sessionId := 1 }), (3, { now := 5 }),
    (3, { now := 6, sessionId := 2 }), (2, { now := 7 })]

def noUsers : Database where
  users := .empty
  sessions := ⟨.empty, List.nodup_nil⟩

/-- The profile is asked for with the access token of a pair that goes back to the login. -/
theorem admitted_traces_back_visit :
    ∃ s user, exec (accountCalls signingService visit) (noCalls (Fin 4) noUsers) visitRun = some s ∧
      s.2 2 = .admitted user ∧ user.status = .active ∧
      ∃ issue ∈ s.1.issues, (visit 2).token? = some issue.pair.accessToken ∧
        issue.userId = user.id ∧
        TracesBack (Issue.FromPassword signingService) Issue.Rotates s.1.issues issue ∧
        ∃ origin ∈ s.1.issues, origin.FromPassword signingService ∧ origin.userId = user.id := by
  have hruns : ((exec (accountCalls signingService visit) (noCalls (Fin 4) noUsers) visitRun).map
      fun s => s.2 2) = some (.admitted
        { id := 1, email := "user@example.com", passwordHash := "saltcorrect horse 1" }) := by
    decide +kernel
  obtain ⟨s, hs, hadmitted⟩ := Option.map_eq_some_iff.mp hruns
  have hall := admitted_traces_back signingService visit noUsers visitRun readsSigned_signingService
    (by decide +kernel)
  exact ⟨s, _, hs, hadmitted, (hall.final hs 2).1 _ hadmitted⟩

end RagStack.Auth

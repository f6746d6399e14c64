import RagStack.Auth.TokenLineage

/-!
# Registration and login

`register` looks for the address before it inserts the user; between the two, other calls may
register the same address. The unique index on `User.email` decides.

* `register_then_login`: of the calls that register an address at most one returns a user, and
  from then on `login` finds that user, by the address in any spelling that is normalized to it,
  with the password of the registration, as long as the user is active.
-/

namespace RagStack.Auth

open RagStack.Common RagStack.Api
open RagStack.Ingest (Id Time)

/-- What the index on `User.email` compares of a user. -/
def User.emailKey (user : User) : Worker.Text := foldCase user.email.toList

/-- The unique index on `User.email`. -/
def EmailsDistinct (db : Database) : Prop := (db.users.rows.map User.emailKey).Nodup

instance (db : Database) : Decidable (EmailsDistinct db) := inferInstanceAs (Decidable (List.Nodup _))

/-- The users stay, with their addresses and passwords. -/
def KeepsUsers (db db' : Database) : Prop :=
  ∀ id user, db.users.get? id = some user → ∃ row, db'.users.get? id = some row ∧
    row.email = user.email ∧ row.passwordHash = user.passwordHash

section Tables

variable {db db' : Database} {user : User}

theorem KeepsUsers.of_eq (h : db'.users = db.users) : KeepsUsers db db' := by
  intro id user hget
  exact ⟨user, by rw [h, hget], rfl, rfl⟩

theorem emailKey_of_userByEmail? {email : String} (h : db.userByEmail? email = some user) :
    user.emailKey = foldCase email.toList := by
  have hkey := List.find?_some h
  exact of_decide_eq_true hkey

theorem userByEmail?_eq_some_iff (hdistinct : EmailsDistinct db) {email : String} :
    db.userByEmail? email = some user ↔
      user ∈ db.users.rows ∧ user.emailKey = foldCase email.toList := by
  constructor
  · intro h
    exact ⟨List.mem_of_find?_eq_some h, emailKey_of_userByEmail? h⟩
  · rintro ⟨hmem, hkey⟩
    cases hfound : db.userByEmail? email with
    | none =>
      exact absurd (decide_eq_true hkey) (List.find?_eq_none.mp hfound user hmem)
    | some found =>
      have hsame := emailKey_of_userByEmail? hfound
      have hfoundMem := List.mem_of_find?_eq_some hfound
      rw [List.inj_on_of_nodup_map hdistinct hfoundMem hmem (hsame.trans hkey.symm)]

theorem insertUser?_eq_some (h : db.insertUser? user = some db') :
    (∀ row ∈ db.users.rows, row.emailKey ≠ user.emailKey) ∧ db.users.insert? user = some db'.users := by
  unfold Database.insertUser? at h
  split_ifs at h with htaken
  obtain ⟨users, hinsert, rfl⟩ := Option.map_eq_some_iff.mp h
  refine ⟨fun row hrow hsame => htaken ?_, hinsert⟩
  exact List.find?_isSome.mpr ⟨row, hrow, decide_eq_true hsame⟩

theorem keepsUsers_insertUser? (h : db.insertUser? user = some db') : KeepsUsers db db' := by
  obtain ⟨-, hinsert⟩ := insertUser?_eq_some h
  intro id row hrow
  have hne : id ≠ user.id := by
    rintro rfl
    rw [Table.get?_eq_none_of_insert? hinsert] at hrow
    cases hrow
  exact ⟨row, by rw [Table.get?_insert? hinsert, if_neg hne, hrow], rfl, rfl⟩

theorem emailsDistinct_insertUser? (hdistinct : EmailsDistinct db)
    (h : db.insertUser? user = some db') : EmailsDistinct db' := by
  obtain ⟨hfree, hinsert⟩ := insertUser?_eq_some h
  rw [EmailsDistinct, Table.rows_of_insert? hinsert, List.map_append]
  refine hdistinct.append (List.nodup_singleton _) fun email hold hnew => ?_
  obtain ⟨row, hrow, rfl⟩ := List.mem_map.mp hold
  exact hfree row hrow (List.mem_singleton.mp hnew)

end Tables

/-! ## Steps -/

section Steps

variable {svc : AccountService} {call : AccountCall} {s s' : AccountStore}
  {state state' : AccountState} {io : AccountIO}

theorem AccountCase.keepsUsers (hs : AccountCase svc s io call state s' state') :
    KeepsUsers s.db s'.db := by
  cases hs with
  | register commits => exact keepsUsers_insertUser? commits
  | login commits => exact .of_eq (issueTokenPair_eq_ok commits).1
  | rotate commits => exact .of_eq (rotate_eq_ok commits).1
  | logout commits => exact .of_eq (logout_eq_some commits).1
  | @setStatus userId status =>
    intro id user hget
    rw [Table.get?_update]
    split_ifs
    · exact ⟨user.setStatus status, by rw [hget]; rfl, rfl, rfl⟩
    · exact ⟨user, hget, rfl, rfl⟩
  | _ => exact .of_eq rfl

theorem AccountCase.emailsDistinct (hs : AccountCase svc s io call state s' state')
    (h : EmailsDistinct s.db) : EmailsDistinct s'.db := by
  cases hs with
  | register commits => exact emailsDistinct_insertUser? h commits
  | login commits => rwa [EmailsDistinct, (issueTokenPair_eq_ok commits).1]
  | rotate commits => rwa [EmailsDistinct, (rotate_eq_ok commits).1]
  | logout commits => rwa [EmailsDistinct, (logout_eq_some commits).1]
  | @setStatus userId status =>
    have hemail : (User.emailKey ∘ fun user => if decide (user.id = userId) then
        user.setStatus status else user) = User.emailKey := by
      funext user
      by_cases hid : user.id = userId <;> simp [hid, User.setStatus, User.emailKey]
    show ((s.db.users.rows.map _).map User.emailKey).Nodup
    rwa [List.map_map, hemail]
  | _ => exact h

/-- What `register` has hashed and stored. -/
def RegisterOk (svc : AccountService) (db : Database) (call : AccountCall) (state : AccountState) :
    Prop :=
  ∀ email password, call = .register email password → match state with
    | .free free passwordHash => free = svc.normalizeEmail email ∧
        svc.bcrypt.compare password passwordHash = true
    | .registered user => ∃ row, db.users.get? user.id = some row ∧
        row.email = svc.normalizeEmail email ∧ svc.bcrypt.compare password row.passwordHash = true
    | _ => True

theorem RegisterOk.mono {db db' : Database} (hkeeps : KeepsUsers db db')
    (h : RegisterOk svc db call state) : RegisterOk svc db' call state := by
  intro email password hcall
  have hok := h email password hcall
  cases state with
  | registered user =>
    obtain ⟨row, hrow, hemail, hcompare⟩ := hok
    obtain ⟨row', hrow', hemail', hhash⟩ := hkeeps _ _ hrow
    exact ⟨row', hrow', hemail'.trans hemail, by rw [hhash, hcompare]⟩
  | _ => exact hok

theorem registerOk_step (hs : AccountCase svc s io call state s' state')
    (h : RegisterOk svc s.db call state) : RegisterOk svc s'.db call state' := by
  intro email password hcall
  cases hs with
  | free fits =>
    cases hcall
    exact ⟨rfl, svc.bcrypt.compare_hash _ _⟩
  | register commits =>
    obtain ⟨-, hinsert⟩ := insertUser?_eq_some commits
    obtain ⟨hemail, hcompare⟩ := h email password hcall
    exact ⟨_, Table.get?_insert?_self hinsert, hemail, hcompare⟩
  | _ => trivial

/-- The address that a step registers is not that of a call which has registered. -/
theorem normalizeEmail_ne_of_registered {user user' : User} {other : AccountCall}
    {email password email' password' : String}
    (hs : AccountCase svc s io call state s' (.registered user))
    (hown : RegisterOk svc s.db call state) (hother : RegisterOk svc s.db other (.registered user'))
    (hcall : call = .register email password) (hcall' : other = .register email' password') :
    svc.normalizeEmail email ≠ svc.normalizeEmail email' := by
  cases hs with
  | register commits =>
    obtain ⟨hfree, -⟩ := insertUser?_eq_some commits
    obtain ⟨hemail, -⟩ := hown email password hcall
    obtain ⟨row, hrow, hemail', -⟩ := hother email' password' hcall'
    intro hsame
    have hrowEmail := hemail'.trans (hsame.symm.trans hemail.symm)
    exact hfree row (Table.mem_of_get? hrow) (by rw [User.emailKey, hrowEmail]; rfl)

end Steps

/-! ## Runs -/

section Runs

variable {ι : Type} [DecidableEq ι]

/-- Two calls have not registered one address. -/
def OneAddress (svc : AccountService) (call : ι → AccountCall) (state : ι → AccountState) : Prop :=
  ∀ i j email password email' password' user user', call i = .register email password →
    call j = .register email' password' → state i = .registered user →
    state j = .registered user' → svc.normalizeEmail email = svc.normalizeEmail email' → i = j

/-- In every state of every run: of the calls that register an address at most one has returned
    a user, and `login` takes every spelling of the address, and no password that does not fit the
    stored hash. -/
theorem register_then_login (svc : AccountService) (call : ι → AccountCall) (db : Database)
    (es : List (ι × AccountIO)) (hdistinct : EmailsDistinct db) :
    Always (accountCalls svc call)
      (fun s => OneAddress svc call s.2 ∧ ∀ i email password user,
        call i = .register email password → s.2 i = .registered user →
        ∃ row, s.1.db.users.get? user.id = some row ∧
          svc.bcrypt.compare password row.passwordHash = true ∧
          ∀ email' pass, svc.normalizeEmail email' = svc.normalizeEmail email →
            svc.validateUser email' pass s.1.db =
              if row.status = .active ∧ svc.bcrypt.compare pass row.passwordHash = true then some row
              else none)
      (noCalls ι db) es := by
  have hinv : Always (accountCalls svc call)
      (fun s => EmailsDistinct s.1.db ∧ OneAddress svc call s.2 ∧
        ∀ i, RegisterOk svc s.1.db (call i) (s.2 i))
      (noCalls ι db) es := by
    refine always_of_inv ?_ es ⟨hdistinct, ?_, ?_⟩
    · intro s ie s' ⟨hemails, hone, hcalls⟩ hs
      obtain ⟨store, l, hstep, rfl⟩ := interleave_eq_some.mp hs
      have hcase := accountStep_cases hstep
      refine ⟨hcase.emailsDistinct hemails, ?_, ?_⟩
      · intro i j email password email' password' user user' hi hj hstate hstate' hsame
        by_contra hij
        by_cases hone_i : i = ie.1
        · subst hone_i
          simp only [Function.update_self, Function.update_of_ne (Ne.symm hij)] at hstate hstate'
          exact normalizeEmail_ne_of_registered (hstate ▸ hcase) (hcalls _) (hstate' ▸ hcalls j) hi hj
            hsame
        · by_cases hone_j : j = ie.1
          · subst hone_j
            simp only [Function.update_self, Function.update_of_ne hij] at hstate hstate'
            exact normalizeEmail_ne_of_registered (hstate' ▸ hcase) (hcalls _) (hstate ▸ hcalls i) hj
              hi hsame.symm
          · simp only [Function.update_of_ne hone_i, Function.update_of_ne hone_j] at hstate hstate'
            exact hij (hone i j _ _ _ _ _ _ hi hj hstate hstate' hsame)
      · exact interleave_stable (R := fun t t' => KeepsUsers t.db t'.db)
          (J := fun k t m => RegisterOk svc t.db (call k) m) hs hcalls
          (fun _ _ _ _ hkeeps h => h.mono hkeeps) hcase.keepsUsers
          fun l hl => registerOk_step (accountStep_cases hl) (hcalls ie.1)
    · intro i j email password email' password' user user' _ _ hstate
      cases hstate
    · intro i email password _
      trivial
  refine hinv.mono fun s ⟨hemails, hone, hcalls⟩ => ⟨hone, ?_⟩
  intro i email password user hcall hstate
  obtain ⟨row, hrow, hemail, hcompare⟩ :=
    (by have h := hcalls i email password hcall; rw [hstate] at h; exact h :
      ∃ row, s.1.db.users.get? user.id = some row ∧ row.email = svc.normalizeEmail email ∧
        svc.bcrypt.compare password row.passwordHash = true)
  refine ⟨row, hrow, hcompare, fun email' pass hsame => ?_⟩
  have hfound : s.1.db.userByEmail? (svc.normalizeEmail email') = some row :=
    (userByEmail?_eq_some_iff hemails).mpr
      ⟨Table.mem_of_get? hrow, by rw [User.emailKey, hemail, hsame]⟩
  rw [AccountService.validateUser, hfound, Option.filter_some]
  simp only [Bool.and_eq_true, decide_eq_true_eq]

end Runs

/-- Two calls that register one address. -/
def registerTwice : Bool → AccountCall
  | false => .register " User@Example.com" "correct horse 1"
  | true => .register "user@example.com" "battery staple 2"

/-- Both find the address free before either inserts. -/
def registerTwiceRun : List (Bool × AccountIO) :=
  [(false, { salt := "salt" }), (true, { salt := "pepper" }), (true, { userId := 1 }),
    (false, { userId := 2 })]

theorem register_then_login_twice :
    ∃ s, exec (accountCalls signingService registerTwice) (noCalls Bool noUsers) registerTwiceRun =
        some s ∧ s.2 false = .failed (.auth .internal) ∧
      ∃ row, s.1.db.users.get? 1 = some row ∧
        ∀ pass, signingService.validateUser "USER@example.com " pass s.1.db =
          if row.status = .active ∧ signingService.bcrypt.compare pass row.passwordHash = true then
            some row
          else none := by
  have hruns : ((exec (accountCalls signingService registerTwice) (noCalls Bool noUsers)
      registerTwiceRun).map fun s => (s.2 false, s.2 true)) =
        some (.failed (.auth .internal), .registered
          { id := 1, email := "user@example.com", passwordHash := "pepperbattery staple 2" }) := by
    decide +kernel
  obtain ⟨s, hs, hstates⟩ := Option.map_eq_some_iff.mp hruns
  have hall := register_then_login signingService registerTwice noUsers registerTwiceRun (by decide)
  obtain ⟨row, hrow, -, hvalidate⟩ :=
    (hall.final hs).2 true _ _ _ rfl (congrArg Prod.snd hstates)
  exact ⟨s, hs, congrArg Prod.fst hstates, row, hrow,
    fun pass => hvalidate _ pass (by decide +kernel)⟩

end RagStack.Auth

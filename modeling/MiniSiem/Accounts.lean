import MiniSiem.Lib.Interference
import MiniSiem.RefreshTokens
import MiniSiem.TenantTables
import MiniSiem.WsTickets

/-! # Accounts and what their tokens say

`/register`, `/login`, `/refresh`, `/logout`, `/ws-token` and `/me` on one table of users, any number of
requests at the same time, each command atomic; a command may fail before or after its effect.

* **Users.**  Rows are only inserted, under a unique index on the tenant and the email address; a
  registration inserts them with the role `user`.
* **Tokens.**  The store keeps the claims that were signed, and a decoded token is one of them.
* **Roles.**  `roles_never_escalate`: whatever claims are signed are those of a user, and a role other than
  `user` was the role of that user at the start.
* **Registration and login.**  Of the registrations of one account at most one is answered with 201
  (`registered_once`), and a login succeeds only with the password of the registration
  (`login_needs_password`). -/

namespace MiniSiem

open Atomic

/-! ### Commands -/

inductive AccountCmd
  | auth (c : AuthCmd)
  | allowSlidingWindow (key : String) (windowMs : UInt64) (limit : UInt32)
  | getUserByEmail (tenantId email : String)
  | generateSalt
  | createUser (tenantId email passwordHash role : String)

abbrev AccountCmd.Reply : AccountCmd → Type
  | auth c => c.Reply
  | allowSlidingWindow _ _ _ => Except String Bool
  | getUserByEmail _ _ => Except String (Option User)
  | generateSalt => String
  | createUser _ _ _ _ => Except String User

abbrev AccountProg (α : Type) := Prog AccountCmd AccountCmd.Reply α

/-- The unique index of the users. -/
def User.account (user : User) : String × String := (user.tenantId, user.email)

/-- The claims that were signed so far stand beside the store. -/
structure AccountStore where
  auth : AuthStore
  signed : List JwtClaims
  id_nodup : (auth.users.map User.id).Nodup
  account_nodup : (auth.users.map User.account).Nodup

abbrev AccountStore.users (s : AccountStore) : List User := s.auth.users

structure AccountTick extends AuthTick where
  salt : String := ""

theorem execAuth_users (tick : AuthTick) (c : AuthCmd) (s : AuthStore) :
    (execAuth tick c s).2.users = s.users := by
  have hattempt : ∀ {β : Type} (reply : Except String β) (after : AuthStore), after.users = s.users →
      (tick.attempt s reply after).2.users = s.users := by
    intro β reply after hafter
    unfold AuthTick.attempt
    split
    · dsimp only
      split_ifs
      · exact hafter
      · rfl
    · exact hafter
  have hchange : ∀ result : Except String AuthStore, (∀ after, result = .ok after → after.users = s.users) →
      (tick.change s result).2.users = s.users := by
    intro result hresult
    cases result with
    | error e => exact hattempt _ _ rfl
    | ok after => exact hattempt _ _ (hresult after rfl)
  cases c with
  | now | newV4 | generateRefreshToken | encodeJwt | decodeJwt => rfl
  | allowFixedWindow | lookUp | get | set | del | getUserById => exact hattempt _ _ rfl
  | expire => exact hattempt _ _ rfl
  | setEx key value seconds =>
      refine hchange _ fun after h => ?_
      unfold AuthStore.setEx at h
      split at h
      · exact nomatch h
      · rw [← Except.ok.inj h]
        rfl
  | sadd key member =>
      refine hchange _ fun after h => ?_
      unfold AuthStore.sadd at h
      split at h
      · rw [← Except.ok.inj h]
        rfl
      · rw [← Except.ok.inj h]
        rfl
      · exact nomatch h
  | srem key member =>
      refine hchange _ fun after h => ?_
      unfold AuthStore.srem at h
      split at h
      · rw [← Except.ok.inj h]
        rfl
      · rw [← Except.ok.inj h]
        rfl
      · exact nomatch h

/-- The claims a command has signed. -/
def signedBy : (c : AuthCmd) → c.Reply → List JwtClaims
  | .encodeJwt claims, .ok _ => [claims]
  | _, _ => []

/-- The row of a new user. -/
def newUser (id tenantId email passwordHash role : String) : User := ⟨id, tenantId, email, passwordHash, role⟩

theorem lawfulBEq_account : LawfulBEq (String × String) := inferInstance

attribute [local instance] lawfulBEq_account in
/-- The insert of `create_user`. -/
def AccountStore.insertUser (s : AccountStore) (user : User) : Except String AccountStore :=
  if !([user.tenantId, user.email, user.passwordHash, user.role].all nulFree) then .error invalidValue
  else if h : user.id ∉ s.users.map User.id ∧ user.account ∉ s.users.map User.account then
    .ok { s with
      auth := { s.auth with users := s.users ++ [user] }
      id_nodup := by
        rw [List.map_append]
        exact List.nodup_append.mpr ⟨s.id_nodup, by simp, fun x hx y hy hxy =>
          h.1 (by rw [List.mem_singleton.mp hy] at hxy; exact hxy ▸ hx)⟩
      account_nodup := by
        rw [List.map_append]
        exact List.nodup_append.mpr ⟨s.account_nodup, by simp, fun x hx y hy hxy =>
          h.2 (by rw [List.mem_singleton.mp hy] at hxy; exact hxy ▸ hx)⟩ }
  else .error duplicateKey

/-- A command that changes nothing may fail. -/
def AccountTick.answer {β : Type} (tick : AccountTick) (reply : Except String β) : Except String β :=
  match tick.fault with
  | some e => .error e
  | none => reply

/-- `get_user_by_email`. -/
def AccountStore.getUserByEmail (s : AccountStore) (tenantId email : String) : Option User :=
  s.users.find? fun user => user.account = (tenantId, email)

/-- `create_user`, which may be refused, or fail before or after the insert. -/
def AccountStore.createUser (s : AccountStore) (tick : AccountTick) (user : User) :
    Except String User × AccountStore :=
  match tick.fault, s.insertUser user with
  | some e, .ok s' => (.error e, if tick.applied then s' else s)
  | some e, .error _ => (.error e, s)
  | none, .error e => (.error e, s)
  | none, .ok s' => (.ok user, s')

def execAccount (tick : AccountTick) : (c : AccountCmd) → AccountStore → c.Reply × AccountStore
  | .auth c, s =>
      ((execAuth tick.toAuthTick c s.auth).1,
        { auth := (execAuth tick.toAuthTick c s.auth).2
          signed := s.signed ++ signedBy c (execAuth tick.toAuthTick c s.auth).1
          id_nodup := by rw [execAuth_users]; exact s.id_nodup
          account_nodup := by rw [execAuth_users]; exact s.account_nodup })
  | .allowSlidingWindow _ _ _, s => (tick.answer (.ok tick.withinLimit), s)
  | .getUserByEmail tenantId email, s => (tick.answer (.ok (s.getUserByEmail tenantId email)), s)
  | .generateSalt, s => (tick.salt, s)
  | .createUser tenantId email passwordHash role, s =>
      s.createUser tick (newUser tick.uuid tenantId email passwordHash role)

/-- A program of the token handlers. -/
def liftAuth {α : Type} : AuthProg α → AccountProg α
  | .ret a => .ret a
  | .call c k => .call (.auth c) fun r => liftAuth (k r)

/-! ### The handlers -/

/-- The body of a user. -/
def userResponse (user : User) : Json :=
  .obj [("id", .str user.id), ("tenant_id", .str user.tenantId), ("email", .str user.email),
    ("role", .str user.role)]

section handlers

variable (hashPassword : String → String → Except String String) (verifyPassword : String → String → Bool)
  (hashRefreshToken : String → Except String String) (parseUuid : String → Option Uuid)
  (issuer audience : String)

/-- The end of `register`: what the insert is answered with. -/
def answerCreate : Except String User → AccountProg HttpResponse
  | .ok user => .ret ⟨201, some (userResponse user)⟩
  | .error e =>
      if Text.contains e "constraint" || Text.contains e "unique" then
        .ret ⟨409, some (errorBody "User already exists")⟩
      else .ret internalError

/-- `register` once no user is found: the password is hashed with a random salt. -/
def createAccount (tenantId email password : String) : AccountProg HttpResponse :=
  .call .generateSalt fun salt =>
    match hashPassword salt password with
    | .error _ => .ret internalError
    | .ok passwordHash => .call (.createUser tenantId email passwordHash "user") answerCreate

/-- `/register`. -/
def register (tenantId email password : String) : AccountProg HttpResponse :=
  if email = "" || password.utf8ByteSize < 8 then .ret ⟨400, some (errorBody "Invalid email or password")⟩
  else .call (.allowSlidingWindow
      ("rate_limit:register:" ++ tenantOrDefault tenantId ++ ":" ++ email) 60000 3) fun
    | .ok false => .ret ⟨429, some (errorBody "Too many registration attempts")⟩
    | .error _ => .ret internalError
    | .ok true => .call (.getUserByEmail (tenantOrDefault tenantId) email) fun
      | .ok (some _) => .ret ⟨409, some (errorBody "User already exists")⟩
      | .error _ => .ret internalError
      | .ok none => createAccount hashPassword (tenantOrDefault tenantId) email password

/-- `/login`; `verifyPassword` holds where `verify_password` returns `Ok(true)`. -/
def login (tenantId email password : String) : AccountProg HttpResponse :=
  .call (.allowSlidingWindow ("rate_limit:login:" ++ tenantOrDefault tenantId ++ ":" ++ email) 60000 5) fun
    | .ok false => .ret ⟨429, some (errorBody "Too many login attempts")⟩
    | .error _ => .ret internalError
    | .ok true => .call (.getUserByEmail (tenantOrDefault tenantId) email) fun
      | .error _ => .ret internalError
      | .ok none => .ret ⟨401, some (errorBody "Invalid credentials")⟩
      | .ok (some user) =>
          if verifyPassword password user.passwordHash then
            liftAuth (issuePair hashRefreshToken issuer audience user)
          else .ret ⟨401, some (errorBody "Invalid credentials")⟩

/-- `/me`, with the claims attached to the request. -/
def me : Option JwtClaims → AuthProg HttpResponse
  | none => .ret ⟨401, none⟩
  | some claims =>
      match parseUuid claims.sub with
      | none => .ret ⟨401, none⟩
      | some userId => .call (.getUserById claims.tenantId userId) fun
        | .ok (some user) => .ret ⟨200, some (userResponse user)⟩
        | .ok none => .ret ⟨404, none⟩
        | .error _ => .ret internalError

/-- A request with a token, or without one; only the middleware attaches claims. -/
def withToken (token : Option String) (k : Option JwtClaims → AuthProg HttpResponse) :
    AuthProg HttpResponse :=
  match token with
  | none => k none
  | some token => .call (.decodeJwt token) fun
      | .error _ => .ret ⟨401, none⟩
      | .ok claims => k (some claims)

inductive AccountRequest
  | register (tenantId email password : String)
  | login (tenantId email password : String)
  | refresh (tenantId refreshToken : String)
  | logout (refreshToken : String)
  | wsToken (token : Option String)
  | me (token : Option String)

def AccountRequest.prog : AccountRequest → AccountProg HttpResponse
  | .register tenantId email password => MiniSiem.register hashPassword tenantId email password
  | .login tenantId email password =>
      MiniSiem.login verifyPassword hashRefreshToken issuer audience tenantId email password
  | .refresh tenantId refreshToken =>
      liftAuth (MiniSiem.refresh hashRefreshToken parseUuid issuer audience tenantId refreshToken)
  | .logout refreshToken => liftAuth (MiniSiem.logout hashRefreshToken refreshToken)
  | .wsToken token => liftAuth (withToken token (MiniSiem.wsToken issuer audience))
  | .me token => liftAuth (withToken token (MiniSiem.me parseUuid))

abbrev AccountPool (ι : Type) := Pool ι AccountCmd AccountCmd.Reply HttpResponse AccountStore

/-- Any number of requests, none of them started. -/
def accountPool {ι : Type} (requests : ι → AccountRequest) (s : AccountStore) : AccountPool ι where
  progs i := (requests i).prog hashPassword verifyPassword hashRefreshToken parseUuid issuer audience
  store := s

end handlers

/-! ### What is known of the store -/

/-- The claims name a user, with the role of the user and no other. -/
def Backed (users : List User) (claims : JwtClaims) : Prop :=
  ∃ user ∈ users, claims.sub = user.id ∧ claims.tenantId = user.tenantId ∧ claims.email = user.email ∧
    claims.roles = [user.role]

theorem Backed.mono {users users' : List User} (h : users <+: users') {claims : JwtClaims}
    (hclaims : Backed users claims) : Backed users' claims := by
  obtain ⟨user, huser, hnames⟩ := hclaims
  exact ⟨user, h.subset huser, hnames⟩

/-- The store grows by users and signed claims. -/
instance : Preorder AccountStore where
  le s s' := s.users <+: s'.users ∧ s.signed <+: s'.signed
  le_refl _ := ⟨List.prefix_rfl, List.prefix_rfl⟩
  le_trans _ _ _ h h' := ⟨h.1.trans h'.1, h.2.trans h'.2⟩

/-- A decoded token was signed by this program. -/
def AccountTick.Unforged (tick : AccountTick) (s : AccountStore) : Prop :=
  ∀ claims, tick.decoded = .ok claims → claims ∈ s.signed

section known

variable (hashPassword : String → String → Except String String)

/-- The password of a registration has this hash. -/
def HashOf (password passwordHash : String) : Prop := ∃ salt, hashPassword salt password = .ok passwordHash

/-- A registration asks for the user. -/
def Asked {ι : Type} (requests : ι → AccountRequest) (tenantId email passwordHash : String) : Prop :=
  ∃ i tenant password, requests i = .register tenant email password ∧ tenantOrDefault tenant = tenantId ∧
    HashOf hashPassword password passwordHash

/-- What holds throughout a run from `s₀`. -/
structure Founded {ι : Type} (requests : ι → AccountRequest) (s₀ s : AccountStore) : Prop where
  kept : s₀.users <+: s.users
  added : ∀ user ∈ s.users, user ∈ s₀.users ∨
    (user.role = "user" ∧ Asked hashPassword requests user.tenantId user.email user.passwordHash)
  signed : ∀ claims ∈ s.signed, Backed s.users claims

/-- Claims are signed for a user, and users are created as they were asked for. -/
def Proper {ι : Type} (requests : ι → AccountRequest) (s : AccountStore) : AccountCmd → Prop
  | .auth (.encodeJwt claims) => Backed s.users claims
  | .createUser tenantId email passwordHash role =>
      role = "user" ∧ Asked hashPassword requests tenantId email passwordHash
  | _ => True

/-- A successful login has found its account and its password, and a registration has its account. -/
def Answers (verifyPassword : String → String → Bool) (s : AccountStore) (response : HttpResponse) :
    AccountRequest → Prop
  | .login tenantId email password => response.status = 200 →
      ∃ user ∈ s.users, user.account = (tenantOrDefault tenantId, email) ∧
        verifyPassword password user.passwordHash = true
  | .register tenantId email password => response.status = 201 →
      ∃ user ∈ s.users, user.account = (tenantOrDefault tenantId, email) ∧
        HashOf hashPassword password user.passwordHash
  | _ => True

end known

/-! ### One command -/

section commands

variable {hashPassword : String → String → Except String String} {ι : Type} {requests : ι → AccountRequest}
  {s₀ s : AccountStore}

theorem insertUser_ok {user : User} {s' : AccountStore} (h : s.insertUser user = .ok s') :
    user.account ∉ s.users.map User.account ∧ s'.users = s.users ++ [user] ∧ s'.signed = s.signed := by
  unfold AccountStore.insertUser at h
  split at h
  · exact nomatch h
  · split at h
    · rename_i hnew
      obtain rfl := Except.ok.inj h
      exact ⟨hnew.2, rfl, rfl⟩
    · exact nomatch h

/-- A user is added to a free account, or nothing changes. -/
theorem createUser_store (tick : AccountTick) (tenantId email passwordHash role : String) (s : AccountStore) :
    (execAccount tick (.createUser tenantId email passwordHash role) s).2 = s ∨
    (execAccount tick (.createUser tenantId email passwordHash role) s).2.users =
        s.users ++ [newUser tick.uuid tenantId email passwordHash role] ∧
      (execAccount tick (.createUser tenantId email passwordHash role) s).2.signed = s.signed := by
  show (s.createUser tick _).2 = s ∨ (s.createUser tick _).2.users = _ ∧ (s.createUser tick _).2.signed = _
  unfold AccountStore.createUser
  cases hinsert : s.insertUser (newUser tick.uuid tenantId email passwordHash role) with
  | error e => cases tick.fault <;> exact Or.inl rfl
  | ok s' =>
      have hadded := (insertUser_ok hinsert).2
      cases tick.fault with
      | none => exact Or.inr hadded
      | some e =>
          dsimp only
          split_ifs
          · exact Or.inr hadded
          · exact Or.inl rfl

/-- The command fails, or the user is added. -/
theorem createUser_reply (tick : AccountTick) (tenantId email passwordHash role : String) (s : AccountStore) :
    (∃ e, (execAccount tick (.createUser tenantId email passwordHash role) s).1 = .error e) ∨
    (tenantId, email) ∉ s.users.map User.account ∧
      (execAccount tick (.createUser tenantId email passwordHash role) s).1 =
        .ok (newUser tick.uuid tenantId email passwordHash role) ∧
      (execAccount tick (.createUser tenantId email passwordHash role) s).2.users =
        s.users ++ [newUser tick.uuid tenantId email passwordHash role] := by
  show (∃ e, (s.createUser tick _).1 = _) ∨ _ ∧ (s.createUser tick _).1 = _ ∧
    (s.createUser tick _).2.users = _
  unfold AccountStore.createUser
  cases hinsert : s.insertUser (newUser tick.uuid tenantId email passwordHash role) with
  | error e =>
      cases tick.fault with
      | none => exact Or.inl ⟨e, rfl⟩
      | some e' => exact Or.inl ⟨e', rfl⟩
  | ok s' =>
      obtain ⟨hfree, husers, -⟩ := insertUser_ok hinsert
      cases tick.fault with
      | none => exact Or.inr ⟨hfree, rfl, husers⟩
      | some e => exact Or.inl ⟨e, rfl⟩

theorem getUserByEmail_eq_some {tenantId email : String} {user : User}
    (h : s.getUserByEmail tenantId email = some user) :
    user ∈ s.users ∧ user.account = (tenantId, email) := by
  unfold AccountStore.getUserByEmail at h
  exact ⟨List.mem_of_find?_eq_some h, by simpa using List.find?_some h⟩

theorem getUserByEmail_cases (tick : AccountTick) (tenantId email : String) (s : AccountStore) :
    (∃ e, execAccount tick (.getUserByEmail tenantId email) s = (.error e, s)) ∨
    execAccount tick (.getUserByEmail tenantId email) s = (.ok none, s) ∨
    ∃ user, execAccount tick (.getUserByEmail tenantId email) s = (.ok (some user), s) ∧
      user ∈ s.users ∧ user.account = (tenantId, email) := by
  show (∃ e, (tick.answer (.ok (s.getUserByEmail tenantId email)), s) = _) ∨
    (tick.answer (.ok (s.getUserByEmail tenantId email)), s) = _ ∨
    ∃ user, (tick.answer (.ok (s.getUserByEmail tenantId email)), s) = _ ∧ _
  unfold AccountTick.answer
  cases tick.fault with
  | some e => exact Or.inl ⟨e, rfl⟩
  | none =>
      cases hfound : s.getUserByEmail tenantId email with
      | none => exact Or.inr (Or.inl rfl)
      | some user =>
          exact Or.inr (Or.inr ⟨user, rfl, getUserByEmail_eq_some hfound⟩)

theorem signedBy_eq {c : AuthCmd} {r : c.Reply} {claims : JwtClaims} (h : claims ∈ signedBy c r) :
    c = .encodeJwt claims := by
  cases c with
  | encodeJwt signed =>
      cases r with
      | error e => cases h
      | ok token => rw [List.mem_singleton.mp h]
  | _ => cases h

theorem execAccount_auth_users (tick : AccountTick) (c : AuthCmd) (s : AccountStore) :
    (execAccount tick (.auth c) s).2.users = s.users := execAuth_users tick.toAuthTick c s.auth

/-- Users and signed claims are only added. -/
theorem execAccount_grows (tick : AccountTick) (c : AccountCmd) (s : AccountStore) :
    s ≤ (execAccount tick c s).2 := by
  cases c with
  | auth c => exact ⟨by rw [execAccount_auth_users], List.prefix_append _ _⟩
  | allowSlidingWindow | getUserByEmail | generateSalt => exact le_refl s
  | createUser tenantId email passwordHash role =>
      rcases createUser_store tick tenantId email passwordHash role s with h | ⟨husers, hsigned⟩
      · rw [h]
      · exact ⟨by rw [husers]; exact List.prefix_append _ _, by rw [hsigned]⟩

theorem Founded.exec (tick : AccountTick) (c : AccountCmd) (h : Founded hashPassword requests s₀ s)
    (hproper : Proper hashPassword requests s c) :
    Founded hashPassword requests s₀ (execAccount tick c s).2 := by
  cases c with
  | auth c =>
      have husers := execAccount_auth_users tick c s
      refine ⟨by rw [husers]; exact h.kept, by rw [husers]; exact h.added, fun claims hclaims => ?_⟩
      rw [husers]
      rcases List.mem_append.mp hclaims with hbefore | hnew
      · exact h.signed claims hbefore
      · obtain rfl := signedBy_eq hnew
        exact hproper
  | allowSlidingWindow | getUserByEmail | generateSalt => exact h
  | createUser tenantId email passwordHash role =>
      obtain ⟨rfl, hasked⟩ := hproper
      have hmore := (execAccount_grows tick (.createUser tenantId email passwordHash "user") s).1
      rcases createUser_store tick tenantId email passwordHash "user" s with hsame | ⟨husers, hsigned⟩
      · rw [hsame]
        exact h
      · refine ⟨h.kept.trans hmore, fun user huser => ?_, fun claims hclaims => ?_⟩
        · rw [husers] at huser
          rcases List.mem_append.mp huser with hbefore | hnew
          · exact h.added user hbefore
          · rw [List.mem_singleton.mp hnew]
            exact Or.inr ⟨rfl, hasked⟩
        · rw [hsigned] at hclaims
          exact (h.signed claims hclaims).mono hmore

end commands

/-! ### The token handlers sign for users -/

section signing

/-- What is known of a reply: users are stored, and decoded claims are backed. -/
def KnownReply (s : AccountStore) : (c : AuthCmd) → c.Reply → Prop
  | .getUserById _ _, .ok (some user) => user ∈ s.users
  | .decodeJwt _, .ok claims => Backed s.users claims
  | _, _ => True

def SignsBacked (s : AccountStore) : AuthCmd → Prop
  | .encodeJwt claims => Backed s.users claims
  | _ => True

variable {hashRefreshToken : String → Except String String} {parseUuid : String → Option Uuid}
  {issuer audience : String} {s : AccountStore}

theorem storeRefreshToken_signs (userId tenantId token : String) (ttlSeconds : UInt64) :
    (storeRefreshToken hashRefreshToken userId tenantId token ttlSeconds).Ensures KnownReply SignsBacked
      s := by
  unfold storeRefreshToken
  cases hashRefreshToken token with
  | error e => trivial
  | ok tokenHash =>
      refine fun _ _ => ⟨trivial, fun stored _ => ?_⟩
      rcases stored with e | _
      · trivial
      refine fun _ _ => ⟨trivial, fun added _ => ?_⟩
      rcases added with e | _
      · trivial
      exact fun _ _ => ⟨trivial, fun _ _ => trivial⟩

theorem revokeRefreshToken_signs (token : String) :
    (revokeRefreshToken hashRefreshToken token).Ensures KnownReply SignsBacked s := by
  unfold revokeRefreshToken
  cases hashRefreshToken token with
  | error e => trivial
  | ok tokenHash =>
      refine fun _ _ => ⟨trivial, fun found _ => ?_⟩
      rcases found with e | _ | userId
      · trivial
      · trivial
      refine fun _ _ => ⟨trivial, fun deleted _ => ?_⟩
      rcases deleted with e | _
      · trivial
      exact fun _ _ => ⟨trivial, fun _ _ => trivial⟩

theorem issuePair_signs {user : User} (huser : user ∈ s.users) :
    (issuePair hashRefreshToken issuer audience user).Ensures KnownReply SignsBacked s := by
  refine fun s₁ h₁ => ⟨trivial, fun now _ => fun s₂ h₂ => ⟨?_, fun signed _ => ?_⟩⟩
  · exact ⟨user, h₂.1.subset (h₁.1.subset huser), rfl, rfl, rfl, rfl⟩
  rcases signed with e | accessToken
  · trivial
  refine fun _ _ => ⟨trivial, fun newToken _ => ?_⟩
  refine Prog.Ensures.bind (storeRefreshToken_signs _ _ _ _) fun _ _ stored => ?_
  cases stored <;> trivial

/-- A refresh signs for the user it has found. -/
theorem refresh_signs (tenantId token : String) :
    (refresh hashRefreshToken parseUuid issuer audience tenantId token).Ensures KnownReply SignsBacked s := by
  unfold refresh
  cases hashRefreshToken token with
  | error e => trivial
  | ok tokenHash =>
      refine fun s₁ h₁ => ⟨trivial, fun found _ => ?_⟩
      rcases found with e | _ | userIdStr
      · trivial
      · trivial
      show (redeem _ _ _ _ _ _ _).Ensures _ _ _
      unfold redeem
      cases parseUuid (afterLastColon userIdStr) with
      | none => trivial
      | some userId =>
          refine fun s₂ h₂ => ⟨trivial, fun reply hreply => ?_⟩
          rcases reply with e | _ | user
          · trivial
          · trivial
          have huser : user ∈ s₂.users := hreply
          exact Prog.Ensures.bind (revokeRefreshToken_signs token) fun s₃ h₃ _ =>
            issuePair_signs (h₃.1.subset huser)

theorem logout_signs (token : String) :
    (logout hashRefreshToken token).Ensures KnownReply SignsBacked s := by
  refine Prog.Ensures.bind (revokeRefreshToken_signs token) fun _ _ revoked => ?_
  cases revoked <;> trivial

/-- A ticket has the subject and the roles of the claims it is issued for. -/
theorem wsToken_signsBacked {claims : Option JwtClaims} (hclaims : ∀ c ∈ claims, Backed s.users c) :
    (wsToken issuer audience claims).Ensures KnownReply SignsBacked s := by
  cases claims with
  | none => trivial
  | some claims =>
      refine fun s₁ h₁ => ⟨trivial, fun now _ => fun s₂ h₂ => ⟨trivial, fun jti _ => fun s₃ h₃ =>
        ⟨trivial, fun allowed _ => ?_⟩⟩⟩
      rcases allowed with e | _ | _
      · trivial
      · trivial
      refine fun s₄ h₄ => ⟨?_, fun token _ => ?_⟩
      · have hbacked : Backed s₄.users claims :=
          (hclaims claims rfl).mono (((h₁.trans h₂).trans h₃).trans h₄).1
        exact hbacked
      rcases token with e | token
      · trivial
      refine fun _ _ => ⟨trivial, fun stored _ => ?_⟩
      rcases stored with e | _
      · trivial
      refine fun _ _ => ⟨trivial, fun expiring _ => ?_⟩
      rcases expiring with e | _ <;> trivial

theorem me_signs (claims : Option JwtClaims) : (me parseUuid claims).Ensures KnownReply SignsBacked s := by
  cases claims with
  | none => trivial
  | some claims =>
      unfold me
      dsimp only
      cases parseUuid claims.sub with
      | none => trivial
      | some userId =>
          refine fun _ _ => ⟨trivial, fun reply _ => ?_⟩
          rcases reply with e | _ | user <;> trivial

theorem withToken_signs {token : Option String} {k : Option JwtClaims → AuthProg HttpResponse}
    (hk : ∀ (s' : AccountStore) (claims : Option JwtClaims), (∀ c ∈ claims, Backed s'.users c) →
      (k claims).Ensures KnownReply SignsBacked s') :
    (withToken token k).Ensures KnownReply SignsBacked s := by
  cases token with
  | none => exact hk s none nofun
  | some token =>
      refine fun s₁ _ => ⟨trivial, fun decoded hdecoded => ?_⟩
      cases decoded with
      | error e => trivial
      | ok claims =>
          refine hk s₁ (some claims) fun c hc => ?_
          rw [← Option.some.inj hc]
          exact hdecoded

end signing

/-! ### Every handler among the others -/

section requests

variable {hashPassword : String → String → Except String String} {verifyPassword : String → String → Bool}
  {hashRefreshToken : String → Except String String} {parseUuid : String → Option Uuid}
  {issuer audience : String} {ι : Type} {requests : ι → AccountRequest} {s₀ s : AccountStore}

/-- What the environment is known to reply. -/
theorem knownReply_execAuth {tick : AccountTick} (hfair : tick.Unforged s)
    (h : Founded hashPassword requests s₀ s) (c : AuthCmd) :
    KnownReply s c (execAuth tick.toAuthTick c s.auth).1 := by
  cases c with
  | getUserById tenantId id =>
      show KnownReply s (.getUserById tenantId id)
        (tick.attempt s.auth (.ok (s.auth.getUserById tenantId id)) s.auth).1
      unfold AuthTick.attempt
      cases tick.fault with
      | some e => trivial
      | none =>
          cases hfound : s.auth.getUserById tenantId id with
          | none => trivial
          | some user => exact List.mem_of_find?_eq_some hfound
  | decodeJwt token =>
      rw [execAuth_decodeJwt]
      cases hdecoded : tick.decoded with
      | error e => trivial
      | ok claims => exact h.signed claims (hfair claims hdecoded)
  | _ => trivial

/-- A program of the token handlers keeps to what it signs, whatever is required of its answer. -/
theorem respects_liftAuth {Q : AccountStore → HttpResponse → Prop} {p : AuthProg HttpResponse}
    (hp : p.Ensures KnownReply SignsBacked s) (hQ : ∀ s', s ≤ s' → ∀ response, Q s' response) :
    (liftAuth p).Respects execAccount AccountTick.Unforged (Founded hashPassword requests s₀)
      (Proper hashPassword requests) Q s := by
  induction p generalizing s with
  | ret response => exact hQ s le_rfl response
  | call c k ih =>
      intro s' hle hs'
      obtain ⟨hc, hk⟩ := hp s' hle
      refine ⟨?_, fun tick hfair => ?_⟩
      · cases c with
        | encodeJwt claims => exact hc
        | _ => trivial
      · have hgrows := execAccount_grows tick (.auth c) s'
        exact ih _ ((hk _ (knownReply_execAuth hfair hs' c)).mono hgrows) fun s'' hle' =>
          hQ s'' ((hle.trans hgrows).trans hle')

/-- A registration hashes its password, and is answered with 201 only with its account stored. -/
theorem register_respects {i : ι} {tenantId email password : String}
    (hi : requests i = .register tenantId email password) :
    (register hashPassword tenantId email password).Respects execAccount AccountTick.Unforged
      (Founded hashPassword requests s₀) (Proper hashPassword requests)
      (fun s response => Answers hashPassword verifyPassword s response (.register tenantId email password))
      s := by
  have hanswer : ∀ (s : AccountStore) (response : HttpResponse), response.status ≠ 201 →
      Answers hashPassword verifyPassword s response (.register tenantId email password) :=
    fun _ _ hstatus h => absurd h hstatus
  unfold register
  split
  · exact hanswer s _ (by simp)
  refine Prog.respects_call fun s₁ h₁ hs₁ => ⟨trivial, fun tick _ => ?_⟩
  rcases (execAccount tick (.allowSlidingWindow _ _ _) s₁).1 with e | _ | _
  · exact hanswer _ _ (by simp [internalError])
  · exact hanswer _ _ (by simp)
  refine Prog.respects_call fun s₂ h₂ hs₂ => ⟨trivial, fun tick _ => ?_⟩
  rcases (execAccount tick (.getUserByEmail _ _) s₂).1 with e | _ | user
  · exact hanswer _ _ (by simp [internalError])
  · show (createAccount _ _ _ _).Respects _ _ _ _ _ _
    refine Prog.respects_call fun s₃ h₃ hs₃ => ⟨trivial, fun tick _ => ?_⟩
    generalize (execAccount tick .generateSalt s₃).1 = salt
    cases hhash : hashPassword salt password with
    | error e => exact hanswer _ _ (by simp [internalError])
    | ok passwordHash =>
        have hasked : Asked hashPassword requests (tenantOrDefault tenantId) email passwordHash :=
          ⟨i, tenantId, password, hi, rfl, salt, hhash⟩
        refine Prog.respects_call fun s₄ h₄ hs₄ => ⟨⟨rfl, hasked⟩, fun tick _ => ?_⟩
        rcases createUser_reply tick (tenantOrDefault tenantId) email passwordHash "user" s₄ with
          ⟨e, hreply⟩ | ⟨-, hreply, husers⟩
        · rw [hreply]
          unfold answerCreate
          dsimp only
          split
          · exact hanswer _ _ (by simp)
          · exact hanswer _ _ (by simp [internalError])
        · rw [hreply]
          refine fun _ => ⟨newUser tick.uuid (tenantOrDefault tenantId) email passwordHash "user", ?_, rfl,
            salt, hhash⟩
          rw [husers]
          exact List.mem_append_right _ (List.mem_singleton_self _)
  · exact hanswer _ _ (by simp)

/-- A login is answered with 200 only for a user whose password it has. -/
theorem login_respects (tenantId email password : String) :
    (login verifyPassword hashRefreshToken issuer audience tenantId email password).Respects execAccount
      AccountTick.Unforged (Founded hashPassword requests s₀) (Proper hashPassword requests)
      (fun s response => Answers hashPassword verifyPassword s response (.login tenantId email password))
      s := by
  have hanswer : ∀ (s : AccountStore) (response : HttpResponse), response.status ≠ 200 →
      Answers hashPassword verifyPassword s response (.login tenantId email password) :=
    fun _ _ hstatus h => absurd h hstatus
  unfold login
  refine Prog.respects_call fun s₁ h₁ hs₁ => ⟨trivial, fun tick _ => ?_⟩
  rcases (execAccount tick (.allowSlidingWindow _ _ _) s₁).1 with e | _ | _
  · exact hanswer _ _ (by simp [internalError])
  · exact hanswer _ _ (by simp)
  refine Prog.respects_call fun s₂ h₂ hs₂ => ⟨trivial, fun tick _ => ?_⟩
  rcases getUserByEmail_cases tick (tenantOrDefault tenantId) email s₂ with
    ⟨e, hreply⟩ | hreply | ⟨user, hreply, huser, haccount⟩
  · rw [hreply]
    exact hanswer _ _ (by simp [internalError])
  · rw [hreply]
    exact hanswer _ _ (by simp)
  · rw [hreply]
    dsimp only
    split
    · rename_i hverified
      exact respects_liftAuth (issuePair_signs huser) fun s' hle response _ =>
        ⟨user, hle.1.subset huser, haccount, hverified⟩
    · exact hanswer _ _ (by simp)

/-- Every request keeps to what is required of it. -/
theorem request_respects (i : ι) :
    ((requests i).prog hashPassword verifyPassword hashRefreshToken parseUuid issuer audience).Respects
      execAccount AccountTick.Unforged (Founded hashPassword requests s₀) (Proper hashPassword requests)
      (fun s response => Answers hashPassword verifyPassword s response (requests i)) s := by
  cases hi : requests i with
  | register tenantId email password =>
      exact register_respects hi
  | login tenantId email password => exact login_respects tenantId email password
  | refresh tenantId refreshToken => exact respects_liftAuth (refresh_signs _ _) fun _ _ _ => trivial
  | logout refreshToken => exact respects_liftAuth (logout_signs _) fun _ _ _ => trivial
  | wsToken token =>
      exact respects_liftAuth (withToken_signs fun _ _ => wsToken_signsBacked) fun _ _ _ => trivial
  | me token => exact respects_liftAuth (withToken_signs fun _ _ _ => me_signs _) fun _ _ _ => trivial

end requests

/-! ### Runs -/

section runs

variable {hashPassword : String → String → Except String String} {verifyPassword : String → String → Bool}
  {hashRefreshToken : String → Except String String} {parseUuid : String → Option Uuid}
  {issuer audience : String} {ι : Type} {requests : ι → AccountRequest} {s₀ s : AccountStore}

theorem Answers.mono {s s' : AccountStore} (hle : s ≤ s') {response : HttpResponse} {request : AccountRequest}
    (h : Answers hashPassword verifyPassword s response request) :
    Answers hashPassword verifyPassword s' response request := by
  cases request with
  | login tenantId email password =>
      intro hstatus
      obtain ⟨user, huser, hrest⟩ := h hstatus
      exact ⟨user, hle.1.subset huser, hrest⟩
  | register tenantId email password =>
      intro hstatus
      obtain ⟨user, huser, hrest⟩ := h hstatus
      exact ⟨user, hle.1.subset huser, hrest⟩
  | _ => trivial

/-- The user of an account is unique. -/
theorem AccountStore.account_inj {user user' : User} (huser : user ∈ s.users) (huser' : user' ∈ s.users)
    (h : user.account = user'.account) : user = user' :=
  List.inj_on_of_nodup_map s.account_nodup huser huser' h

/-- What holds of the pool throughout a run, and what is required of its programs. -/
structure AccountRun (hashPassword : String → String → Except String String)
    (verifyPassword : String → String → Bool) (requests : ι → AccountRequest) (s₀ : AccountStore)
    (s : AccountPool ι) : Prop where
  founded : Founded hashPassword requests s₀ s.store
  respects : ∀ i, (s.progs i).Respects execAccount AccountTick.Unforged (Founded hashPassword requests s₀)
    (Proper hashPassword requests)
    (fun s response => Answers hashPassword verifyPassword s response (requests i)) s.store

theorem accountRun_start (hsigned : ∀ claims ∈ s₀.signed, Backed s₀.users claims) :
    AccountRun hashPassword verifyPassword requests s₀
      (accountPool hashPassword verifyPassword hashRefreshToken parseUuid issuer audience requests s₀) :=
  ⟨⟨List.prefix_rfl, fun _ huser => Or.inl huser, hsigned⟩, request_respects⟩

/-- What a request is required of its answer holds when it has ended. -/
theorem AccountRun.answers {s : AccountPool ι} (h : AccountRun hashPassword verifyPassword requests s₀ s)
    {i : ι} {response : HttpResponse} (hi : s.progs i = .ret response) :
    Answers hashPassword verifyPassword s.store response (requests i) := by
  have hrespects := h.respects i
  rw [hi] at hrespects
  exact hrespects

variable [DecidableEq ι]

theorem AccountRun.step {s : AccountPool ι} {e : ι × AccountTick} (hfair : e.2.Unforged s.store)
    (h : AccountRun hashPassword verifyPassword requests s₀ s) :
    AccountRun hashPassword verifyPassword requests s₀ (Pool.step execAccount s e) := by
  obtain ⟨hfounded, hrespects⟩ := Pool.respects_step
    (Q := fun i s response => Answers hashPassword verifyPassword s response (requests i))
    (fun _ _ _ _ hle h => h.mono hle) (fun tick c s _ _ _ => execAccount_grows tick c s)
    (fun tick c _ _ hs hproper => hs.exec tick c hproper) hfair h.founded h.respects
  exact ⟨hfounded, hrespects⟩

theorem accountRun_run {schedule : List (ι × AccountTick)}
    (hsigned : ∀ claims ∈ s₀.signed, Backed s₀.users claims)
    (hfair : Pool.Meets execAccount (fun s e => e.2.Unforged s.store) schedule
      (accountPool hashPassword verifyPassword hashRefreshToken parseUuid issuer audience requests s₀)) :
    AccountRun hashPassword verifyPassword requests s₀ (Pool.run execAccount schedule
      (accountPool hashPassword verifyPassword hashRefreshToken parseUuid issuer audience requests s₀)) :=
  hfair.run_invariant (fun _ _ h hfair => h.step hfair) (accountRun_start hsigned)

end runs

/-! ### One registration of each account -/

section once

variable {hashPassword : String → String → Except String String} {verifyPassword : String → String → Bool}
  {hashRefreshToken : String → Except String String} {parseUuid : String → Option Uuid}
  {issuer audience : String} {ι : Type} {requests : ι → AccountRequest} {s₀ : AccountStore}
  {account : String × String}

/-- A user of the account is created. -/
def Creates (account : String × String) : (c : AccountCmd) → c.Reply → Prop
  | .createUser tenantId email _ _, .ok _ => (tenantId, email) = account
  | _, _ => False

/-- A user is created only where the account is free, and is stored. -/
theorem Creates.stored {tick : AccountTick} {c : AccountCmd} {s : AccountStore}
    (h : Creates account c (execAccount tick c s).1) :
    account ∉ s.users.map User.account ∧ account ∈ (execAccount tick c s).2.users.map User.account := by
  cases c with
  | createUser tenantId email passwordHash role =>
      rcases createUser_reply tick tenantId email passwordHash role s with ⟨e, hreply⟩ | ⟨hfree, hreply, husers⟩
      · rw [hreply] at h
        exact h.elim
      · rw [hreply] at h
        have haccount : (tenantId, email) = account := h
        subst haccount
        refine ⟨hfree, ?_⟩
        rw [husers, List.map_append]
        exact List.mem_append_right _ (List.mem_singleton_self _)
  | _ => exact h.elim

/-- A request to register the account. -/
def AccountRequest.Registers (account : String × String) : AccountRequest → Prop
  | .register tenantId email _ => (tenantOrDefault tenantId, email) = account
  | _ => False

/-- A registration is answered with 201 right after its user is created. -/
theorem register_returnsAfter (tenantId email password : String) :
    (register hashPassword tenantId email password).ReturnsAfter (fun response => response.status = 201)
      (Creates (tenantOrDefault tenantId, email)) := by
  have hother : ∀ {response : HttpResponse} {P : Prop}, response.status ≠ 201 → ∀ a,
      (.ret response : AccountProg HttpResponse) = .ret a → a.status = 201 → P := by
    intro response P hstatus a ha h
    cases ha
    exact absurd h hstatus
  unfold register
  split
  · trivial
  intro allowed
  rcases allowed with e | _ | _
  · exact ⟨hother (by decide), trivial⟩
  · exact ⟨hother (by decide), trivial⟩
  refine ⟨nofun, fun found => ?_⟩
  rcases found with e | _ | user
  · exact ⟨hother (by decide), trivial⟩
  · refine ⟨nofun, ?_⟩
    intro salt
    dsimp only
    cases hashPassword salt password with
    | error e => exact ⟨hother (by decide), trivial⟩
    | ok passwordHash =>
        refine ⟨nofun, fun created => ?_⟩
        cases created with
        | error e =>
            unfold answerCreate
            dsimp only
            split
            · exact ⟨hother (by decide), trivial⟩
            · exact ⟨hother (by decide), trivial⟩
        | ok user => exact ⟨fun _ _ _ => rfl, trivial⟩
  · exact ⟨hother (by decide), trivial⟩

/-- A registration of the account that is answered with 201. -/
def Registered (account : String × String) (request : AccountRequest) (p : AccountProg HttpResponse) : Prop :=
  request.Registers account ∧ p.Returned fun response => response.status = 201

/-- What holds of the registrations of an account throughout a run. -/
structure RegisteredOnce (requests : ι → AccountRequest) (s₀ : AccountStore) (account : String × String)
    (s : AccountPool ι) : Prop where
  kept : s₀.users <+: s.store.users
  creating : ∀ i, (requests i).Registers account →
    (s.progs i).ReturnsAfter (fun response => response.status = 201) (Creates account)
  stored : ∀ i, Registered account (requests i) (s.progs i) → account ∈ s.store.users.map User.account
  once : ∀ i j, Registered account (requests i) (s.progs i) → Registered account (requests j) (s.progs j) →
    i = j
  taken : account ∈ s₀.users.map User.account → ∀ i, ¬ Registered account (requests i) (s.progs i)

/-- The account of a registration answered with 201 is stored, with a hash of its password. -/
theorem AccountRun.registered {s : AccountPool ι} (h : AccountRun hashPassword verifyPassword requests s₀ s)
    {i : ι} {tenantId email password : String} (hi : requests i = .register tenantId email password)
    (hanswer : (s.progs i).Returned fun response => response.status = 201) :
    ∃ user ∈ s.store.users, user.account = (tenantOrDefault tenantId, email) ∧
      HashOf hashPassword password user.passwordHash := by
  cases hp : s.progs i with
  | call c k =>
      rw [hp] at hanswer
      exact hanswer.elim
  | ret response =>
      rw [hp] at hanswer
      have hrequired := h.answers hp
      rw [hi] at hrequired
      exact hrequired hanswer

variable [DecidableEq ι]

/-- A step keeps the users. -/
theorem step_users (s : AccountPool ι) (e : ι × AccountTick) :
    s.store.users <+: (Pool.step execAccount s e).store.users := by
  cases hnext : (s.progs e.1).next with
  | none => rw [Pool.step_finished hnext]
  | some c =>
      rw [Pool.step_store hnext]
      exact (execAccount_grows e.2 c s.store).1

theorem RegisteredOnce.step {s : AccountPool ι} (e : ι × AccountTick)
    (h : RegisteredOnce requests s₀ account s) :
    RegisteredOnce requests s₀ account (Pool.step execAccount s e) := by
  -- an answer with 201 that is new was given for an account that was free
  have hnew : Registered account (requests e.1) ((Pool.step execAccount s e).progs e.1) →
      Registered account (requests e.1) (s.progs e.1) ∨ account ∉ s.store.users.map User.account ∧
        account ∈ (Pool.step execAccount s e).store.users.map User.account := by
    rintro ⟨hregisters, hafter⟩
    rw [Pool.step_progs_self] at hafter
    rcases (h.creating e.1 hregisters).of_returned hafter with hbefore | ⟨c, hnext, hcreates⟩
    · exact Or.inl ⟨hregisters, hbefore⟩
    · rw [Pool.step_store hnext]
      exact Or.inr hcreates.stored
  have hgrows : ∀ {a : String × String}, a ∈ s.store.users.map User.account →
      a ∈ (Pool.step execAccount s e).store.users.map User.account :=
    fun ha => ((step_users s e).map User.account).subset ha
  refine ⟨h.kept.trans (step_users s e), fun i hi => ?_, fun i hi => ?_, ?_, fun htaken i => ?_⟩
  · by_cases hie : i = e.1
    · subst hie
      rw [Pool.step_progs_self]
      exact (h.creating e.1 hi).step _ _
    · rw [Pool.step_progs_of_ne hie]
      exact h.creating i hi
  · by_cases hie : i = e.1
    · subst hie
      rcases hnew hi with hbefore | ⟨-, hstored⟩
      · exact hgrows (h.stored e.1 hbefore)
      · exact hstored
    · rw [Pool.step_progs_of_ne hie] at hi
      exact hgrows (h.stored i hi)
  · exact Pool.unique_step h.once fun hafter => (hnew hafter).imp_right fun hfree j hj =>
      hfree.1 (h.stored j hj)
  · by_cases hie : i = e.1
    · subst hie
      intro hafter
      rcases hnew hafter with hbefore | ⟨hfree, -⟩
      · exact h.taken htaken e.1 hbefore
      · exact hfree ((h.kept.map User.account).subset htaken)
    · rw [Pool.step_progs_of_ne hie]
      exact h.taken htaken i

omit [DecidableEq ι] in
theorem registeredOnce_start : RegisteredOnce requests s₀ account
      (accountPool hashPassword verifyPassword hashRefreshToken parseUuid issuer audience requests s₀) := by
  have hnone : ∀ i, ¬ Registered account (requests i)
      ((requests i).prog hashPassword verifyPassword hashRefreshToken parseUuid issuer audience) := by
    rintro i ⟨hregisters, hanswer⟩
    cases hi : requests i with
    | register tenantId email password =>
        rw [hi] at hanswer
        change (register _ _ _ _).Returned _ at hanswer
        unfold register at hanswer
        split at hanswer
        · exact absurd hanswer (by simp [Prog.Returned])
        · exact hanswer
    | _ =>
        rw [hi] at hregisters
        exact hregisters
  refine ⟨List.prefix_rfl, fun i hi => ?_, fun i hi => absurd hi (hnone i), fun i _ hi => absurd hi (hnone i),
    fun _ => hnone⟩
  show ((requests i).prog hashPassword verifyPassword hashRefreshToken parseUuid issuer
    audience).ReturnsAfter _ _
  cases hreq : requests i with
  | register tenantId email password =>
      rw [hreq] at hi
      have haccount : (tenantOrDefault tenantId, email) = account := hi
      rw [← haccount]
      exact register_returnsAfter tenantId email password
  | _ =>
      rw [hreq] at hi
      exact hi.elim

end once

/-! ### What a run of the handlers guarantees -/

section guarantees

variable {ι : Type} [DecidableEq ι] (hashPassword : String → String → Except String String)
  (verifyPassword : String → String → Bool) (hashRefreshToken : String → Except String String)
  (parseUuid : String → Option Uuid) (issuer audience : String) (requests : ι → AccountRequest)
  (s₀ : AccountStore) (schedule : List (ι × AccountTick))

/-- **Roles**: in every run users are only added, with the role `user` and as a registration asked; whatever
claims are signed are those of a user, and another role than `user` was the role of that user at the
start. -/
theorem roles_never_escalate (hsigned : ∀ claims ∈ s₀.signed, Backed s₀.users claims)
    (hfair : Pool.Meets execAccount (fun s e => e.2.Unforged s.store) schedule
      (accountPool hashPassword verifyPassword hashRefreshToken parseUuid issuer audience requests s₀)) :
    let s := (Pool.run execAccount schedule
      (accountPool hashPassword verifyPassword hashRefreshToken parseUuid issuer audience requests s₀)).store
    s₀.users <+: s.users ∧
    (∀ user ∈ s.users, user ∈ s₀.users ∨
      (user.role = "user" ∧ Asked hashPassword requests user.tenantId user.email user.passwordHash)) ∧
    ∀ claims ∈ s.signed, Backed s.users claims ∧
      ∀ role ∈ claims.roles, role ≠ "user" → ∃ user ∈ s₀.users, user.role = role ∧ claims.sub = user.id ∧
        claims.tenantId = user.tenantId ∧ claims.email = user.email := by
  intro s
  have hrun := (accountRun_run hsigned hfair).founded
  refine ⟨hrun.kept, hrun.added, fun claims hclaims =>
    ⟨hrun.signed claims hclaims, fun role hrole hother => ?_⟩⟩
  obtain ⟨user, huser, hsub, htenant, hemail, hroles⟩ := hrun.signed claims hclaims
  rw [hroles] at hrole
  obtain rfl := List.mem_singleton.mp hrole
  rcases hrun.added user huser with hfirst | ⟨hrole, -⟩
  · exact ⟨user, hfirst, rfl, hsub, htenant, hemail⟩
  · exact absurd hrole hother

/-- **Registration**: of the registrations of an account, at most one is answered with 201 in a run, and none
where the account existed. -/
theorem registered_once (account : String × String) :
    let s := Pool.run execAccount schedule
      (accountPool hashPassword verifyPassword hashRefreshToken parseUuid issuer audience requests s₀)
    (∀ i j, Registered account (requests i) (s.progs i) → Registered account (requests j) (s.progs j) →
      i = j) ∧
    (account ∈ s₀.users.map User.account → ∀ i, ¬ Registered account (requests i) (s.progs i)) := by
  intro s
  have hrun : RegisteredOnce requests s₀ account s :=
    Pool.run_invariant (fun _ e h => h.step e) registeredOnce_start schedule
  exact ⟨hrun.once, hrun.taken⟩

/-- **Login**: a login that is answered with 200 has the password of the account, as it was at the start or
as a registration set it, and any registration of the account answered with 201 had that password. -/
theorem login_needs_password
    (hverify : ∀ password password' passwordHash, HashOf hashPassword password passwordHash →
      verifyPassword password' passwordHash = true → password' = password)
    (hsigned : ∀ claims ∈ s₀.signed, Backed s₀.users claims)
    (hfair : Pool.Meets execAccount (fun s e => e.2.Unforged s.store) schedule
      (accountPool hashPassword verifyPassword hashRefreshToken parseUuid issuer audience requests s₀))
    {i : ι} {tenantId email password : String} (hi : requests i = .login tenantId email password)
    (hanswer : ((Pool.run execAccount schedule (accountPool hashPassword verifyPassword hashRefreshToken
      parseUuid issuer audience requests s₀)).progs i).Returned fun response => response.status = 200) :
    ((∃ user ∈ s₀.users, user.account = (tenantOrDefault tenantId, email) ∧
        verifyPassword password user.passwordHash = true) ∨
      ∃ j tenant, requests j = .register tenant email password ∧
        tenantOrDefault tenant = tenantOrDefault tenantId) ∧
    ∀ j tenant password', requests j = .register tenant email password' →
      tenantOrDefault tenant = tenantOrDefault tenantId →
      ((Pool.run execAccount schedule (accountPool hashPassword verifyPassword hashRefreshToken parseUuid
        issuer audience requests s₀)).progs j).Returned (fun response => response.status = 201) →
      password = password' := by
  have hrun : AccountRun hashPassword verifyPassword requests s₀ _ := accountRun_run hsigned hfair
  revert hanswer
  generalize Pool.run execAccount schedule _ = s at hrun ⊢
  intro hanswer
  cases hp : s.progs i with
  | call c k =>
      rw [hp] at hanswer
      exact hanswer.elim
  | ret response =>
      rw [hp] at hanswer
      have hrequired := hrun.answers hp
      rw [hi] at hrequired
      obtain ⟨user, huser, haccount, hverified⟩ := hrequired hanswer
      obtain ⟨htenant, hemail⟩ := Prod.mk.inj haccount
      refine ⟨?_, fun j tenant password' hj hsame hregistered => ?_⟩
      · rcases hrun.founded.added user huser with hfirst | ⟨-, j, tenant, password', hj, hsame, hhash⟩
        · exact Or.inl ⟨user, hfirst, haccount, hverified⟩
        · have hpassword := hverify password' password user.passwordHash hhash hverified
          rw [hemail, ← hpassword] at hj
          exact Or.inr ⟨j, tenant, hj, hsame.trans htenant⟩
      · obtain ⟨user', huser', haccount', hhash⟩ := hrun.registered hj hregistered
        rw [hsame] at haccount'
        obtain rfl := AccountStore.account_inj huser huser' (haccount.trans haccount'.symm)
        exact hverify password' password user.passwordHash hhash hverified

end guarantees

/-! ### Two registrations, a login and a ticket -/

def sampleSalt : String := "c2FtcGxlLXNhbHQtMDAwMQ"

def samplePrefix : String := "$argon2id$v=19$m=19456,t=2,p=1$" ++ sampleSalt ++ "$"

/-- The hashes with one salt, and a digest that is the password. -/
def sampleHashPassword (salt password : String) : Except String String :=
  if salt = sampleSalt then .ok (samplePrefix ++ password) else .error "Password hashing failed: salt invalid"

def sampleVerify (password passwordHash : String) : Bool := passwordHash = samplePrefix ++ password

theorem sampleVerify_hash {password password' passwordHash : String}
    (h : HashOf sampleHashPassword password passwordHash)
    (hverify : sampleVerify password' passwordHash = true) :
    password' = password := by
  obtain ⟨salt, hhash⟩ := h
  unfold sampleHashPassword at hhash
  split at hhash
  · have hsame := of_decide_eq_true hverify
    rw [← Except.ok.inj hhash] at hsame
    exact (String.append_right_inj _ |>.mp hsame).symm
  · exact nomatch hhash

/-- Two registrations of an account, a login, and a ticket for the analyst. -/
def accountRequests : Fin 4 → AccountRequest
  | 0 => .register "acme" "new@acme.test" "correct horse"
  | 1 => .register "acme" "new@acme.test" "battery staple"
  | 2 => .login "acme" "new@acme.test" "correct horse"
  | 3 => .wsToken (some "eyJhbGciOiJIUzI1NiJ9.analyst.c2ln")

def analystClaims : JwtClaims :=
  createClaims "mini-siem" "mini-siem-api" (.ofSeconds 0) sampleUser.id "acme" sampleUser.email ["analyst"] 15

/-- The analyst, whose token is signed. -/
def accountStore : AccountStore where
  auth := sampleStore
  signed := [analystClaims]
  id_nodup := by decide
  account_nodup := by decide

def accountTick : AccountTick :=
  { clock := .ofSeconds 60, refreshToken := secondToken, uuid := "9b2f7c1e-8f43-4b51-9a53-2f0a5b6c7d01",
    salt := sampleSalt }

/-- The token of the ticket request decodes to the claims of the analyst. -/
def analystTick : AccountTick := { accountTick with decoded := .ok analystClaims }

/-- Both registrations find the account free, and the login and the ticket come after them. -/
def accountSchedule : List (Fin 4 × AccountTick) :=
  ((List.replicate 4 ((List.finRange 4).take 2)).flatten ++ List.replicate 8 2).map (fun i => (i, accountTick)) ++
    List.replicate 7 (3, analystTick)

abbrev fourRequests : AccountPool (Fin 4) :=
  accountPool sampleHashPassword sampleVerify sampleHash sampleParseUuid "mini-siem" "mini-siem-api"
    accountRequests accountStore

theorem accountStore_backed : ∀ claims ∈ accountStore.signed, Backed accountStore.users claims := by
  intro claims hclaims
  rw [List.mem_singleton.mp hclaims]
  exact ⟨sampleUser, List.mem_singleton_self _, rfl, rfl, rfl, rfl⟩

/-- The only token that is decoded is that of the analyst. -/
theorem accountSchedule_unforged :
    Pool.Meets execAccount (fun s e => e.2.Unforged s.store) accountSchedule fourRequests := by
  have hticks : ∀ e ∈ accountSchedule, ∀ claims, e.2.decoded = .ok claims → claims = analystClaims := by
    intro e he claims hclaims
    rcases List.mem_append.mp he with he | he
    · obtain ⟨i, -, rfl⟩ := List.mem_map.mp he
      exact nomatch hclaims
    · rw [List.eq_of_mem_replicate he] at hclaims
      exact (Except.ok.inj hclaims).symm
  refine ((Pool.meets_true accountSchedule).and_forall hticks).of_invariant
    (fun s => analystClaims ∈ s.store.signed) (fun s e hs _ => ?_) (fun s e hs h claims hclaims => ?_)
    (List.mem_singleton_self _)
  · cases hnext : (s.progs e.1).next with
    | none => rwa [Pool.step_finished hnext]
    | some c =>
        rw [Pool.step_store hnext]
        exact (execAccount_grows e.2 c s.store).2.subset hs
  · rw [h.2 claims hclaims]
    exact hs

theorem analystClaims_signed :
    analystClaims ∈ (Pool.run execAccount accountSchedule fourRequests).store.signed :=
  List.mem_of_mem_head? rfl

/-- The claims of the ticket. -/
def ticketClaims : JwtClaims :=
  createWsClaims "mini-siem" "mini-siem-api" accountTick.clock accountTick.uuid sampleUser.id "acme"
    sampleUser.email ["analyst"] 60

/-- The claims of the ticket have the role of a user that was there. -/
theorem fourRequests_roles : ticketClaims ∈ (Pool.run execAccount accountSchedule fourRequests).store.signed ∧
    ∃ user ∈ accountStore.users, user.role = "analyst" ∧ ticketClaims.sub = user.id ∧
      ticketClaims.tenantId = user.tenantId ∧ ticketClaims.email = user.email := by
  have hsigned : ticketClaims ∈ (Pool.run execAccount accountSchedule fourRequests).store.signed :=
    List.mem_of_mem_getLast? rfl
  have hroles := roles_never_escalate sampleHashPassword sampleVerify sampleHash sampleParseUuid "mini-siem"
    "mini-siem-api" accountRequests accountStore accountSchedule accountStore_backed accountSchedule_unforged
  refine ⟨hsigned, ?_⟩
  exact (hroles.2.2 ticketClaims hsigned).2 "analyst" (List.mem_singleton_self _) (by decide)

/-- One registration is answered with 201, the other is not. -/
theorem fourRequests_registered :
    ((Pool.run execAccount accountSchedule fourRequests).progs 0).Returned
      (fun response => response.status = 201) ∧
    ¬ ((Pool.run execAccount accountSchedule fourRequests).progs 1).Returned
      (fun response => response.status = 201) := by
  have hfirst : ((Pool.run execAccount accountSchedule fourRequests).progs 0).Returned
      fun response => response.status = 201 := by decide +kernel
  refine ⟨hfirst, fun hsecond => ?_⟩
  have honce := registered_once sampleHashPassword sampleVerify sampleHash sampleParseUuid "mini-siem"
    "mini-siem-api" accountRequests accountStore accountSchedule ("acme", "new@acme.test")
  exact absurd (honce.1 0 1 ⟨rfl, hfirst⟩ ⟨rfl, hsecond⟩) (by decide)

/-- The login is answered with 200, and one of the registrations has its password. -/
theorem fourRequests_login :
    ((Pool.run execAccount accountSchedule fourRequests).progs 2).Returned
      (fun response => response.status = 200) ∧
    ∃ j tenant, accountRequests j = .register tenant "new@acme.test" "correct horse" ∧
      tenantOrDefault tenant = "acme" := by
  have hanswer : ((Pool.run execAccount accountSchedule fourRequests).progs 2).Returned
      fun response => response.status = 200 := by decide +kernel
  have hlogin := login_needs_password sampleHashPassword sampleVerify sampleHash sampleParseUuid "mini-siem"
    "mini-siem-api" accountRequests accountStore accountSchedule (fun _ _ _ => sampleVerify_hash)
    accountStore_backed accountSchedule_unforged (i := 2) rfl hanswer
  refine ⟨hanswer, hlogin.1.resolve_left ?_⟩
  rintro ⟨user, huser, haccount, -⟩
  rw [List.mem_singleton.mp huser] at haccount
  exact absurd haccount (by decide)

end MiniSiem

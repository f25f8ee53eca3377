import MiniSiem.AuthStore

/-! # Redeeming a refresh token

`refresh` and `logout` of `api/handlers/auth.rs` with the refresh-token methods of `db/redis.rs`.

* **Parameters.**  The HMAC of a token, the parser of identifiers, and the issuer and audience of the
  configuration.
* **Requests.**  Any number of `/refresh` and `/logout` requests present the same token and run as a
  pool on Redis and the users.
* **Single use.**  `refresh_redeemed_once`: a pair is returned at most once, and by no request after a
  completed logout, in every run in which a token is found and logged out only while no other
  request is redeeming it, and in which the revocation of a refresh does not fail. -/

namespace MiniSiem

/-! ### The handlers -/

def tokenKey (tokenHash : String) : String := "refresh_token:" ++ tokenHash

def userTokensKey (userId : String) : String := "user_tokens:" ++ userId

/-- The text after the last colon, or all of it. -/
def afterLastColon (s : String) : String :=
  String.ofList (s.toList.reverse.takeWhile (· ≠ ':')).reverse

/-- `tenant_or_default`. -/
def tenantOrDefault (tenantId : String) : String := if tenantId = "" then "default" else tenantId

/-- `create_claims`. -/
def createClaims (issuer audience : String) (now : DateTime) (userId tenantId email : String)
    (roles : List String) (minutes : ℤ) : JwtClaims where
  sub := userId
  tenantId := tenantId
  email := email
  roles := roles
  jti := none
  iss := issuer
  aud := audience
  tokenUse := none
  exp := UInt64.ofInt ((now.1 + minutes * 60000000000) / 1000000000)
  iat := UInt64.ofInt now.timestamp

def internalError : HttpResponse := ⟨500, some (errorBody "Internal server error")⟩

section handlers

variable (hashRefreshToken : String → Except String String) (parseUuid : String → Option Uuid)
  (issuer audience : String)

/-- `store_refresh_token`. -/
def storeRefreshToken (userId tenantId token : String) (ttlSeconds : UInt64) :
    AuthProg (Except String Unit) :=
  match hashRefreshToken token with
  | .error e => .ret (.error e)
  | .ok tokenHash =>
      .call (.setEx (tokenKey tokenHash) (tenantId ++ ":" ++ userId) ttlSeconds) fun
        | .error e => .ret (.error e)
        | .ok () => .call (.sadd (userTokensKey userId) tokenHash) fun
            | .error e => .ret (.error e)
            | .ok () => .call (.expire (userTokensKey userId) ttlSeconds) fun r => .ret r

/-- The rest of `revoke_refresh_token` once the token is deleted. -/
def removeToken (tokenHash userId : String) : AuthProg (Except String Unit) :=
  .call (.srem (userTokensKey (afterLastColon userId)) tokenHash) fun r => .ret r

/-- The rest of `revoke_refresh_token` once the token is found. -/
def deleteToken (tokenHash userId : String) : AuthProg (Except String Unit) :=
  .call (.del (tokenKey tokenHash)) fun
    | .error e => .ret (.error e)
    | .ok () => removeToken tokenHash userId

/-- `revoke_refresh_token`. -/
def revokeRefreshToken (token : String) : AuthProg (Except String Unit) :=
  match hashRefreshToken token with
  | .error e => .ret (.error e)
  | .ok tokenHash => .call (.get (tokenKey tokenHash)) fun
      | .error e => .ret (.error e)
      | .ok none => .ret (.ok ())
      | .ok (some userId) => deleteToken tokenHash userId

/-- The new pair of a refresh. -/
def issuePair (user : User) : AuthProg HttpResponse :=
  .call .now fun now =>
    .call (.encodeJwt
        (createClaims issuer audience now user.id user.tenantId user.email [user.role] 15)) fun
      | .error _ => .ret internalError
      | .ok accessToken => .call .generateRefreshToken fun newRefreshToken =>
          (storeRefreshToken hashRefreshToken user.id user.tenantId newRefreshToken
            (7 * 24 * 3600)).bind fun
              | .error _ => .ret internalError
              | .ok () => .ret ⟨200, some (.obj [("access_token", .str accessToken),
                  ("refresh_token", .str newRefreshToken)])⟩

/-- The rotation of a refresh; the result of the revocation is ignored. -/
def rotate (token : String) (user : User) : AuthProg HttpResponse :=
  (revokeRefreshToken hashRefreshToken token).bind fun _ =>
    issuePair hashRefreshToken issuer audience user

/-- A refresh that has found the token. -/
def redeem (tenantId token userIdStr : String) : AuthProg HttpResponse :=
  match parseUuid (afterLastColon userIdStr) with
  | none => .ret internalError
  | some userId => .call (.getUserById tenantId userId) fun
      | .error _ => .ret internalError
      | .ok none => .ret ⟨401, none⟩
      | .ok (some user) => rotate hashRefreshToken issuer audience token user

/-- `/refresh`. -/
def refresh (tenantId token : String) : AuthProg HttpResponse :=
  match hashRefreshToken token with
  | .error _ => .ret internalError
  | .ok tokenHash => .call (.lookUp (tokenKey tokenHash)) fun
      | .error _ => .ret internalError
      | .ok none => .ret ⟨401, some (errorBody "Invalid or expired refresh token")⟩
      | .ok (some userIdStr) =>
          redeem hashRefreshToken parseUuid issuer audience (tenantOrDefault tenantId) token userIdStr

/-- `/logout`. -/
def logout (token : String) : AuthProg HttpResponse :=
  (revokeRefreshToken hashRefreshToken token).bind fun
    | .error _ => .ret internalError
    | .ok () => .ret ⟨200, none⟩

/-! ### Requests that present one token -/

inductive TokenRequest
  | refresh (tenantId : String)
  | logout (tenantId : String)

def TokenRequest.prog (token : String) : TokenRequest → AuthProg HttpResponse
  | refresh tenantId =>
      MiniSiem.refresh hashRefreshToken parseUuid issuer audience tenantId token
  | logout _ => MiniSiem.logout hashRefreshToken token

/-- Any number of requests with the same token, none of them started. -/
def tokenPool {ι : Type} (token : String) (requests : ι → TokenRequest) (store : AuthStore) :
    AuthPool ι HttpResponse :=
  ⟨fun i => (requests i).prog hashRefreshToken parseUuid issuer audience token, store⟩

end handlers

namespace TokenRequest

def isRefresh : TokenRequest → Bool
  | refresh _ => true
  | logout _ => false

/-- A refresh that has found the token and is not finished. -/
def redeeming : TokenRequest → AuthProg HttpResponse → Bool
  | refresh _, .call (.lookUp _) _ => false
  | refresh _, .call _ _ => true
  | _, _ => false

/-- A refresh that has returned a new pair. -/
def redeemed : TokenRequest → AuthProg HttpResponse → Bool
  | refresh _, .ret r => r.status = 200
  | _, _ => false

/-- A logout that has been completed. -/
def loggedOut : TokenRequest → AuthProg HttpResponse → Bool
  | logout _, .ret r => r.status = 200
  | _, _ => false

end TokenRequest

section runs

variable {ι : Type} [DecidableEq ι] (requests : ι → TokenRequest)

/-- A step that returns a pair is the first one to do so, and no logout has been completed. -/
def RedeemsOnce (s : AuthPool ι HttpResponse) (e : ι × AuthTick) : Prop :=
  (requests e.1).redeemed ((Atomic.Pool.step execAuth s e).progs e.1) = true →
    (requests e.1).redeemed (s.progs e.1) = false →
      ∀ j, (requests j).redeemed (s.progs j) = false ∧ (requests j).loggedOut (s.progs j) = false

/-- No request is redeeming the token. -/
def NoneRedeeming (s : AuthPool ι HttpResponse) : Prop :=
  ∀ j, (requests j).redeeming (s.progs j) = false

/-- A refresh finds the token while no other one is redeeming it, the revocation of a refresh does
not fail, and a logout is completed while no refresh is redeeming the token. -/
def RedeemsAlone (s : AuthPool ι HttpResponse) (e : ι × AuthTick) : Prop :=
  (∀ c ∈ (s.progs e.1).next, ∀ key ∈ c.lookedUp, s.store.holds e.2.clock key = true →
    e.2.fault = none → NoneRedeeming requests s) ∧
  (∀ c ∈ (s.progs e.1).next, (requests e.1).isRefresh = true → c.revokes = true →
    e.2.fault = none) ∧
  ((requests e.1).loggedOut ((s.progs e.1).step (execAuth e.2) s.store).1 = true →
    NoneRedeeming requests s)

instance [Fintype ι] (s : AuthPool ι HttpResponse) : Decidable (NoneRedeeming requests s) :=
  inferInstanceAs (Decidable (∀ _, _))

instance [Fintype ι] (s : AuthPool ι HttpResponse) (e : ι × AuthTick) :
    Decidable (RedeemsAlone requests s e) :=
  inferInstanceAs (Decidable (_ ∧ _ ∧ _))

end runs

/-! ### Where a request can be -/

section positions

variable (hashRefreshToken : String → Except String String) (parseUuid : String → Option Uuid)
  (issuer audience token tokenHash : String)

/-- A new random token has another hash than the presented one. -/
def NewToken (tick : AuthTick) : Prop :=
  hashRefreshToken tick.refreshToken ≠ hashRefreshToken token

/-- What is known of a reply. -/
def FreshReply : Unit → (c : AuthCmd) → c.Reply → Prop
  | (), .generateRefreshToken, reply => hashRefreshToken reply ≠ hashRefreshToken token
  | (), _, _ => True

/-- A command that neither looks a token up nor stores one under the key. -/
def Harmless (key : String) : Unit → AuthCmd → Prop
  | (), .lookUp _ => False
  | (), .set k _ | (), .setEx k _ _ => k ≠ key
  | (), _ => True

theorem Harmless.stores {key : String} {c : AuthCmd} (h : Harmless key () c) :
    ∀ k ∈ c.stores, k ≠ key := by
  intro k hk
  cases c <;> cases hk <;> exact h

/-- Where a refresh is: from `revoked` on the token is gone. -/
inductive RefreshAt (gone : Prop) : AuthProg HttpResponse → Prop
  | start (tenantId : String) :
      RefreshAt gone (refresh hashRefreshToken parseUuid issuer audience tenantId token)
  | redeeming (tenantId userIdStr : String) :
      RefreshAt gone (redeem hashRefreshToken parseUuid issuer audience tenantId token userIdStr)
  | rotating (user : User) : RefreshAt gone (rotate hashRefreshToken issuer audience token user)
  | deleting (user : User) (userId : String) :
      RefreshAt gone ((deleteToken tokenHash userId).bind fun _ =>
        issuePair hashRefreshToken issuer audience user)
  | revoked (p : AuthProg HttpResponse) (hgone : gone)
      (hp : p.Ensures (FreshReply hashRefreshToken token) (Harmless (tokenKey tokenHash)) ()) :
      RefreshAt gone p
  | failed (r : HttpResponse) (hr : r.status ≠ 200) : RefreshAt gone (.ret r)

/-- The answer of a logout. -/
def answerLogout (r : Except String Unit) : AuthProg HttpResponse :=
  match r with
  | .error _ => .ret internalError
  | .ok () => .ret ⟨200, none⟩

/-- Where a logout is: it is completed when the token is gone. -/
inductive LogoutAt (gone : Prop) : AuthProg HttpResponse → Prop
  | start : LogoutAt gone (logout hashRefreshToken token)
  | deleting (userId : String) : LogoutAt gone ((deleteToken tokenHash userId).bind answerLogout)
  | removing (userId : String) (hgone : gone) :
      LogoutAt gone ((removeToken tokenHash userId).bind answerLogout)
  | failed (r : HttpResponse) (hr : r.status ≠ 200) : LogoutAt gone (.ret r)
  | done (r : HttpResponse) (hgone : gone) : LogoutAt gone (.ret r)

/-- Where a request is. -/
def RequestAt (gone : Prop) : TokenRequest → AuthProg HttpResponse → Prop
  | .refresh _, p => RefreshAt hashRefreshToken parseUuid issuer audience token tokenHash gone p
  | .logout _, p => LogoutAt hashRefreshToken token tokenHash gone p

end positions

section steps

variable {hashRefreshToken : String → Except String String} {parseUuid : String → Option Uuid}
  {issuer audience token tokenHash : String}

theorem RequestAt.mono {gone gone' : Prop} (hgone : gone → gone') {request : TokenRequest}
    {p : AuthProg HttpResponse}
    (h : RequestAt hashRefreshToken parseUuid issuer audience token tokenHash gone request p) :
    RequestAt hashRefreshToken parseUuid issuer audience token tokenHash gone' request p := by
  cases request with
  | refresh tenantId =>
      cases h with
      | start tenantId => exact .start tenantId
      | redeeming tenantId userIdStr => exact .redeeming tenantId userIdStr
      | rotating user => exact .rotating user
      | deleting user userId => exact .deleting user userId
      | revoked p hold hp => exact .revoked _ (hgone hold) hp
      | failed r hr => exact .failed r hr
  | logout tenantId =>
      cases h with
      | start => exact .start
      | deleting userId => exact .deleting userId
      | removing userId hold => exact .removing userId (hgone hold)
      | failed r hr => exact .failed r hr
      | done r hold => exact .done r (hgone hold)

section hashed

variable (hhash : hashRefreshToken token = .ok tokenHash)
include hhash

/-- A new pair is stored under another key. -/
theorem issuePair_ensures (user : User) :
    (issuePair hashRefreshToken issuer audience user).Ensures (FreshReply hashRefreshToken token)
      (Harmless (tokenKey tokenHash)) () := by
  refine fun _ _ => ⟨trivial, fun now _ => fun _ _ => ⟨trivial, fun signed _ => ?_⟩⟩
  rcases signed with e | accessToken
  · trivial
  refine fun _ _ => ⟨trivial, fun newToken hnew => ?_⟩
  refine Atomic.Prog.Ensures.bind ?_ fun _ _ stored => ?_
  · unfold storeRefreshToken
    cases hother : hashRefreshToken newToken with
    | error e => trivial
    | ok otherHash =>
        have hne : hashRefreshToken newToken ≠ hashRefreshToken token := hnew
        rw [hhash, hother] at hne
        refine fun _ _ => ⟨fun heq => ?_, fun added _ => ?_⟩
        · exact hne (congrArg Except.ok (String.append_right_inj _ |>.mp heq))
        rcases added with e | _
        · trivial
        refine fun _ _ => ⟨trivial, fun expiring _ => ?_⟩
        rcases expiring with e | _
        · trivial
        exact fun _ _ => ⟨trivial, fun _ _ => trivial⟩
  · cases stored <;> trivial

theorem refresh_eq (tenantId : String) :
    refresh hashRefreshToken parseUuid issuer audience tenantId token =
      .call (.lookUp (tokenKey tokenHash)) fun
        | .error _ => .ret internalError
        | .ok none => .ret ⟨401, some (errorBody "Invalid or expired refresh token")⟩
        | .ok (some userIdStr) =>
            redeem hashRefreshToken parseUuid issuer audience (tenantOrDefault tenantId) token
              userIdStr := by
  unfold refresh
  rw [hhash]

theorem revokeRefreshToken_eq :
    revokeRefreshToken hashRefreshToken token = .call (.get (tokenKey tokenHash)) fun
      | .error e => .ret (.error e)
      | .ok none => .ret (.ok ())
      | .ok (some userId) => deleteToken tokenHash userId := by
  unfold revokeRefreshToken
  rw [hhash]

/-- The commands of a request do not store a token under the key. -/
theorem RequestAt.harmless {gone : Prop} {request : TokenRequest} {p : AuthProg HttpResponse}
    (h : RequestAt hashRefreshToken parseUuid issuer audience token tokenHash gone request p)
    {c : AuthCmd} (hnext : p.next = some c) : ∀ k ∈ c.stores, k ≠ tokenKey tokenHash := by
  have hnone : ∀ {c' : AuthCmd}, c'.stores = none → some c' = some c →
      ∀ k ∈ c.stores, k ≠ tokenKey tokenHash := by
    intro c' hc' heq k hk
    rw [← Option.some.inj heq, hc'] at hk
    cases hk
  cases request with
  | refresh tenantId =>
      cases h with
      | start tenantId =>
          rw [refresh_eq hhash] at hnext
          exact hnone rfl hnext
      | redeeming tenantId userIdStr =>
          unfold redeem at hnext
          cases hid : parseUuid (afterLastColon userIdStr) with
          | none =>
              rw [hid] at hnext
              cases hnext
          | some userId =>
              rw [hid] at hnext
              exact hnone rfl hnext
      | rotating user =>
          unfold rotate at hnext
          rw [revokeRefreshToken_eq hhash] at hnext
          exact hnone rfl hnext
      | deleting user userId => exact hnone rfl hnext
      | revoked p hgone hp => exact (hp.of_next hnext).stores
      | failed r hr => cases hnext
  | logout tenantId =>
      cases h with
      | start =>
          unfold logout at hnext
          rw [revokeRefreshToken_eq hhash] at hnext
          exact hnone rfl hnext
      | deleting userId => exact hnone rfl hnext
      | removing userId hgone => exact hnone rfl hnext
      | failed r hr => cases hnext
      | done r hgone => cases hnext

/-- One step of a refresh. -/
theorem RefreshAt.step {store : AuthStore} {tick : AuthTick} {p : AuthProg HttpResponse}
    (h : RefreshAt hashRefreshToken parseUuid issuer audience token tokenHash
      (store.Gone (tokenKey tokenHash)) p)
    (hnew : NewToken hashRefreshToken token tick)
    (hrevoke : ∀ c ∈ p.next, c.revokes = true → tick.fault = none) :
    RefreshAt hashRefreshToken parseUuid issuer audience token tokenHash
      ((p.step (execAuth tick) store).2.Gone (tokenKey tokenHash)) (p.step (execAuth tick) store).1 := by
  have hissue : ∀ user, (issuePair hashRefreshToken issuer audience user).Ensures
      (FreshReply hashRefreshToken token) (Harmless (tokenKey tokenHash)) () :=
    issuePair_ensures hhash
  have hunauthorized : (401 : ℕ) ≠ 200 := by decide
  have hinternal : (500 : ℕ) ≠ 200 := by decide
  cases h with
  | start tenantId =>
      rw [refresh_eq hhash]
      rw [Atomic.Prog.step_call]
      dsimp only
      rcases (execAuth tick (.lookUp (tokenKey tokenHash)) store).1 with e | _ | userIdStr
      · exact .failed _ hinternal
      · exact .failed _ hunauthorized
      · exact .redeeming _ _
  | redeeming tenantId userIdStr =>
      unfold redeem
      cases parseUuid (afterLastColon userIdStr) with
      | none => exact .failed _ hinternal
      | some userId =>
          rw [Atomic.Prog.step_call]
          dsimp only
          rcases (execAuth tick (.getUserById tenantId userId) store).1 with e | _ | user
          · exact .failed _ hinternal
          · exact .failed _ hunauthorized
          · exact .rotating user
  | rotating user =>
      unfold rotate at hrevoke ⊢
      rw [revokeRefreshToken_eq hhash] at hrevoke ⊢
      rw [Atomic.Prog.call_bind] at hrevoke ⊢
      rw [Atomic.Prog.step_call, execAuth_get (hrevoke _ rfl rfl)]
      dsimp only
      cases hget : store.get tick.clock (tokenKey tokenHash) with
      | error e => exact .revoked _ (AuthStore.gone_of_get_error hget) (hissue user)
      | ok found =>
          cases found with
          | none => exact .revoked _ (AuthStore.gone_of_get_none hget) (hissue user)
          | some userId => exact .deleting user userId
  | deleting user userId =>
      have hfault := hrevoke _ rfl rfl
      unfold deleteToken
      rw [Atomic.Prog.call_bind]
      rw [Atomic.Prog.step_call, execAuth_del hfault]
      refine .revoked _ AuthStore.gone_del ?_
      exact fun _ _ => ⟨trivial, fun _ _ => hissue user⟩
  | revoked p hgone hp =>
      refine .revoked _ ?_ (hp.step fun c => ?_)
      · cases p with
        | ret r => exact hgone
        | call c k =>
            have hc : Harmless (tokenKey tokenHash) () c := hp.of_next rfl
            exact hgone.exec hc.stores
      · cases c <;> trivial
  | failed r hr => exact .failed r hr

/-- One step of a logout. -/
theorem LogoutAt.step {store : AuthStore} {tick : AuthTick} {p : AuthProg HttpResponse}
    (h : LogoutAt hashRefreshToken token tokenHash (store.Gone (tokenKey tokenHash)) p) :
    LogoutAt hashRefreshToken token tokenHash
      ((p.step (execAuth tick) store).2.Gone (tokenKey tokenHash)) (p.step (execAuth tick) store).1 := by
  have hinternal : (500 : ℕ) ≠ 200 := by decide
  cases h with
  | start =>
      unfold logout
      rw [revokeRefreshToken_eq hhash, Atomic.Prog.call_bind]
      rw [Atomic.Prog.step_call]
      cases hfault : tick.fault with
      | some e =>
          rw [execAuth_get_fault hfault]
          exact .failed _ hinternal
      | none =>
          rw [execAuth_get hfault]
          dsimp only
          cases hget : store.get tick.clock (tokenKey tokenHash) with
          | error e => exact .failed _ hinternal
          | ok found =>
              cases found with
              | none => exact .done _ (AuthStore.gone_of_get_none hget)
              | some userId => exact .deleting userId
  | deleting userId =>
      unfold deleteToken
      rw [Atomic.Prog.call_bind]
      rw [Atomic.Prog.step_call]
      cases hfault : tick.fault with
      | some e =>
          rw [execAuth_del_fault hfault]
          exact .failed _ hinternal
      | none =>
          rw [execAuth_del hfault]
          exact .removing userId AuthStore.gone_del
  | removing userId hgone =>
      have hgone' : (execAuth tick (.srem (userTokensKey (afterLastColon userId)) tokenHash)
          store).2.Gone (tokenKey tokenHash) := hgone.exec fun _ heq => by cases heq
      unfold removeToken
      rw [Atomic.Prog.call_bind]
      rw [Atomic.Prog.step_call]
      dsimp only
      rcases (execAuth tick (.srem (userTokensKey (afterLastColon userId)) tokenHash) store).1 with
        e | done
      · exact .failed _ hinternal
      · exact .done _ hgone'
  | failed r hr => exact .failed r hr
  | done r hgone => exact .done r hgone

end hashed

end steps

/-! ### What the positions tell -/

section positions

variable {hashRefreshToken : String → Except String String} {parseUuid : String → Option Uuid}
  {issuer audience token tokenHash : String} (hhash : hashRefreshToken token = .ok tokenHash)
include hhash

/-- A pair is returned, and a logout completed, when the token is gone. -/
theorem RequestAt.gone {gone : Prop} {request : TokenRequest} {p : AuthProg HttpResponse}
    (h : RequestAt hashRefreshToken parseUuid issuer audience token tokenHash gone request p)
    (hdone : request.redeemed p = true ∨ request.loggedOut p = true) : gone := by
  cases request with
  | refresh tenantId =>
      rcases hdone with hdone | hdone
      · cases h with
        | start tenantId =>
            rw [refresh_eq hhash] at hdone
            cases hdone
        | redeeming tenantId userIdStr =>
            unfold redeem at hdone
            cases hid : parseUuid (afterLastColon userIdStr) with
            | none =>
                rw [hid] at hdone
                cases hdone
            | some userId =>
                rw [hid] at hdone
                cases hdone
        | rotating user =>
            unfold rotate at hdone
            rw [revokeRefreshToken_eq hhash] at hdone
            cases hdone
        | deleting user userId => cases hdone
        | revoked p hgone hp => exact hgone
        | failed r hr => exact absurd (of_decide_eq_true hdone) hr
      · cases p <;> cases hdone
  | logout tenantId =>
      rcases hdone with hdone | hdone
      · cases p <;> cases hdone
      · cases h with
        | start =>
            unfold logout at hdone
            rw [revokeRefreshToken_eq hhash] at hdone
            cases hdone
        | deleting userId => cases hdone
        | removing userId hgone => exact hgone
        | failed r hr => exact absurd (of_decide_eq_true hdone) hr
        | done r hgone => exact hgone

/-- A refresh that looks the token up has just started. -/
theorem RefreshAt.of_lookUp {gone : Prop} {p : AuthProg HttpResponse} {key : String}
    (h : RefreshAt hashRefreshToken parseUuid issuer audience token tokenHash gone p)
    (hnext : p.next = some (.lookUp key)) :
    ∃ tenantId, p = refresh hashRefreshToken parseUuid issuer audience tenantId token := by
  cases h with
  | start tenantId => exact ⟨tenantId, rfl⟩
  | redeeming tenantId userIdStr =>
      unfold redeem at hnext
      cases hid : parseUuid (afterLastColon userIdStr) with
      | none =>
          rw [hid] at hnext
          cases hnext
      | some userId =>
          rw [hid] at hnext
          cases hnext
  | rotating user =>
      unfold rotate at hnext
      rw [revokeRefreshToken_eq hhash] at hnext
      cases hnext
  | deleting user userId => cases hnext
  | revoked p hgone hp => exact (hp.of_next hnext).elim
  | failed r hr => cases hnext

/-- The first step of a refresh returns no pair, and goes on only if the token is found. -/
theorem refresh_firstStep {tick : AuthTick} {store : AuthStore} {tenantId : String}
    (request : TokenRequest) :
    request.redeemed ((refresh hashRefreshToken parseUuid issuer audience tenantId token).step
      (execAuth tick) store).1 = false ∧
    (request.redeeming ((refresh hashRefreshToken parseUuid issuer audience tenantId token).step
      (execAuth tick) store).1 = true →
      tick.fault = none ∧ store.holds tick.clock (tokenKey tokenHash) = true) := by
  have hanswer : ∀ r : HttpResponse, r.status ≠ 200 → request.redeemed (.ret r) = false ∧
      request.redeeming (.ret r) = false := by
    intro r hr
    cases request with
    | refresh tenantId => exact ⟨decide_eq_false hr, rfl⟩
    | logout tenantId => exact ⟨rfl, rfl⟩
  have hunauthorized : (401 : ℕ) ≠ 200 := by decide
  have hinternal : (500 : ℕ) ≠ 200 := by decide
  have hstop : ∀ r : HttpResponse, r.status ≠ 200 → ∀ P : Prop,
      request.redeemed (.ret r) = false ∧ (request.redeeming (.ret r) = true → P) := by
    intro r hr P
    obtain ⟨hredeemed, hredeeming⟩ := hanswer r hr
    exact ⟨hredeemed, fun h => absurd h (by rw [hredeeming]; decide)⟩
  rw [refresh_eq hhash, Atomic.Prog.step_call, execAuth_lookUp]
  cases hfault : tick.fault with
  | some e =>
      rw [execAuth_get_fault hfault]
      exact hstop _ hinternal _
  | none =>
      rw [execAuth_get hfault]
      dsimp only
      cases hget : store.get tick.clock (tokenKey tokenHash) with
      | error e => exact hstop _ hinternal _
      | ok found =>
          cases found with
          | none => exact hstop _ hunauthorized _
          | some userIdStr =>
              have hholds : store.holds tick.clock (tokenKey tokenHash) = true := by
                unfold AuthStore.holds
                rw [hget]
              refine ⟨?_, fun _ => ⟨rfl, hholds⟩⟩
              dsimp only
              unfold redeem
              cases parseUuid (afterLastColon userIdStr) with
              | none => exact (hanswer _ hinternal).1
              | some userId => cases request <;> rfl

end positions

/-! ### Runs -/

section claims

/-- Redeeming, or done. -/
def TokenRequest.claims (request : TokenRequest) (p : AuthProg HttpResponse) : Prop :=
  request.redeeming p = true ∨ request.redeemed p = true

/-- An unfinished request that claims the token or comes to claim it is redeeming it, or looks it
up. -/
theorem TokenRequest.redeeming_or_lookUp {request : TokenRequest} {c : AuthCmd}
    {k : c.Reply → AuthProg HttpResponse} {p : AuthProg HttpResponse} (h : request.claims p) :
    request.redeeming (.call c k) = true ∨ ∃ tenantId key, request = .refresh tenantId ∧ c = .lookUp key := by
  cases request with
  | logout tenantId => rcases h with h | h <;> cases p <;> cases h
  | refresh tenantId =>
      cases c with
      | lookUp key => exact Or.inr ⟨tenantId, key, rfl, rfl⟩
      | _ => exact Or.inl rfl

theorem TokenRequest.finished_of_redeemed {request : TokenRequest} {p : AuthProg HttpResponse}
    (h : request.redeemed p = true) : ∃ r, p = .ret r := by
  cases p with
  | ret r => exact ⟨r, rfl⟩
  | call c k => cases request <;> cases h

theorem TokenRequest.redeeming_ret (request : TokenRequest) (r : HttpResponse) :
    request.redeeming (.ret r) = false := by
  cases request <;> rfl

theorem TokenRequest.redeeming_of_loggedOut {request : TokenRequest} {p q : AuthProg HttpResponse}
    (h : request.loggedOut p = true) : request.redeeming q = false := by
  cases request with
  | refresh tenantId => cases p <;> cases h
  | logout tenantId => rfl

end claims

section pool

variable {hashRefreshToken : String → Except String String} {parseUuid : String → Option Uuid}
  {issuer audience token tokenHash : String} {ι : Type} {requests : ι → TokenRequest}

/-- What holds throughout a run. -/
structure SingleUse (hashRefreshToken : String → Except String String)
    (parseUuid : String → Option Uuid) (issuer audience token tokenHash : String)
    (requests : ι → TokenRequest) (s : AuthPool ι HttpResponse) : Prop where
  shape : ∀ i, RequestAt hashRefreshToken parseUuid issuer audience token tokenHash
    (s.store.Gone (tokenKey tokenHash)) (requests i) (s.progs i)
  one : ∀ i j, (requests i).claims (s.progs i) → (requests j).claims (s.progs j) → i = j
  out : ∀ l, (requests l).loggedOut (s.progs l) = true →
    s.store.Gone (tokenKey tokenHash) ∧ NoneRedeeming requests s

theorem singleUse_start (hhash : hashRefreshToken token = .ok tokenHash) (requests : ι → TokenRequest)
    (store : AuthStore) :
    SingleUse hashRefreshToken parseUuid issuer audience token tokenHash requests
      (tokenPool hashRefreshToken parseUuid issuer audience token requests store) := by
  have hidle : ∀ i, ¬ (requests i).claims
      ((requests i).prog hashRefreshToken parseUuid issuer audience token) := by
    intro i
    cases requests i with
    | refresh tenantId =>
        show ¬ TokenRequest.claims _ (refresh _ _ _ _ _ _)
        rw [refresh_eq hhash]
        rintro (h | h) <;> cases h
    | logout tenantId =>
        unfold TokenRequest.claims TokenRequest.prog
        rintro (h | h)
        · cases h
        · cases h
  refine ⟨fun i => ?_, fun i j hi => absurd hi (hidle i), fun l hl => ?_⟩
  · show RequestAt _ _ _ _ _ _ _ (requests i) ((requests i).prog _ _ _ _ _)
    cases requests i with
    | refresh tenantId => exact .start tenantId
    | logout tenantId => exact .start
  · have hprog : (requests l).loggedOut
        ((requests l).prog hashRefreshToken parseUuid issuer audience token) = true := hl
    cases hreq : requests l with
    | refresh tenantId =>
        rw [hreq] at hprog
        show _
        cases hp : TokenRequest.prog hashRefreshToken parseUuid issuer audience token
          (.refresh tenantId) with
        | ret r =>
            rw [hp] at hprog
            cases hprog
        | call c k =>
            rw [hp] at hprog
            cases hprog
    | logout tenantId =>
        rw [hreq] at hprog
        unfold TokenRequest.prog logout at hprog
        rw [revokeRefreshToken_eq hhash] at hprog
        cases hprog

/-- A token that is gone stays gone. -/
theorem SingleUse.gone_step (hhash : hashRefreshToken token = .ok tokenHash)
    {s : AuthPool ι HttpResponse} {e : ι × AuthTick}
    (h : SingleUse hashRefreshToken parseUuid issuer audience token tokenHash requests s)
    (hgone : s.store.Gone (tokenKey tokenHash)) :
    ((s.progs e.1).step (execAuth e.2) s.store).2.Gone (tokenKey tokenHash) := by
  cases hp : s.progs e.1 with
  | ret r => exact hgone
  | call c k => exact hgone.exec ((h.shape e.1).harmless hhash (by rw [hp]; rfl))

variable (hhash : hashRefreshToken token = .ok tokenHash) {s : AuthPool ι HttpResponse}
  {e : ι × AuthTick}
  (h : SingleUse hashRefreshToken parseUuid issuer audience token tokenHash requests s)
  (halone : RedeemsAlone requests s e)
include hhash h halone

/-- A request that claims the token after its step was redeeming it or done before, or has found it
while no other request was redeeming it. -/
theorem SingleUse.claims_before (hclaims : (requests e.1).claims ((s.progs e.1).step (execAuth e.2) s.store).1) :
    (requests e.1).claims (s.progs e.1) ∨
      (requests e.1).redeemed ((s.progs e.1).step (execAuth e.2) s.store).1 = false ∧
      ¬ s.store.Gone (tokenKey tokenHash) ∧ NoneRedeeming requests s := by
  cases hp : s.progs e.1 with
  | ret r =>
      rw [hp] at hclaims
      exact Or.inl hclaims
  | call c k =>
      rcases TokenRequest.redeeming_or_lookUp (k := k) hclaims with hredeeming | ⟨tenantId, key, hreq, rfl⟩
      · exact Or.inl (Or.inl hredeeming)
      · refine Or.inr ?_
        have hshape := h.shape e.1
        rw [hreq] at hshape
        obtain ⟨tenantId', hstart⟩ := RefreshAt.of_lookUp hhash hshape (by rw [hp]; rfl)
        have hkey : key = tokenKey tokenHash := by
          rw [hp, refresh_eq hhash] at hstart
          cases hstart
          rfl
        rw [← hp]
        rw [hstart] at hclaims ⊢
        obtain ⟨hnot, hfound⟩ : (requests e.1).redeemed ((refresh hashRefreshToken parseUuid issuer
          audience tenantId' token).step (execAuth e.2) s.store).1 = false ∧ _ :=
          refresh_firstStep hhash (requests e.1)
        have hredeeming := hclaims.resolve_right (by rw [hnot]; decide)
        obtain ⟨hfault, hholds⟩ := hfound hredeeming
        refine ⟨hnot, fun hgone => ?_, ?_⟩
        · rw [hgone.not_holds] at hholds
          cases hholds
        · exact halone.1 (.lookUp key) (by rw [hp]; rfl) key rfl (hkey ▸ hholds) hfault

/-- The program of the step, at its new place. -/
theorem SingleUse.shape_self (hnew : NewToken hashRefreshToken token e.2) :
    RequestAt hashRefreshToken parseUuid issuer audience token tokenHash
      (((s.progs e.1).step (execAuth e.2) s.store).2.Gone (tokenKey tokenHash)) (requests e.1)
      ((s.progs e.1).step (execAuth e.2) s.store).1 := by
  have hshape := h.shape e.1
  have hrevoke := halone.2.1
  cases hreq : requests e.1 with
  | refresh tenantId =>
      rw [hreq] at hshape hrevoke
      exact RefreshAt.step hhash hshape hnew fun c hc => hrevoke c hc rfl
  | logout tenantId =>
      rw [hreq] at hshape
      exact LogoutAt.step hhash hshape

variable [DecidableEq ι]

theorem SingleUse.step (hnew : NewToken hashRefreshToken token e.2) :
    SingleUse hashRefreshToken parseUuid issuer audience token tokenHash requests
      (Atomic.Pool.step execAuth s e) := by
  have hself : (Atomic.Pool.step execAuth s e).progs e.1 =
      ((s.progs e.1).step (execAuth e.2) s.store).1 := Atomic.Pool.step_progs_self e
  have hclaims := h.claims_before hhash halone
  have hplace := h.shape_self hhash halone hnew
  have hstays : s.store.Gone (tokenKey tokenHash) →
      (Atomic.Pool.step execAuth s e).store.Gone (tokenKey tokenHash) := h.gone_step hhash
  -- a logout leaves nobody redeeming
  have hnone : s.store.Gone (tokenKey tokenHash) → NoneRedeeming requests s →
      NoneRedeeming requests (Atomic.Pool.step execAuth s e) := by
    intro hgone hnobody j
    by_cases hj : j = e.1
    · subst hj
      rw [hself]
      cases hredeeming : (requests e.1).redeeming ((s.progs e.1).step (execAuth e.2) s.store).1 with
      | false => rfl
      | true =>
          rcases hclaims (Or.inl hredeeming) with hbefore | ⟨-, hfound, -⟩
          · have hdone := hbefore.resolve_left (by rw [hnobody e.1]; decide)
            obtain ⟨r, hr⟩ := TokenRequest.finished_of_redeemed hdone
            rw [hr, Atomic.Prog.step_ret, TokenRequest.redeeming_ret] at hredeeming
            cases hredeeming
          · exact absurd hgone hfound
    · rw [Atomic.Pool.step_progs_of_ne hj]
      exact hnobody j
  refine ⟨fun i => ?_, ?_, fun l hl => ?_⟩
  · by_cases hi : i = e.1
    · subst hi
      rw [hself]
      exact hplace
    · rw [Atomic.Pool.step_progs_of_ne hi]
      exact (h.shape i).mono hstays
  · refine Atomic.Pool.unique_step h.one fun hafter => ?_
    rw [hself] at hafter
    rcases hclaims hafter with hbefore | ⟨-, hfound, hnobody⟩
    · exact Or.inl hbefore
    · refine Or.inr fun j hj => ?_
      rcases hj with hj | hj
      · rw [hnobody j] at hj
        cases hj
      · exact hfound ((h.shape j).gone hhash (Or.inl hj))
  · by_cases hle : l = e.1
    · subst hle
      rw [hself] at hl
      have hnobody := halone.2.2 hl
      refine ⟨hplace.gone hhash (Or.inr hl), fun j => ?_⟩
      by_cases hj : j = e.1
      · subst hj
        exact TokenRequest.redeeming_of_loggedOut hl
      · rw [Atomic.Pool.step_progs_of_ne hj]
        exact hnobody j
    · rw [Atomic.Pool.step_progs_of_ne hle] at hl
      obtain ⟨hgone, hnobody⟩ := h.out l hl
      exact ⟨hstays hgone, hnone hgone hnobody⟩

theorem SingleUse.redeemsOnce : RedeemsOnce requests s e := by
  intro hafter hbefore j
  rw [Atomic.Pool.step_progs_self] at hafter
  rcases h.claims_before hhash halone (Or.inr hafter) with hclaims | ⟨hnot, -, -⟩
  · have hredeeming := hclaims.resolve_right (by rw [hbefore]; decide)
    constructor
    · cases hj : (requests j).redeemed (s.progs j) with
      | false => rfl
      | true =>
          obtain rfl := h.one j e.1 (Or.inr hj) hclaims
          exact hj.symm.trans hbefore
    · cases hj : (requests j).loggedOut (s.progs j) with
      | false => rfl
      | true => exact hredeeming.symm.trans ((h.out j hj).2 e.1)
  · rw [hafter] at hnot
    cases hnot

end pool

/-- **Single use of a refresh token**: in every run of requests that present it, in which it is
redeemed alone, a pair is returned at most once, and none after a completed logout. -/
theorem refresh_redeemed_once {ι : Type} [DecidableEq ι]
    (hashRefreshToken : String → Except String String) (parseUuid : String → Option Uuid)
    (issuer audience token : String) (requests : ι → TokenRequest) (store : AuthStore)
    (schedule : List (ι × AuthTick))
    (hnew : ∀ e ∈ schedule, NewToken hashRefreshToken token e.2)
    (halone : Atomic.Pool.Meets execAuth (RedeemsAlone requests) schedule
      (tokenPool hashRefreshToken parseUuid issuer audience token requests store)) :
    Atomic.Pool.Meets execAuth (RedeemsOnce requests) schedule
      (tokenPool hashRefreshToken parseUuid issuer audience token requests store) := by
  have henv := halone.and_forall hnew
  cases hhash : hashRefreshToken token with
  | ok tokenHash =>
      exact henv.of_invariant
        (SingleUse hashRefreshToken parseUuid issuer audience token tokenHash requests)
        (fun s e h ⟨halone, hnew⟩ => h.step hhash halone hnew)
        (fun s e h ⟨halone, _⟩ => h.redeemsOnce hhash halone) (singleUse_start hhash requests store)
  | error failure =>
      -- every request has already failed
      have hfailed : ∀ i, (tokenPool hashRefreshToken parseUuid issuer audience token requests
          store).progs i = .ret internalError := by
        intro i
        show (requests i).prog _ _ _ _ _ = _
        cases requests i with
        | refresh tenantId =>
            unfold TokenRequest.prog refresh
            rw [hhash]
        | logout tenantId =>
            unfold TokenRequest.prog logout revokeRefreshToken
            rw [hhash]
            rfl
      have hstay : ∀ (s : AuthPool ι HttpResponse) e, (∀ i, s.progs i = .ret internalError) →
          Atomic.Pool.step execAuth s e = s := fun s e h =>
        Atomic.Pool.step_finished (by rw [h e.1]; rfl)
      refine henv.of_invariant (fun s => ∀ i, s.progs i = .ret internalError) (fun s e h _ => ?_)
        (fun s e h _ => ?_) hfailed
      · rw [hstay s e h]
        exact h
      · intro hafter hbefore
        rw [hstay s e h, hbefore] at hafter
        cases hafter

/-! ### Two requests -/

def presentedToken : String := "dG9rZW4tb25lLXRva2VuLW9uZS10b2tlbi1vbmUtMDE="
def secondToken : String := "dG9rZW4tdHdvLXRva2VuLXR3by10b2tlbi10d28tMDI="
def thirdToken : String := "dG9rZW4tdGhyLXRva2VuLXRoci10b2tlbi10aHItMDM="

/-- The digests of the tokens that occur. -/
def sampleHash (token : String) : Except String String :=
  .ok (if token = presentedToken then "jZ0pT7mE2m8bq1xW5uYkQ3cV9dN4fL6hR0sA8gKiPzo"
    else if token = secondToken then "Xw4nB1vC7tR9yU2iO5pA8sD0fG3hJ6kL1zM4xN7cQeE"
    else "B5rT8yU1iO4pA7sD0fG3hJ6kL9zX2cV5bN8mQ1wE4qI")

def sampleParseUuid (s : String) : Option Uuid := if s.length = 36 then some s else none

def sampleUser : User where
  id := "4f1c9a52-5bd4-4d6c-9a45-0f6f0c6d5f01"
  tenantId := "acme"
  email := "analyst@acme.test"
  passwordHash := ""
  role := "analyst"

/-- The presented token is stored for its user. -/
def sampleStore : AuthStore where
  keys := Function.update (fun _ => none)
    (tokenKey "jZ0pT7mE2m8bq1xW5uYkQ3cV9dN4fL6hR0sA8gKiPzo")
    (some ⟨.str "acme:4f1c9a52-5bd4-4d6c-9a45-0f6f0c6d5f01", some 604800000⟩)
  users := [sampleUser]

def tokenTick (refreshToken : String) : AuthTick := { clock := .ofSeconds 60, refreshToken }

/-- A refresh, and a logout after it. -/
theorem refreshThenLogout_once :
    Atomic.Pool.Meets execAuth
      (RedeemsOnce fun | false => .refresh "acme" | true => .logout "acme")
      (List.replicate 11 (false, tokenTick secondToken) ++ [(true, tokenTick thirdToken)])
      (tokenPool sampleHash sampleParseUuid "mini-siem" "mini-siem-api" presentedToken
        (fun | false => .refresh "acme" | true => .logout "acme") sampleStore) := by
  refine refresh_redeemed_once sampleHash sampleParseUuid "mini-siem" "mini-siem-api" presentedToken
    (fun | false => .refresh "acme" | true => .logout "acme") sampleStore
    (List.replicate 11 (false, tokenTick secondToken) ++ [(true, tokenTick thirdToken)]) ?_ ?_
  · unfold NewToken
    decide +kernel
  · decide +kernel

/-- Two refreshes that look the token up before either of them deletes it. -/
theorem parallelRefreshes_not_once :
    ¬ ∀ (ι : Type) [DecidableEq ι] (hashRefreshToken : String → Except String String)
      (parseUuid : String → Option Uuid) (issuer audience token : String)
      (requests : ι → TokenRequest) (store : AuthStore) (schedule : List (ι × AuthTick)),
      (∀ e ∈ schedule, NewToken hashRefreshToken token e.2) →
      Atomic.Pool.Meets execAuth (RedeemsOnce requests) schedule
        (tokenPool hashRefreshToken parseUuid issuer audience token requests store) := by
  intro h
  have honce := h Bool sampleHash sampleParseUuid "mini-siem" "mini-siem-api" presentedToken
    (fun _ => .refresh "acme") sampleStore
    (([(false, tokenTick secondToken), (true, tokenTick thirdToken)] ++
      List.replicate 10 (false, tokenTick secondToken) ++
      List.replicate 7 (true, tokenTick thirdToken)) ++ (true, tokenTick thirdToken) :: [])
    (by unfold NewToken; decide +kernel)
  have hlast := honce.at_step _ _ _ (by decide +kernel) (by decide +kernel) false
  exact absurd hlast.1 (by decide +kernel)

end MiniSiem

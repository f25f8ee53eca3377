import MiniSiem.AuthStore

/-! # WebSocket tickets

`ws_token` (`api/handlers/auth.rs`), the middleware `JwtAuth` (`api/middleware/auth.rs`), `ws_alerts`
(`api/handlers/alerts.rs`) and the guards of the other handlers behind the middleware.

* **Tickets.**  `ws_token` signs claims with the use `ws` and stores the subject under their
  identifier (`wsToken_signs`).  A signed token decodes to its claims, or not at all.
* **Other handlers.**  Of each of them only the guard is modelled: none looks at the use of the token.
* **Single use.**  `ticket_used_once`: at most one connection is upgraded, and no other handler
  accepts the ticket, in every run in which a ticket is found only while no other request is
  consuming it and the other handlers it is presented to require a role it lacks. -/

namespace MiniSiem

/-! ### Issuing -/

def wsTokenKey (tenantId jti : String) : String := "ws_token:" ++ tenantId ++ ":" ++ jti

/-- `create_ws_claims`. -/
def createWsClaims (issuer audience : String) (now : DateTime) (jti userId tenantId email : String)
    (roles : List String) (seconds : ℤ) : JwtClaims where
  sub := userId
  tenantId := tenantId
  email := email
  roles := roles
  jti := some jti
  iss := issuer
  aud := audience
  tokenUse := some "ws"
  exp := UInt64.ofInt ((now.1 + seconds * 1000000000) / 1000000000)
  iat := UInt64.ofInt now.timestamp

/-- `ws_token`, with the claims attached to the request. -/
def wsToken (issuer audience : String) (claims : Option JwtClaims) : AuthProg HttpResponse :=
  match claims with
  | none => .ret ⟨401, none⟩
  | some claims => .call .now fun now => .call .newV4 fun jti =>
      let wsClaims := createWsClaims issuer audience now jti claims.sub claims.tenantId claims.email
        claims.roles 60
      .call (.allowFixedWindow claims.tenantId "ws_connections") fun
        | .error e => .ret ⟨500, some (errorBody ("quota check failed: " ++ e))⟩
        | .ok false => .ret ⟨429, some (.obj [("error", .str "tenant quota exceeded"),
            ("resource", .str "ws_connections")])⟩
        | .ok true => .call (.encodeJwt wsClaims) fun
            | .error _ => .ret ⟨500, some (errorBody "Internal server error")⟩
            | .ok token => .call (.set (wsTokenKey claims.tenantId jti) claims.sub) fun
                | .error _ => .ret ⟨500, some (errorBody "Internal server error")⟩
                | .ok () => .call (.expire (wsTokenKey claims.tenantId jti) 60) fun
                    | .error _ => .ret ⟨500, some (errorBody "Internal server error")⟩
                    | .ok () => .ret ⟨200, some (.obj [("expires_in_seconds", .num (.posInt 60)),
                        ("ws_token", .str token)])⟩

/-- The claims of a ticket with its identifier. -/
structure IsTicket (claims : JwtClaims) (jti : String) : Prop where
  use : claims.tokenUse = some "ws"
  id : claims.jti = some jti

/-- What `ws_token` signs are tickets, and it stores nothing under another key than theirs. -/
theorem wsToken_signs (issuer audience : String) (claims : Option JwtClaims) :
    (wsToken issuer audience claims).Ensures (fun (_ : Unit) _ _ => True)
      (fun _ c => ∀ signed, c = .encodeJwt signed → ∃ jti, IsTicket signed jti) () := by
  cases claims with
  | none => trivial
  | some claims =>
      refine fun _ _ => ⟨nofun, fun now _ => fun _ _ => ⟨nofun,
        fun jti _ => fun _ _ => ⟨nofun, fun allowed _ => ?_⟩⟩⟩
      rcases allowed with e | _ | _
      · trivial
      · trivial
      refine fun _ _ => ⟨fun signed h => ⟨jti, ?_⟩, fun token _ => ?_⟩
      · cases h
        exact ⟨rfl, rfl⟩
      rcases token with e | token
      · trivial
      refine fun _ _ => ⟨nofun, fun stored _ => ?_⟩
      rcases stored with e | _
      · trivial
      refine fun _ _ => ⟨nofun, fun expiring _ => ?_⟩
      rcases expiring with e | _ <;> trivial

/-! ### The middleware -/

/-- The headers in which the middleware looks for a token. -/
structure TokenHeaders where
  authorization : Option String := none
  xWsToken : Option String := none
  secWebSocketProtocol : Option String := none

/-- `str::strip_prefix`. -/
def stripPrefix (start s : String) : Option String :=
  if Text.startsWith s start then some (String.ofList (s.toList.drop start.length)) else none

/-- `str::trim` on header text. -/
def trimBlanks (s : List Char) : List Char :=
  let blank (c : Char) : Bool := c = ' ' || c = '\t'
  ((s.dropWhile blank).reverse.dropWhile blank).reverse

def TokenHeaders.token (h : TokenHeaders) : Option String :=
  (h.authorization.bind (stripPrefix "Bearer ")) <|>
  h.xWsToken <|>
  h.secWebSocketProtocol.bind fun protocols =>
    (protocols.toList.splitOn ',').findSome? fun proto =>
      stripPrefix "ws-token." (String.ofList (trimBlanks proto))

inductive RequestResult
  | upgraded
  | accepted
  | rejected (status : ℕ)
deriving DecidableEq

/-- `JwtAuthMiddleware::call`. -/
def jwtAuth (headers : TokenHeaders) (service : JwtClaims → AuthProg RequestResult) :
    AuthProg RequestResult :=
  match headers.token with
  | none => .ret (.rejected 401)
  | some token => .call (.decodeJwt token) fun
      | .ok claims => service claims
      | .error _ => .ret (.rejected 401)

/-! ### The handlers behind it -/

def analystOrAdmin (claims : JwtClaims) : Bool :=
  claims.roles.contains "analyst" || claims.roles.contains "admin"

inductive ProtectedHandler
  | me
  | ingestLog | ingestBatch | recentLogs
  | listRules | createRule | getRule | updateRule | deleteRule | toggleRule
  | listAlerts | getStats
  | listCases | getCase | createCase | updateCase | addTimelineEvent | runPlaybook | listPlaybooks
  | listDetectionPacks | getDetectionPack | installDetectionPack
  | getCostPolicy | updateCostPolicy | getCostDashboard
  | getReliabilityOverview | listReliabilityReports | createReport | runReplayDrill | runChaosDrill
  | listAuditEvents
  | getPolicy | updatePolicy | recordKeyRotation | accessReview | evidenceBundle

section handlers

variable (parseUuid : String → Option Uuid)

/-- The status with which the guard of a handler rejects the claims, if it does. -/
def ProtectedHandler.guard (claims : JwtClaims) : ProtectedHandler → Option ℕ
  | me => if (parseUuid claims.sub).isSome then none else some 401
  | ingestLog | ingestBatch | recentLogs
  | listRules | createRule | getRule | updateRule | deleteRule | toggleRule => none
  | listAlerts | getStats
  | listCases | getCase | createCase | updateCase | addTimelineEvent | runPlaybook | listPlaybooks
  | listDetectionPacks | getDetectionPack | installDetectionPack
  | getCostPolicy | updateCostPolicy | getCostDashboard
  | getReliabilityOverview | listReliabilityReports | createReport | runReplayDrill | runChaosDrill =>
      if analystOrAdmin claims then none else some 403
  | listAuditEvents
  | getPolicy | updatePolicy | recordKeyRotation | accessReview | evidenceBundle =>
      if claims.roles.contains "admin" then none else some 403

/-- `actix_ws::handle`: a request without the headers of a handshake is refused. -/
def openSocket (handshake : Bool) : AuthProg RequestResult :=
  .ret (if handshake then .upgraded else .rejected 400)

/-- `ws_alerts` once the ticket has been found. -/
def consumeTicket (handshake : Bool) (tokenKey : String) : AuthProg RequestResult :=
  .call (.del tokenKey) fun
    | .error _ => .ret (.rejected 401)
    | .ok () => openSocket handshake

/-- `ws_alerts` once the quota has been checked. -/
def checkTicket (handshake : Bool) (claims : JwtClaims) : AuthProg RequestResult :=
  if claims.tokenUse = some "ws" then
    match claims.jti with
    | none => .ret (.rejected 401)
    | some jti => .call (.lookUp (wsTokenKey claims.tenantId jti)) fun
        | .ok (some tokenValue) =>
            if tokenValue ≠ claims.sub then .ret (.rejected 401)
            else consumeTicket handshake (wsTokenKey claims.tenantId jti)
        | _ => .ret (.rejected 401)
  else openSocket handshake

/-- `ws_alerts`. -/
def wsAlerts (handshake : Bool) (claims : JwtClaims) : AuthProg RequestResult :=
  if !analystOrAdmin claims then .ret (.rejected 403)
  else .call (.allowFixedWindow claims.tenantId "ws_connections") fun
    | .ok true => checkTicket handshake claims
    | _ => .ret (.rejected 429)

/-! ### Requests that carry one ticket -/

inductive Endpoint
  | wsAlerts (handshake : Bool)
  | other (handler : ProtectedHandler)

/-- The handler, unless it is `ws_alerts`. -/
def Endpoint.otherHandler : Endpoint → Option ProtectedHandler
  | wsAlerts _ => none
  | other handler => some handler

def Endpoint.service (endpoint : Endpoint) (claims : JwtClaims) : AuthProg RequestResult :=
  match endpoint with
  | wsAlerts handshake => MiniSiem.wsAlerts handshake claims
  | other handler => .ret (match handler.guard parseUuid claims with
      | some status => .rejected status
      | none => .accepted)

structure TicketRequest where
  headers : TokenHeaders
  endpoint : Endpoint

def TicketRequest.prog (request : TicketRequest) : AuthProg RequestResult :=
  jwtAuth request.headers (request.endpoint.service parseUuid)

/-- Any number of requests, none of them started. -/
def ticketPool {ι : Type} (requests : ι → TicketRequest) (store : AuthStore) :
    AuthPool ι RequestResult :=
  ⟨fun i => (requests i).prog parseUuid, store⟩

end handlers

/-- The request has found the ticket and is about to delete it. -/
def isConsuming : AuthProg RequestResult → Bool
  | .call (.del _) _ => true
  | _ => false

def isUpgraded : AuthProg RequestResult → Bool
  | .ret .upgraded => true
  | _ => false

def isAccepted : AuthProg RequestResult → Bool
  | .ret .accepted => true
  | _ => false

section runs

variable {ι : Type} [DecidableEq ι]

/-- A step that upgrades a connection is the first one, and no step makes another handler accept. -/
def TicketOnce (s : AuthPool ι RequestResult) (e : ι × AuthTick) : Prop :=
  (isUpgraded ((Atomic.Pool.step execAuth s e).progs e.1) = true → isUpgraded (s.progs e.1) = false →
    ∀ j, isUpgraded (s.progs j) = false) ∧
  isAccepted ((Atomic.Pool.step execAuth s e).progs e.1) = false

/-- A ticket is found while no other request is consuming it, and is decoded for another handler only
if its guard rejects it. -/
def TicketAlone (parseUuid : String → Option Uuid) (requests : ι → TicketRequest)
    (s : AuthPool ι RequestResult) (e : ι × AuthTick) : Prop :=
  (∀ c ∈ (s.progs e.1).next, ∀ key ∈ c.lookedUp, s.store.holds e.2.clock key = true →
    e.2.fault = none → ∀ j, isConsuming (s.progs j) = false) ∧
  (∀ c ∈ (s.progs e.1).next, ∀ token ∈ c.decoded, ∀ claims ∈ e.2.decoded.toOption,
    ∀ handler ∈ (requests e.1).endpoint.otherHandler, handler.guard parseUuid claims ≠ none)

instance [Fintype ι] (parseUuid : String → Option Uuid) (requests : ι → TicketRequest)
    (s : AuthPool ι RequestResult) (e : ι × AuthTick) :
    Decidable (TicketAlone parseUuid requests s e) :=
  inferInstanceAs (Decidable (_ ∧ _))

end runs

/-! ### Where a request can be -/

section positions

variable (parseUuid : String → Option Uuid) (ticket : JwtClaims) (jti : String)

/-- Where a request with the ticket is: an upgraded one has left no ticket. -/
inductive TicketAt (gone : Prop) (request : TicketRequest) : AuthProg RequestResult → Prop
  | start : TicketAt gone request (request.prog parseUuid)
  | connecting (handshake : Bool) : TicketAt gone request (wsAlerts handshake ticket)
  | checking (handshake : Bool) : TicketAt gone request (checkTicket handshake ticket)
  | consuming (handshake : Bool) :
      TicketAt gone request (consumeTicket handshake (wsTokenKey ticket.tenantId jti))
  | upgraded (hgone : gone) : TicketAt gone request (.ret .upgraded)
  | rejected (status : ℕ) : TicketAt gone request (.ret (.rejected status))

variable {parseUuid ticket jti}

theorem TicketAt.mono {gone gone' : Prop} (hgone : gone → gone') {request : TicketRequest}
    {p : AuthProg RequestResult} (h : TicketAt parseUuid ticket jti gone request p) :
    TicketAt parseUuid ticket jti gone' request p := by
  cases h with
  | start => exact .start
  | connecting handshake => exact .connecting handshake
  | checking handshake => exact .checking handshake
  | consuming handshake => exact .consuming handshake
  | upgraded hold => exact .upgraded (hgone hold)
  | rejected status => exact .rejected status

variable (hticket : IsTicket ticket jti) {token : String} {request : TicketRequest}
  (hcarries : request.headers.token = some token)

include hticket in
theorem checkTicket_eq (handshake : Bool) :
    checkTicket handshake ticket = .call (.lookUp (wsTokenKey ticket.tenantId jti)) fun
      | .ok (some tokenValue) =>
          if tokenValue ≠ ticket.sub then .ret (.rejected 401)
          else consumeTicket handshake (wsTokenKey ticket.tenantId jti)
      | _ => .ret (.rejected 401) := by
  unfold checkTicket
  rw [if_pos hticket.use, hticket.id]

include hcarries in
theorem ticketProg_eq : request.prog parseUuid = .call (.decodeJwt token) fun
    | .ok claims => request.endpoint.service parseUuid claims
    | .error _ => .ret (.rejected 401) := by
  unfold TicketRequest.prog jwtAuth
  rw [hcarries]

include hticket hcarries

/-- No command of the request stores a string. -/
theorem TicketAt.stores {gone : Prop} {p : AuthProg RequestResult}
    (h : TicketAt parseUuid ticket jti gone request p) {c : AuthCmd} (hnext : p.next = some c) :
    c.stores = none := by
  cases h with
  | start =>
      rw [ticketProg_eq hcarries] at hnext
      obtain rfl := Option.some.inj hnext
      rfl
  | connecting handshake =>
      unfold wsAlerts at hnext
      split_ifs at hnext
      · cases hnext
      · obtain rfl := Option.some.inj hnext
        rfl
  | checking handshake =>
      rw [checkTicket_eq hticket] at hnext
      obtain rfl := Option.some.inj hnext
      rfl
  | consuming handshake =>
      obtain rfl := Option.some.inj hnext
      rfl
  | upgraded hgone => cases hnext
  | rejected status => cases hnext

/-- One step of a request. -/
theorem TicketAt.step {store : AuthStore} {tick : AuthTick} {p : AuthProg RequestResult}
    (h : TicketAt parseUuid ticket jti (store.Gone (wsTokenKey ticket.tenantId jti)) request p)
    (hdecoded : ∀ claims, tick.decoded = .ok claims → claims = ticket)
    (hguard : ∀ c ∈ p.next, ∀ token ∈ c.decoded, ∀ claims ∈ tick.decoded.toOption,
      ∀ handler ∈ request.endpoint.otherHandler, handler.guard parseUuid claims ≠ none) :
    TicketAt parseUuid ticket jti
      ((p.step (execAuth tick) store).2.Gone (wsTokenKey ticket.tenantId jti)) request
      (p.step (execAuth tick) store).1 := by
  cases h with
  | start =>
      rw [ticketProg_eq hcarries] at hguard ⊢
      rw [Atomic.Prog.step_call, execAuth_decodeJwt]
      dsimp only
      cases hreply : tick.decoded with
      | error e => exact .rejected 401
      | ok claims =>
          obtain rfl := hdecoded claims hreply
          cases hendpoint : request.endpoint with
          | wsAlerts handshake => exact .connecting handshake
          | other handler =>
              have hrejects := hguard _ rfl token rfl claims (by rw [hreply]; rfl) handler
                (by rw [hendpoint]; rfl)
              show TicketAt _ _ _ _ _ (.ret (match handler.guard parseUuid claims with
                | some status => _
                | none => _))
              cases hstatus : handler.guard parseUuid claims with
              | none => exact absurd hstatus hrejects
              | some status => exact .rejected status
  | connecting handshake =>
      unfold wsAlerts
      split_ifs
      · exact .rejected 403
      · rw [Atomic.Prog.step_call]
        dsimp only
        rcases (execAuth tick (.allowFixedWindow ticket.tenantId "ws_connections") store).1 with
          e | _ | _
        · exact .rejected 429
        · exact .rejected 429
        · exact .checking handshake
  | checking handshake =>
      rw [checkTicket_eq hticket, Atomic.Prog.step_call]
      dsimp only
      rcases (execAuth tick (.lookUp (wsTokenKey ticket.tenantId jti)) store).1 with
        e | _ | tokenValue
      · exact .rejected 401
      · exact .rejected 401
      · dsimp only
        split_ifs
        · exact .rejected 401
        · exact .consuming handshake
  | consuming handshake =>
      unfold consumeTicket
      rw [Atomic.Prog.step_call]
      cases hfault : tick.fault with
      | some e =>
          rw [execAuth_del_fault hfault]
          exact .rejected 401
      | none =>
          rw [execAuth_del hfault]
          show TicketAt _ _ _ _ _ (openSocket handshake)
          unfold openSocket
          cases handshake with
          | true => exact .upgraded AuthStore.gone_del
          | false => exact .rejected 400
  | upgraded hgone => exact .upgraded hgone
  | rejected status => exact .rejected status

/-- Consuming the ticket, or done with it. -/
def claimsTicket (p : AuthProg RequestResult) : Prop := isConsuming p = true ∨ isUpgraded p = true

theorem TicketAt.gone {gone : Prop} {p : AuthProg RequestResult}
    (h : TicketAt parseUuid ticket jti gone request p) (hup : isUpgraded p = true) : gone := by
  cases h with
  | start =>
      rw [ticketProg_eq hcarries] at hup
      cases hup
  | connecting handshake =>
      unfold wsAlerts at hup
      split_ifs at hup <;> cases hup
  | checking handshake =>
      rw [checkTicket_eq hticket] at hup
      cases hup
  | consuming handshake => cases hup
  | upgraded hgone => exact hgone
  | rejected status => cases hup

theorem TicketAt.not_accepted {gone : Prop} {p : AuthProg RequestResult}
    (h : TicketAt parseUuid ticket jti gone request p) : isAccepted p = false := by
  cases h with
  | start =>
      rw [ticketProg_eq hcarries]
      rfl
  | connecting handshake =>
      unfold wsAlerts
      split_ifs <;> rfl
  | checking handshake =>
      rw [checkTicket_eq hticket]
      rfl
  | consuming handshake => rfl
  | upgraded hgone => rfl
  | rejected status => rfl

/-- A request comes to claim the ticket by finding it. -/
theorem TicketAt.claims_before {store : AuthStore} {tick : AuthTick} {p : AuthProg RequestResult}
    (h : TicketAt parseUuid ticket jti (store.Gone (wsTokenKey ticket.tenantId jti)) request p)
    (hdecoded : ∀ claims, tick.decoded = .ok claims → claims = ticket)
    (hclaims : claimsTicket (p.step (execAuth tick) store).1) :
    claimsTicket p ∨ isUpgraded (p.step (execAuth tick) store).1 = false ∧
      p.next = some (.lookUp (wsTokenKey ticket.tenantId jti)) ∧ tick.fault = none ∧
      store.holds tick.clock (wsTokenKey ticket.tenantId jti) = true := by
  have hquiet : ∀ handshake, ¬ claimsTicket (wsAlerts handshake ticket) := by
    intro handshake
    unfold wsAlerts claimsTicket
    split_ifs
    · rintro (h | h) <;> cases h
    · rintro (h | h) <;> cases h
  have hrejected : ∀ status, ¬ claimsTicket (.ret (.rejected status)) := by
    rintro status (h | h) <;> cases h
  cases h with
  | start =>
      rw [ticketProg_eq hcarries, Atomic.Prog.step_call, execAuth_decodeJwt] at hclaims
      dsimp only at hclaims
      cases hreply : tick.decoded with
      | error e =>
          rw [hreply] at hclaims
          exact absurd hclaims (hrejected 401)
      | ok claims =>
          rw [hreply, hdecoded claims hreply] at hclaims
          cases hendpoint : request.endpoint with
          | wsAlerts handshake =>
              rw [hendpoint] at hclaims
              exact absurd hclaims (hquiet handshake)
          | other handler =>
              rw [hendpoint] at hclaims
              unfold Endpoint.service at hclaims
              dsimp only at hclaims
              cases hstatus : handler.guard parseUuid ticket with
              | none =>
                  rw [hstatus] at hclaims
                  rcases hclaims with h | h <;> cases h
              | some status =>
                  rw [hstatus] at hclaims
                  exact absurd hclaims (hrejected status)
  | connecting handshake =>
      unfold wsAlerts at hclaims
      split_ifs at hclaims
      · exact absurd hclaims (hrejected 403)
      · rw [Atomic.Prog.step_call] at hclaims
        dsimp only at hclaims
        rcases hreply : (execAuth tick (.allowFixedWindow ticket.tenantId "ws_connections") store).1
          with e | _ | _
        · rw [hreply] at hclaims
          exact absurd hclaims (hrejected 429)
        · rw [hreply] at hclaims
          exact absurd hclaims (hrejected 429)
        · rw [hreply] at hclaims
          dsimp only at hclaims
          rw [checkTicket_eq hticket] at hclaims
          rcases hclaims with h | h <;> cases h
  | checking handshake =>
      refine Or.inr ?_
      rw [checkTicket_eq hticket] at hclaims ⊢
      rw [Atomic.Prog.step_call, execAuth_lookUp] at hclaims ⊢
      cases hfault : tick.fault with
      | some e =>
          rw [execAuth_get_fault hfault] at hclaims
          exact absurd hclaims (hrejected 401)
      | none =>
          rw [execAuth_get hfault] at hclaims ⊢
          dsimp only at hclaims ⊢
          cases hget : store.get tick.clock (wsTokenKey ticket.tenantId jti) with
          | error e =>
              rw [hget] at hclaims
              exact absurd hclaims (hrejected 401)
          | ok found =>
              cases found with
              | none =>
                  rw [hget] at hclaims
                  exact absurd hclaims (hrejected 401)
              | some value =>
                  refine ⟨?_, rfl, rfl, ?_⟩
                  · dsimp only
                    split_ifs <;> rfl
                  · unfold AuthStore.holds
                    rw [hget]
  | consuming handshake => exact Or.inl (Or.inl rfl)
  | upgraded hgone => exact Or.inl (Or.inr rfl)
  | rejected status => exact absurd hclaims (hrejected status)

end positions

/-! ### Runs -/

section pool

variable {parseUuid : String → Option Uuid} {ticket : JwtClaims} {jti token : String} {ι : Type}
  {requests : ι → TicketRequest}

/-- What holds throughout a run. -/
structure TicketUse (parseUuid : String → Option Uuid) (ticket : JwtClaims) (jti : String)
    (requests : ι → TicketRequest) (s : AuthPool ι RequestResult) : Prop where
  shape : ∀ i, TicketAt parseUuid ticket jti (s.store.Gone (wsTokenKey ticket.tenantId jti))
    (requests i) (s.progs i)
  one : ∀ i j, claimsTicket (s.progs i) → claimsTicket (s.progs j) → i = j

variable (hticket : IsTicket ticket jti) (hcarries : ∀ i, (requests i).headers.token = some token)
include hcarries

theorem ticketUse_start (store : AuthStore) :
    TicketUse parseUuid ticket jti requests (ticketPool parseUuid requests store) := by
  refine ⟨fun i => .start, fun i j hi => ?_⟩
  have hidle : claimsTicket ((requests i).prog parseUuid) := hi
  rw [ticketProg_eq (hcarries i)] at hidle
  rcases hidle with h | h <;> cases h

variable {s : AuthPool ι RequestResult} {e : ι × AuthTick}
  (h : TicketUse parseUuid ticket jti requests s) (halone : TicketAlone parseUuid requests s e)
  (hdecoded : ∀ claims, e.2.decoded = .ok claims → claims = ticket)
include hticket h halone hdecoded

theorem TicketUse.shape_self :
    TicketAt parseUuid ticket jti
      (((s.progs e.1).step (execAuth e.2) s.store).2.Gone (wsTokenKey ticket.tenantId jti))
      (requests e.1) ((s.progs e.1).step (execAuth e.2) s.store).1 :=
  (h.shape e.1).step hticket (hcarries e.1) hdecoded halone.2

/-- A request that claims the ticket after its step did before, or nobody did. -/
theorem TicketUse.claims_self (hclaims : claimsTicket ((s.progs e.1).step (execAuth e.2) s.store).1) :
    claimsTicket (s.progs e.1) ∨
      isUpgraded ((s.progs e.1).step (execAuth e.2) s.store).1 = false ∧
        ∀ j, ¬ claimsTicket (s.progs j) := by
  rcases (h.shape e.1).claims_before hticket (hcarries e.1) hdecoded hclaims with
    hbefore | ⟨hnot, hnext, hfault, hholds⟩
  · exact Or.inl hbefore
  · refine Or.inr ⟨hnot, fun j hj => ?_⟩
    rcases hj with hj | hj
    · have hnobody := halone.1 _ hnext _ rfl hholds hfault j
      rw [hj] at hnobody
      cases hnobody
    · rw [((h.shape j).gone hticket (hcarries j) hj).not_holds] at hholds
      cases hholds

variable [DecidableEq ι]

theorem TicketUse.step : TicketUse parseUuid ticket jti requests (Atomic.Pool.step execAuth s e) := by
  have hself : (Atomic.Pool.step execAuth s e).progs e.1 =
      ((s.progs e.1).step (execAuth e.2) s.store).1 := Atomic.Pool.step_progs_self e
  refine ⟨fun i => ?_, Atomic.Pool.unique_step h.one fun hafter => ?_⟩
  · by_cases hi : i = e.1
    · subst hi
      rw [hself]
      exact h.shape_self hticket hcarries halone hdecoded
    · rw [Atomic.Pool.step_progs_of_ne hi]
      refine (h.shape i).mono fun hgone => ?_
      show ((s.progs e.1).step (execAuth e.2) s.store).2.Gone _
      cases hp : s.progs e.1 with
      | ret r => exact hgone
      | call c k =>
          refine hgone.exec fun key hkey => ?_
          rw [(h.shape e.1).stores hticket (hcarries e.1) (by rw [hp]; rfl)] at hkey
          cases hkey
  · rw [hself] at hafter
    rcases h.claims_self hticket hcarries halone hdecoded hafter with hbefore | ⟨-, hnobody⟩
    · exact Or.inl hbefore
    · exact Or.inr hnobody

theorem TicketUse.once : TicketOnce s e := by
  unfold TicketOnce
  rw [Atomic.Pool.step_progs_self]
  refine ⟨fun hafter hbefore j => ?_,
    (h.shape_self hticket hcarries halone hdecoded).not_accepted hticket (hcarries e.1)⟩
  rcases h.claims_self hticket hcarries halone hdecoded (Or.inr hafter) with hclaims | ⟨hnot, -⟩
  · cases hj : isUpgraded (s.progs j) with
    | false => rfl
    | true =>
        obtain rfl := h.one j e.1 (Or.inr hj) hclaims
        exact hj.symm.trans hbefore
  · rw [hafter] at hnot
    cases hnot

end pool

/-- **Single use of a WebSocket ticket**: in every run of requests that carry it, in which it is found
alone and refused elsewhere, one connection is upgraded at most and no other handler accepts. -/
theorem ticket_used_once {ι : Type} [DecidableEq ι] (parseUuid : String → Option Uuid)
    (ticket : JwtClaims) (jti token : String) (hticket : IsTicket ticket jti)
    (requests : ι → TicketRequest) (hcarries : ∀ i, (requests i).headers.token = some token)
    (store : AuthStore) (schedule : List (ι × AuthTick))
    (hdecoded : ∀ e ∈ schedule, ∀ claims, e.2.decoded = .ok claims → claims = ticket)
    (halone : Atomic.Pool.Meets execAuth (TicketAlone parseUuid requests) schedule
      (ticketPool parseUuid requests store)) :
    Atomic.Pool.Meets execAuth TicketOnce schedule (ticketPool parseUuid requests store) :=
  (halone.and_forall hdecoded).of_invariant (TicketUse parseUuid ticket jti requests)
    (fun _ _ h ⟨halone, hdecoded⟩ => h.step hticket hcarries halone hdecoded)
    (fun _ _ h ⟨halone, hdecoded⟩ => h.once hticket hcarries halone hdecoded)
    (ticketUse_start hcarries store)

/-- A handler whose guard lets the claims of a ticket pass accepts it. -/
theorem accepted_elsewhere {parseUuid : String → Option Uuid} {ticket : JwtClaims} {token : String}
    {request : TicketRequest} (hcarries : request.headers.token = some token)
    {handler : ProtectedHandler} (hendpoint : request.endpoint = .other handler)
    (hguard : handler.guard parseUuid ticket = none) {tick : AuthTick} (htick : tick.decoded = .ok ticket)
    (store : AuthStore) :
    isAccepted ((request.prog parseUuid).step (execAuth tick) store).1 = true := by
  rw [ticketProg_eq hcarries, Atomic.Prog.step_call, execAuth_decodeJwt, htick, hendpoint]
  unfold Endpoint.service
  dsimp only
  rw [hguard]
  rfl

/-! ### Three requests with one ticket -/

def sampleTicketId : String := "0a6b2c1e-7d35-4f08-9b1c-52e0c3d4f5a6"

def sampleTicket : JwtClaims :=
  createWsClaims "mini-siem" "mini-siem-api" (.ofSeconds 0) sampleTicketId
    "4f1c9a52-5bd4-4d6c-9a45-0f6f0c6d5f01" "acme" "analyst@acme.test" ["analyst"] 60

def ticketStore : AuthStore where
  keys := Function.update (fun _ => none) (wsTokenKey "acme" sampleTicketId)
    (some ⟨.str "4f1c9a52-5bd4-4d6c-9a45-0f6f0c6d5f01", some 60000⟩)
  users := []

def ticketTick : AuthTick := { clock := .ofSeconds 10, decoded := .ok sampleTicket }

/-- Two connections, and a request for which the ticket lacks the role. -/
def sampleRequests : Fin 3 → TicketRequest
  | 0 | 1 => ⟨{ xWsToken := some "header.payload.signature" }, .wsAlerts true⟩
  | 2 => ⟨{ authorization := some "Bearer header.payload.signature" }, .other .recordKeyRotation⟩

theorem ticketInTurn_once :
    Atomic.Pool.Meets execAuth TicketOnce
      (List.replicate 4 (0, ticketTick) ++ List.replicate 3 (1, ticketTick) ++ [(2, ticketTick)])
      (ticketPool (fun s => if s.length = 36 then some s else none) sampleRequests ticketStore) := by
  refine ticket_used_once (fun s => if s.length = 36 then some s else none) sampleTicket sampleTicketId
    "header.payload.signature" ⟨rfl, rfl⟩ sampleRequests ?_ ticketStore
    (List.replicate 4 (0, ticketTick) ++ List.replicate 3 (1, ticketTick) ++ [(2, ticketTick)]) ?_ ?_
  · decide +kernel
  · intro e he claims hclaims
    have htick : e.2 = ticketTick := by
      simp only [List.mem_append, List.mem_replicate, List.mem_singleton] at he
      rcases he with (⟨-, rfl⟩ | ⟨-, rfl⟩) | rfl <;> rfl
    rw [htick] at hclaims
    exact (Except.ok.inj hclaims).symm
  · decide +kernel

/-- Two connections that find the ticket before either of them deletes it. -/
theorem parallelConnections_not_once :
    ¬ ∀ (ι : Type) [DecidableEq ι] (parseUuid : String → Option Uuid) (ticket : JwtClaims)
      (jti token : String), IsTicket ticket jti → ∀ requests : ι → TicketRequest,
      (∀ i, (requests i).headers.token = some token) →
      ∀ (store : AuthStore) (schedule : List (ι × AuthTick)),
      (∀ e ∈ schedule, ∀ claims, e.2.decoded = .ok claims → claims = ticket) →
      Atomic.Pool.Meets execAuth TicketOnce schedule (ticketPool parseUuid requests store) := by
  intro h
  have honce := h (Fin 3) (fun s => if s.length = 36 then some s else none) sampleTicket sampleTicketId
    "header.payload.signature" ⟨rfl, rfl⟩ sampleRequests (by decide +kernel) ticketStore
    ((List.replicate 3 (0, ticketTick) ++ List.replicate 3 (1, ticketTick) ++ [(0, ticketTick)]) ++
      (1, ticketTick) :: []) ?_
  · have hlast := (honce.at_step _ _ _).1 (by decide +kernel) (by decide +kernel) 0
    exact absurd hlast (by decide +kernel)
  · intro e he claims hclaims
    have htick : e.2 = ticketTick := by
      simp only [List.mem_append, List.mem_replicate, List.mem_singleton] at he
      rcases he with ((⟨-, rfl⟩ | ⟨-, rfl⟩) | rfl) | rfl <;> rfl
    rw [htick] at hclaims
    exact (Except.ok.inj hclaims).symm

end MiniSiem

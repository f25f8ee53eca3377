import MiniSiem.AccessMatrix
import MiniSiem.Accounts

/-! # Requests with the tokens of accounts

Registrations, logins and refreshes on one side, the requests with the tokens that they sign on the other.
Their stores are different ones, so the two runs meet only in the signed claims.

* **Who.**  `roles_never_escalate`: whatever claims are signed are those of a user, and a role other than
  `user` was the role of that user at the start.
* **What.**  `roles_bound_requests`: what requests with such claims leave.
* **Result.**  `newcomers_bounded`: whoever registers, the cases of a tenant are written only if an analyst or
  an admin of the tenant was there at the start, and an audit event names a user. -/

namespace MiniSiem

open Atomic

/-- The claims of a request, if it has any, are those of a signed token. -/
def SignedIn {κ : Type} (s : AccountStore) (reqs : κ → ApiRequest) : Prop :=
  ∀ i who, (reqs i).claims = some who → ∃ claims ∈ s.signed, claims.toClaims = who

/-- The user of an audit event. -/
def AuditEvent.OfUser (e : AuditEvent) (user : User) : Prop :=
  e.tenantId = user.tenantId ∧ e.actorUserId = user.id ∧ e.actorEmail = user.email ∧
    e.actorRoles = [user.role]

theorem AuditEvent.Names.ofUser {users : List User} {claims : JwtClaims} (h : Backed users claims)
    {e : AuditEvent} (he : e.Names claims.toClaims) : ∃ user ∈ users, e.OfUser user := by
  obtain ⟨user, huser, hsub, htenant, hemail, hroles⟩ := h
  exact ⟨user, huser, he.tenantId.trans htenant, he.actorUserId.trans hsub, he.actorEmail.trans hemail,
    he.actorRoles.trans hroles⟩

section signed

variable {ι κ : Type} [DecidableEq ι] [DecidableEq κ]
  (hashPassword : String → String → Except String String) (verifyPassword : String → String → Bool)
  (hashRefreshToken : String → Except String String) (parseUuid : String → Option Uuid)
  (issuer audience : String) (requests : ι → AccountRequest) (s₀ : AccountStore)
  (schedule : List (ι × AccountTick)) (crypto : AuditCrypto) (signingKey : String)
  (toRfc3339 : DateTime → String) {codec : PolicyCodec} (reqs : κ → ApiRequest) (b : Backend)
  (apiSchedule : List (κ × ApiTick))

/-- **Newcomers**: after any run of account requests, requests with the tokens that were signed in it write
the cases and the cost policy of a tenant only if the tenant had an analyst or an admin at the start, write
compliance policies only if there was an admin, and every audit event that they add is of a user. -/
theorem newcomers_bounded (hsigned : ∀ claims ∈ s₀.signed, Backed s₀.users claims)
    (hfair : Pool.Meets execAccount (fun s e => e.2.Unforged s.store) schedule
      (accountPool hashPassword verifyPassword hashRefreshToken parseUuid issuer audience requests s₀))
    (hcodec : codec.KeepsTenant) (hcache : CostCacheOwn codec b.data) :
    let s := (Pool.run execAccount schedule
      (accountPool hashPassword verifyPassword hashRefreshToken parseUuid issuer audience requests s₀)).store
    let after := (Pool.run execApi apiSchedule (apiPool crypto signingKey toRfc3339 codec reqs b)).store
    SignedIn s reqs →
      (∀ t, (∀ user ∈ s₀.users, user.tenantId = t → user.role ≠ "analyst" ∧ user.role ≠ "admin") →
        after.data.guardedOf t = b.data.guardedOf t) ∧
      ((∀ user ∈ s₀.users, user.role ≠ "admin") → after.db.policies = b.db.policies) ∧
      ∀ e ∈ after.db.auditEvents, e ∈ b.db.auditEvents ∨ ∃ user ∈ s.users, e.OfUser user := by
  intro s after hreqs
  obtain ⟨-, -, hclaims⟩ := roles_never_escalate hashPassword verifyPassword hashRefreshToken parseUuid
    issuer audience requests s₀ schedule hsigned hfair
  obtain ⟨-, hpolicies, hguarded, -, hevents⟩ := roles_bound_requests crypto signingKey toRfc3339 reqs b
    apiSchedule hcodec hcache
  -- a role in the claims of a request other than `user` is that of a user of the start
  have hrole : ∀ i who role, (reqs i).claims = some who → who.roles.contains role = true → role ≠ "user" →
      ∃ user ∈ s₀.users, user.role = role ∧ who.tenantId = user.tenantId := by
    intro i who role hwho hcontains hother
    obtain ⟨claims, hmem, rfl⟩ := hreqs i who hwho
    obtain ⟨user, huser, hsame, -, htenant, -⟩ :=
      (hclaims claims hmem).2 role (List.contains_iff_mem.mp hcontains) hother
    exact ⟨user, huser, hsame, htenant⟩
  refine ⟨fun t hnone => hguarded t fun i who hwho hmember => ?_, fun hnone => hpolicies fun i who hwho => ?_,
    fun e he => (hevents e he).imp_right ?_⟩
  · rw [Claims.analystOrAdmin, Bool.or_eq_false_iff]
    refine ⟨Bool.eq_false_of_not_eq_true fun hanalyst => ?_, Bool.eq_false_of_not_eq_true fun hadmin => ?_⟩
    · obtain ⟨user, huser, hsame, htenant⟩ := hrole i who "analyst" hwho hanalyst (by decide)
      exact (hnone user huser (htenant.symm.trans hmember)).1 hsame
    · obtain ⟨user, huser, hsame, htenant⟩ := hrole i who "admin" hwho hadmin (by decide)
      exact (hnone user huser (htenant.symm.trans hmember)).2 hsame
  · refine Bool.eq_false_of_not_eq_true fun hadmin => ?_
    obtain ⟨user, huser, hsame, -⟩ := hrole i who "admin" hwho hadmin (by decide)
    exact hnone user huser hsame
  · rintro ⟨i, who, hwho, hnames⟩
    obtain ⟨claims, hmem, rfl⟩ := hreqs i who hwho
    exact hnames.ofUser (hclaims claims hmem).1

end signed

/-- The analyst of another tenant resolves a case of `t1`, and a request without a token does. -/
def withAndWithoutToken : Bool → ApiRequest
  | true => ⟨some analystClaims.toClaims, .mutate (.updateCase "c1" { status := some .resolved })⟩
  | false => ⟨none, .mutate (.updateCase "c2" { status := some .resolved })⟩

theorem withAndWithoutToken_bounded :
    let after := (Pool.run execApi foreignSchedule
      (apiPool sampleCrypto "key" (fun _ => "") noCodec withAndWithoutToken twoOverdueCases)).store
    after.data.guardedOf "t1" = twoOverdueCases.data.guardedOf "t1" ∧
      after.db.policies = twoOverdueCases.db.policies := by
  have hsignedIn : SignedIn (Pool.run execAccount accountSchedule fourRequests).store
      withAndWithoutToken := by
    intro i who hwho
    cases i with
    | false => cases hwho
    | true => exact ⟨analystClaims, analystClaims_signed, Option.some.inj hwho⟩
  have hcodec : noCodec.KeepsTenant := fun p text h => by cases h
  have hcache : CostCacheOwn noCodec twoOverdueCases.data := fun tenantId cached h => by cases h
  obtain ⟨hguarded, hpolicies, -⟩ := newcomers_bounded sampleHashPassword sampleVerify sampleHash
    sampleParseUuid "mini-siem" "mini-siem-api" accountRequests accountStore accountSchedule sampleCrypto
    "key" (fun _ => "") withAndWithoutToken twoOverdueCases foreignSchedule accountStore_backed
    accountSchedule_unforged hcodec hcache hsignedIn
  refine ⟨hguarded "t1" fun user huser htenant => ?_, hpolicies fun user huser => ?_⟩
  · rw [List.mem_singleton.mp huser] at htenant
    exact absurd htenant (by decide)
  · rw [List.mem_singleton.mp huser]
    decide

end MiniSiem

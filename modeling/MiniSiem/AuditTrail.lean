import MiniSiem.Database
import MiniSiem.Lib.HashChain
import Mathlib.Data.List.TakeWhile

/-! # The audit trail

The six `record_*_audit` functions of the handlers and `utils/audit.rs`.

* **Recording.**  `recordAudit` reads the latest hash of the tenant, hashes and signs the payload
  and inserts the event; the six functions are this program with their own resource types.
* **Hashing.**  The digest, the JSON text and the signature are parameters.  `Documented` is what is
  known of the first two; a text stands for its UTF-8 bytes.
* **Interleavings.**  Any number of calls run as a pool on the database.
* **Linearity.**  `audit_trail_linear_iff`: the trail of a tenant is a linear hash chain in every
  state reached exactly when every accepted insert finds the tenant's latest hash as its call has
  read it, and a later time stamp than any in the trail. -/

namespace MiniSiem

structure Claims where
  sub : String
  tenantId : String
  email : String
  roles : List String
  jti : Option String

/-- The code outside the repository: SHA-256 in hexadecimal, `serde_json::to_vec`, and the
HMAC-SHA-256 signature in base 64. -/
structure AuditCrypto where
  sha256Hex : String → String
  toVec : Json → Except String String
  hmacBase64 : String → String → Except String String

/-- A JSON string or `null`. -/
def optionalText : Option String → Json
  | some s => .str s
  | none => .null

/-- `audit_payload`. -/
def auditPayload (claims : Claims) (action resourceType : String)
    (resourceId targetTenantId : Option String) (metadata : Json) : Json :=
  .obj [("action", .str action),
    ("actor_email", .str claims.email),
    ("actor_roles", .arr (claims.roles.map .str)),
    ("actor_user_id", .str claims.sub),
    ("metadata", metadata),
    ("request_id", optionalText claims.jti),
    ("resource_id", optionalText resourceId),
    ("resource_type", .str resourceType),
    ("target_tenant_id", optionalText targetTenantId),
    ("tenant_id", .str claims.tenantId)]

/-- `hash_audit_payload`. -/
def hashAuditPayload (crypto : AuditCrypto) (previousHash : Option String) (payload : Json) :
    Except String String :=
  (crypto.toVec payload).map fun body => crypto.sha256Hex (previousHash.getD "" ++ body)

/-- What one call records. -/
structure AuditCall where
  claims : Claims
  action : String
  resourceType : String
  resourceId : Option String
  targetTenantId : Option String
  metadata : Json

section recording

variable (crypto : AuditCrypto) (signingKey : String)

/-- The common body of the six functions. -/
def recordAudit (c : AuditCall) : DbProg (Except String Unit) :=
  let payload := auditPayload c.claims c.action c.resourceType c.resourceId c.targetTenantId c.metadata
  .call (.latestAuditHash c.claims.tenantId) fun
    | .error e => .ret (.error ("audit chain lookup failed: " ++ e))
    | .ok previousHash =>
        match hashAuditPayload crypto previousHash payload with
        | .error e => .ret (.error ("audit hash failed: " ++ e))
        | .ok eventHash =>
            match crypto.hmacBase64 signingKey eventHash with
            | .error e => .ret (.error ("audit signature failed: " ++ e))
            | .ok signature =>
                .call .newV4 fun id => .call .now fun createdAt =>
                  .call (.insertAuditEvent
                    { id
                      tenantId := c.claims.tenantId
                      actorUserId := c.claims.sub
                      actorEmail := c.claims.email
                      actorRoles := c.claims.roles
                      action := c.action
                      resourceType := c.resourceType
                      resourceId := c.resourceId
                      targetTenantId := c.targetTenantId
                      requestId := c.claims.jti
                      metadata := payload
                      previousHash
                      eventHash
                      signature
                      createdAt }) fun
                    | .error e => .ret (.error ("audit write failed: " ++ e))
                    | .ok () => .ret (.ok ())

def recordRuleAudit (claims : Claims) (action : String) (resourceId : Option String)
    (metadata : Json) : DbProg (Except String Unit) :=
  recordAudit crypto signingKey ⟨claims, action, "rule", resourceId, none, metadata⟩

def recordPackAudit (claims : Claims) (action : String) (resourceId : Option String)
    (metadata : Json) : DbProg (Except String Unit) :=
  recordAudit crypto signingKey ⟨claims, action, "detection_pack", resourceId, none, metadata⟩

def recordCaseAudit (claims : Claims) (action : String) (resourceId : Option String)
    (metadata : Json) : DbProg (Except String Unit) :=
  recordAudit crypto signingKey ⟨claims, action, "case", resourceId, none, metadata⟩

def recordCostAudit (claims : Claims) (action : String) (resourceId : Option String)
    (metadata : Json) : DbProg (Except String Unit) :=
  recordAudit crypto signingKey ⟨claims, action, "data_cost", resourceId, none, metadata⟩

def recordComplianceAudit (claims : Claims) (action : String) (targetTenantId : Option String)
    (metadata : Json) : DbProg (Except String Unit) :=
  recordAudit crypto signingKey ⟨claims, action, "compliance", none, targetTenantId, metadata⟩

end recording

/-! ### Hashes of events -/

/-- The text that is hashed for an event. -/
def hashedText (crypto : AuditCrypto) (e : AuditEvent) : String :=
  e.previousHash.getD "" ++ (crypto.toVec e.metadata).toOption.getD ""

/-- A digest is 64 hexadecimal digits, the text of an object starts with a brace. -/
structure AuditCrypto.Documented (crypto : AuditCrypto) : Prop where
  digest_length : ∀ s, (crypto.sha256Hex s).toList.length = 64
  digest_digits : ∀ s, ∀ c ∈ (crypto.sha256Hex s).toList, c ∈ "0123456789abcdef".toList
  object_text : ∀ fields body, crypto.toVec (.obj fields) = .ok body → body.toList.head? = some '\x7b'

/-- The hash of the event is that of its text, and its payload is an object. -/
structure Sealed (crypto : AuditCrypto) (e : AuditEvent) : Prop where
  hash : e.eventHash = crypto.sha256Hex (hashedText crypto e)
  payload : ∃ fields body, e.metadata = .obj fields ∧ crypto.toVec e.metadata = .ok body

/-- No two different texts hashed for these events have one digest. -/
def CollisionFree (crypto : AuditCrypto) (events : List AuditEvent) : Prop :=
  ∀ d ∈ events, ∀ e ∈ events,
    crypto.sha256Hex (hashedText crypto d) = crypto.sha256Hex (hashedText crypto e) →
      hashedText crypto d = hashedText crypto e

theorem collisionFree_of_nodup {crypto : AuditCrypto} {events : List AuditEvent}
    (h : (events.map fun e => crypto.sha256Hex (hashedText crypto e)).Nodup) :
    CollisionFree crypto events := by
  intro d hd e he hdigest
  rw [List.inj_on_of_nodup_map h hd he hdigest]

/-- 64 hexadecimal digits. -/
def IsDigest (h : String) : Prop := h.toList.length = 64 ∧ ∀ c ∈ h.toList, c ∈ "0123456789abcdef".toList

/-- A digest, or nothing, and the text of an object after it: what is hashed determines both. -/
theorem link_body_inj {p q : Option String} {b b' : String} (hp : ∀ h ∈ p, IsDigest h)
    (hq : ∀ h ∈ q, IsDigest h) (hb : b.toList.head? = some '\x7b') (hb' : b'.toList.head? = some '\x7b')
    (h : p.getD "" ++ b = q.getD "" ++ b') : p = q ∧ b = b' := by
  -- a text that starts with a brace does not start with a digest
  have hbrace : ∀ d body rest : String, IsDigest d → body.toList.head? = some '\x7b' → body ≠ d ++ rest := by
    rintro d body rest ⟨hlength, hdigits⟩ hbody heq
    have hne : d.toList ≠ [] := by
      intro hnil
      rw [hnil] at hlength
      cases hlength
    obtain ⟨c, cs, hcs⟩ := List.exists_cons_of_ne_nil hne
    rw [heq, String.toList_append, hcs] at hbody
    obtain rfl : c = '\x7b' := Option.some.inj hbody
    have hdigit := hdigits '\x7b' (by rw [hcs]; exact List.mem_cons_self)
    exact absurd hdigit (by decide)
  cases p with
  | none =>
      cases q with
      | none => exact ⟨rfl, by simpa using h⟩
      | some e => exact absurd (by simpa using h) (hbrace e b b' (hq e rfl) hb)
  | some d =>
      cases q with
      | none => exact absurd (by simpa using h.symm) (hbrace d b' b (hp d rfl) hb')
      | some e =>
          have hlist := congrArg String.toList h
          simp only [Option.getD_some, String.toList_append] at hlist
          obtain ⟨hlink, hbody⟩ := List.append_inj hlist ((hp d rfl).1.trans (hq e rfl).1.symm)
          exact ⟨congrArg some (String.toList_inj.mp hlink), String.toList_inj.mp hbody⟩

section hashes

variable {crypto : AuditCrypto} (hdoc : crypto.Documented)
include hdoc

/-- The link of an event is nothing or a digest. -/
def LinkedToDigest (crypto : AuditCrypto) (e : AuditEvent) : Prop :=
  ∀ h, e.previousHash = some h → ∃ s, h = crypto.sha256Hex s

theorem isDigest_sha256Hex (s : String) : IsDigest (crypto.sha256Hex s) :=
  ⟨hdoc.digest_length s, hdoc.digest_digits s⟩

/-- The hashed text determines the link: a digest has a fixed length and no brace. -/
theorem previousHash_eq_of_hashedText {d e : AuditEvent} (hd : Sealed crypto d)
    (he : Sealed crypto e) (hdl : LinkedToDigest crypto d) (hel : LinkedToDigest crypto e)
    (h : hashedText crypto d = hashedText crypto e) : d.previousHash = e.previousHash := by
  obtain ⟨fd, bd, hmd, htd⟩ := hd.payload
  obtain ⟨fe, be, hme, hte⟩ := he.payload
  have hdigest : ∀ {ev : AuditEvent}, LinkedToDigest crypto ev → ∀ k ∈ ev.previousHash, IsDigest k := by
    intro ev hlinked k hk
    obtain ⟨s, rfl⟩ := hlinked k hk
    exact isDigest_sha256Hex hdoc s
  unfold hashedText at h
  rw [htd, hte] at h
  exact (link_body_inj (hdigest hdl) (hdigest hel) (hdoc.object_text fd bd (hmd ▸ htd))
    (hdoc.object_text fe be (hme ▸ hte)) h).1

end hashes

/-! ### What the calls do to the events -/

/-- The insert is executed and not refused. -/
def Accepted (tick : Tick) (db : Database) (e : AuditEvent) : Prop :=
  tick.fault = none ∧ e.storable = true ∧ e.id ∉ db.auditEvents.map (·.id)

instance (tick : Tick) (db : Database) (e : AuditEvent) : Decidable (Accepted tick db e) :=
  inferInstanceAs (Decidable (_ ∧ _))

theorem execDb_insertAuditEvent (tick : Tick) (db : Database) (e : AuditEvent) :
    (execDb tick (.insertAuditEvent e) db).2.auditEvents =
      if Accepted tick db e then e.stored :: db.auditEvents else db.auditEvents := by
  show (tick.attempt db (db.insertAuditEvent e)).2.auditEvents = _
  split_ifs with haccepted
  · obtain ⟨hfault, hstorable, hid⟩ := haccepted
    unfold Tick.attempt Database.insertAuditEvent
    rw [hfault, hstorable, dif_neg hid]
    rfl
  · rcases Tick.attempt_cases tick db (db.insertAuditEvent e) with h | ⟨reply, db', hfault, hok, -⟩
    · rw [h, Database.atTime_auditEvents]
    · unfold Database.insertAuditEvent at hok
      split_ifs at hok with hstorable hid
      exact absurd ⟨hfault, by simpa using hstorable, hid⟩ haccepted

/-- The commands of a call: its insert is sealed. -/
def AuditCommand (crypto : AuditCrypto) : DbCmd → Prop
  | .latestAuditHash _ => True
  | .newV4 => True
  | .now => True
  | .insertAuditEvent e => Sealed crypto e
  | _ => False

theorem recordAudit_ensures (crypto : AuditCrypto) (signingKey : String) (c : AuditCall)
    {W : Type} [Preorder W] (R : W → (c : DbCmd) → c.Reply → Prop) (w : W) :
    (recordAudit crypto signingKey c).Ensures R (fun _ => AuditCommand crypto) w := by
  unfold recordAudit
  intro w₁ _
  refine ⟨trivial, fun reply _ => ?_⟩
  cases reply with
  | error e => trivial
  | ok previousHash =>
      dsimp only
      unfold hashAuditPayload
      cases hbody : crypto.toVec (auditPayload c.claims c.action c.resourceType c.resourceId
          c.targetTenantId c.metadata) with
      | error e => trivial
      | ok body =>
          dsimp only [Except.map]
          cases hsign : crypto.hmacBase64 signingKey
              (crypto.sha256Hex (previousHash.getD "" ++ body)) with
          | error e => trivial
          | ok signature =>
              refine fun w₂ _ => ⟨trivial, fun id _ => ?_⟩
              refine fun w₃ _ => ⟨trivial, fun createdAt _ => ?_⟩
              refine fun w₄ _ => ⟨⟨?_, ?_⟩, fun reply _ => ?_⟩
              · unfold hashedText
                rw [hbody]
                rfl
              · exact ⟨_, body, rfl, hbody⟩
              · cases reply <;> trivial

section trail

variable {ι α : Type} [DecidableEq ι] {crypto : AuditCrypto}

/-- A step of a call leaves the events or inserts one. -/
theorem auditEvents_step {s : DbPool ι α} {e : ι × Tick}
    (hall : ∀ i, (s.progs i).Ensures (fun _ _ _ => True) (fun _ => AuditCommand crypto) ()) :
    ((∀ ev, (s.progs e.1).next = some (.insertAuditEvent ev) → ¬ Accepted e.2 s.store ev) ∧
        (Atomic.Pool.step execDb s e).store.auditEvents = s.store.auditEvents) ∨
      ∃ ev, (s.progs e.1).next = some (.insertAuditEvent ev) ∧ Accepted e.2 s.store ev ∧
        Sealed crypto ev ∧
        (Atomic.Pool.step execDb s e).store.auditEvents = ev.stored :: s.store.auditEvents := by
  cases hnext : (s.progs e.1).next with
  | none =>
      left
      refine ⟨fun ev hev => ?_, by rw [Atomic.Pool.step_finished hnext]⟩
      cases hev
  | some c =>
      have hcmd := (hall e.1).of_next hnext
      rw [Atomic.Pool.step_store hnext]
      cases c with
      | latestAuditHash tenantId =>
          left
          refine ⟨fun ev hev => ?_, ?_⟩
          · cases hev
          · show (e.2.attempt s.store (.ok (_, s.store))).2.auditEvents = _
            rw [Tick.attempt_read, Database.atTime_auditEvents]
      | newV4 =>
          left
          refine ⟨fun ev hev => ?_, rfl⟩
          cases hev
      | now =>
          left
          refine ⟨fun ev hev => ?_, rfl⟩
          cases hev
      | insertAuditEvent ev =>
          rw [execDb_insertAuditEvent]
          split_ifs with haccepted
          · exact Or.inr ⟨ev, rfl, haccepted, hcmd, rfl⟩
          · left
            refine ⟨fun ev' hev => ?_, rfl⟩
            cases hev
            exact haccepted
      | _ => exact hcmd.elim

/-- The trail after an insert. -/
theorem trail_insert {db db' : Database} {ev : AuditEvent} (tenantId : String)
    (h : db'.auditEvents = ev.stored :: db.auditEvents) :
    db'.trail tenantId = if ev.tenantId = tenantId then
      (db.trail tenantId).orderedInsert AuditEvent.le ev.stored else db.trail tenantId := by
  unfold Database.trail
  rw [h, List.filter_cons]
  have htenant : ev.stored.tenantId = ev.tenantId := rfl
  rw [htenant]
  split_ifs with ht ht' ht'
  · rfl
  · exact absurd (of_decide_eq_true ht) ht'
  · exact absurd (decide_eq_true ht') ht
  · rfl

theorem mem_trail {db : Database} {tenantId : String} {e : AuditEvent} :
    e ∈ db.trail tenantId ↔ e ∈ db.auditEvents ∧ e.tenantId = tenantId := by
  unfold Database.trail
  rw [List.mem_insertionSort, List.mem_filter, decide_eq_true_eq]

/-- The trail of a tenant is a linear hash chain. -/
def LinearTrail (db : Database) (tenantId : String) : Prop :=
  HashChain.Linear AuditEvent.previousHash AuditEvent.eventHash (db.trail tenantId)

/-- An accepted insert for the tenant finds the latest hash as the call has read it, and its event
comes after every event of the trail. -/
def InsertInOrder (tenantId : String) (s : DbPool ι α) (e : ι × Tick) : Prop :=
  match (s.progs e.1).next with
  | some (.insertAuditEvent ev) =>
      ev.tenantId = tenantId → Accepted e.2 s.store ev →
        ev.previousHash = s.store.latestAuditHash tenantId ∧
        ∀ f ∈ s.store.trail tenantId, ¬ ev.stored.le f
  | _ => True

/-- What holds of the pool and of the stored events in every state reached. -/
structure AuditInvariant (crypto : AuditCrypto) (s : DbPool ι α) : Prop where
  commands : ∀ i, (s.progs i).Ensures (fun _ _ _ => True) (fun _ => AuditCommand crypto) ()
  stored : ∀ e ∈ s.store.auditEvents, Sealed crypto e

theorem AuditInvariant.step {s : DbPool ι α} (h : AuditInvariant crypto s) (e : ι × Tick) :
    AuditInvariant crypto (Atomic.Pool.step execDb s e) := by
  refine ⟨Atomic.Pool.ensures_step h.commands e fun _ => trivial, ?_⟩
  rcases auditEvents_step h.commands with ⟨-, hsame⟩ | ⟨ev, -, -, hsealed, hnew⟩
  · rw [hsame]
    exact h.stored
  · rw [hnew]
    intro f hf
    rcases List.mem_cons.mp hf with rfl | hf
    · exact ⟨hsealed.hash, hsealed.payload⟩
    · exact h.stored f hf

/-- Events are never removed. -/
theorem auditEvents_mono {s : DbPool ι α} (h : AuditInvariant crypto s) (es : List (ι × Tick)) :
    s.store.auditEvents ⊆ (Atomic.Pool.run execDb es s).store.auditEvents := by
  induction es generalizing s with
  | nil => exact fun f hf => hf
  | cons e es ih =>
      have hstep : s.store.auditEvents ⊆ (Atomic.Pool.step execDb s e).store.auditEvents := by
        rcases auditEvents_step h.commands with ⟨-, hsame⟩ | ⟨ev, -, -, -, hnew⟩
        · rw [hsame]
          exact fun f hf => hf
        · rw [hnew]
          exact List.subset_cons_self _ _
      exact fun f hf => ih (h.step e) (hstep hf)

/-- In a linked chain of sealed events the hash of an event determines its link. -/
theorem keyDeterminesLink (hdoc : crypto.Documented) {l : List AuditEvent}
    (hsealed : ∀ e ∈ l, Sealed crypto e) (hfree : CollisionFree crypto l)
    (hlinked : HashChain.LinkedFrom AuditEvent.previousHash AuditEvent.eventHash none l) :
    HashChain.KeyDeterminesLink AuditEvent.previousHash AuditEvent.eventHash l := by
  have hdigest : ∀ e ∈ l, LinkedToDigest crypto e := by
    intro e he k hk
    obtain ⟨d, hd, hdk⟩ := HashChain.exists_of_link hlinked he hk
    exact ⟨_, hdk.symm.trans (hsealed d hd).hash⟩
  intro d hd e he hkey
  apply previousHash_eq_of_hashedText hdoc (hsealed d hd) (hsealed e he) (hdigest d hd) (hdigest e he)
  apply hfree d hd e he
  rw [← (hsealed d hd).hash, ← (hsealed e he).hash, hkey]

/-- One step keeps the trail linear exactly when it inserts in order. -/
theorem linearTrail_step (hdoc : crypto.Documented) {tenantId : String} {s : DbPool ι α}
    {e : ι × Tick} (h : AuditInvariant crypto s)
    (hfree : CollisionFree crypto (Atomic.Pool.step execDb s e).store.auditEvents)
    (hlinear : LinearTrail s.store tenantId) :
    LinearTrail (Atomic.Pool.step execDb s e).store tenantId ↔ InsertInOrder tenantId s e := by
  unfold InsertInOrder
  have hsealed := (h.step e).stored
  rcases auditEvents_step h.commands with ⟨hrefused, hsame⟩ | ⟨ev, hnext, haccepted, -, hnew⟩
  · -- no event is inserted
    have htrail : LinearTrail (Atomic.Pool.step execDb s e).store tenantId := by
      unfold LinearTrail Database.trail
      rw [hsame]
      exact hlinear
    refine ⟨fun _ => ?_, fun _ => htrail⟩
    split
    · rename_i ev hnext
      exact fun _ haccepted => absurd haccepted (hrefused ev hnext)
    · trivial
  · rw [hnext]
    dsimp only
    have htrail := trail_insert tenantId hnew
    by_cases htenant : ev.tenantId = tenantId
    · rw [if_pos htenant] at htrail
      by_cases hlast : ∀ f ∈ s.store.trail tenantId, ¬ ev.stored.le f
      · -- the event comes last
        have happend : (Atomic.Pool.step execDb s e).store.trail tenantId =
            s.store.trail tenantId ++ [ev.stored] := by
          rw [htrail, List.orderedInsert_eq_take_drop]
          have hall : ∀ f ∈ s.store.trail tenantId, decide (¬ ev.stored.le f) = true :=
            fun f hf => decide_eq_true (hlast f hf)
          rw [List.takeWhile_eq_self_iff.mpr hall, List.dropWhile_eq_nil_iff.mpr hall]
        have hmem : ∀ f ∈ s.store.trail tenantId ++ [ev.stored],
            f ∈ (Atomic.Pool.step execDb s e).store.auditEvents := by
          rw [← happend]
          exact fun f hf => (mem_trail.mp hf).1
        unfold LinearTrail
        rw [happend]
        constructor
        · intro hnewLinear _ _
          exact ⟨(HashChain.linkedFrom_append_singleton.mp hnewLinear.linked).2, hlast⟩
        · intro horder
          have hlink := (horder htenant haccepted).1
          refine hlinear.append hlink (keyDeterminesLink hdoc (fun f hf => hsealed f (hmem f hf))
            (fun d hd f hf => hfree d (hmem d hd) f (hmem f hf)) ?_)
          exact HashChain.linkedFrom_append_singleton.mpr ⟨hlinear.linked, hlink⟩
      · -- the event comes before another one
        refine iff_of_false ?_ fun horder => hlast (horder htenant haccepted).2
        unfold LinearTrail
        rw [htrail, List.orderedInsert_eq_take_drop]
        have hsplit := List.takeWhile_append_dropWhile (p := fun f => decide (¬ ev.stored.le f))
          (l := s.store.trail tenantId)
        cases hdrop : (s.store.trail tenantId).dropWhile fun f => decide (¬ ev.stored.le f) with
        | nil =>
            refine absurd (fun f hf => ?_) hlast
            exact of_decide_eq_true (List.dropWhile_eq_nil_iff.mp hdrop f hf)
        | cons d rest =>
            rw [hdrop] at hsplit
            unfold LinearTrail at hlinear
            rw [← hsplit] at hlinear
            exact HashChain.not_linear_insert hlinear
    · have hother : LinearTrail (Atomic.Pool.step execDb s e).store tenantId := by
        unfold LinearTrail
        rw [htrail, if_neg htenant]
        exact hlinear
      exact iff_of_true hother fun heq => absurd heq htenant

/-- Any number of calls, none of them started, on a database. -/
def auditPool (crypto : AuditCrypto) (signingKey : String) (calls : ι → AuditCall) (db : Database) :
    DbPool ι (Except String Unit) :=
  ⟨fun i => recordAudit crypto signingKey (calls i), db⟩

/-- **When the audit trail is a linear hash chain**: in every state reached by any number of
concurrent calls, exactly when every accepted insert is in order. -/
theorem audit_trail_linear_iff (hdoc : crypto.Documented) (signingKey : String)
    (calls : ι → AuditCall) (db : Database) (hempty : db.auditEvents = [])
    (schedule : List (ι × Tick)) (tenantId : String)
    (hfree : CollisionFree crypto
      (Atomic.Pool.run execDb schedule (auditPool crypto signingKey calls db)).store.auditEvents) :
    (∀ front, front <+: schedule → LinearTrail
        (Atomic.Pool.run execDb front (auditPool crypto signingKey calls db)).store tenantId) ↔
      Atomic.Pool.Meets execDb (InsertInOrder tenantId) schedule
        (auditPool crypto signingKey calls db) := by
  set start := auditPool crypto signingKey calls db
  have hstart : AuditInvariant crypto start := by
    refine ⟨fun i => recordAudit_ensures crypto signingKey (calls i) _ _, ?_⟩
    intro e he
    have hnone : start.store.auditEvents = [] := hempty
    rw [hnone] at he
    exact (List.not_mem_nil he).elim
  have hinvariant : ∀ front, front <+: schedule →
      AuditInvariant crypto (Atomic.Pool.run execDb front start) ∧
        CollisionFree crypto (Atomic.Pool.run execDb front start).store.auditEvents := by
    rintro front ⟨back, rfl⟩
    have hinv : AuditInvariant crypto (Atomic.Pool.run execDb front start) :=
      Atomic.Pool.run_invariant (fun s e h => h.step e) hstart front
    refine ⟨hinv, fun d hd e he => ?_⟩
    rw [Atomic.Pool.run_append] at hfree
    exact hfree d (auditEvents_mono hinv back hd) e (auditEvents_mono hinv back he)
  have hlinear : LinearTrail start.store tenantId := by
    have hnone : start.store.auditEvents = [] := hempty
    unfold LinearTrail Database.trail
    rw [hnone]
    exact ⟨trivial, List.nodup_nil⟩
  refine Atomic.Pool.holds_iff_meets
    (J := fun s => AuditInvariant crypto s ∧ CollisionFree crypto s.store.auditEvents)
    (P := fun s => LinearTrail s.store tenantId) hinvariant ?_ hlinear
  rintro s e ⟨hinv, -⟩ ⟨-, hfree'⟩ hs
  exact linearTrail_step hdoc hinv hfree' hs

end trail

/-! ### Two calls of one tenant -/

def ruleDeleted : AuditCall where
  claims := ⟨"u1", "t1", "a@b.c", ["admin"], none⟩
  action := "rule.delete"
  resourceType := "rule"
  resourceId := some "r1"
  targetTenantId := none
  metadata := .obj [("deleted", .bool true)]

/-- The JSON text of the payload. -/
def ruleDeletedText : String :=
  "\x7b\"action\":\"rule.delete\",\"actor_email\":\"a@b.c\",\"actor_roles\":[\"admin\"]," ++
  "\"actor_user_id\":\"u1\",\"metadata\":\x7b\"deleted\":true\x7d,\"request_id\":null," ++
  "\"resource_id\":\"r1\",\"resource_type\":\"rule\",\"target_tenant_id\":null," ++
  "\"tenant_id\":\"t1\"\x7d"

/-- The digests of the payload alone and of the payload after the first digest. -/
def sampleCrypto : AuditCrypto where
  sha256Hex := fun s =>
    if s = ruleDeletedText then "d05f3c4ce2ce7429cb135e2c328fc79374d5b7b7bc3cf27977838fb4e0cb6187"
    else "b197c80e1659f862db649494a998809012d516f9c0c6cc7fc85399b8bf176216"
  toVec := fun _ => .ok ruleDeletedText
  hmacBase64 := fun _ eventHash => .ok eventHash

theorem sampleCrypto_documented : sampleCrypto.Documented := by
  constructor
  · intro s
    unfold sampleCrypto
    dsimp only
    split_ifs <;> decide +kernel
  · intro s
    have hall : (sampleCrypto.sha256Hex s).toList.all
        (fun c => "0123456789abcdef".toList.contains c) = true := by
      unfold sampleCrypto
      dsimp only
      split_ifs <;> decide +kernel
    exact fun c hc => List.contains_iff_mem.mp (List.all_eq_true.mp hall c hc)
  · rintro fields body h
    rw [← Except.ok.inj h]
    decide +kernel

def emptyDatabase : Database where
  clock := .ofSeconds 0
  auditEvents := []
  policies := []
  alerts := ⟨[], List.nodup_nil⟩
  auditEvents_nodup := List.nodup_nil
  policies_nodup := List.nodup_nil

def firstTick : Tick := { clock := .ofSeconds 1, uuid := "7b1d0e52-5bd4-4d6c-9a45-0f6f0c6d5f01" }
def secondTick : Tick := { clock := .ofSeconds 2, uuid := "7b1d0e52-5bd4-4d6c-9a45-0f6f0c6d5f02" }

/-- One call after the other. -/
def oneByOne : List (ℕ × Tick) :=
  List.replicate 4 (0, firstTick) ++ List.replicate 4 (1, secondTick)

/-- Both calls read before either inserts. -/
def bothReadFirst : List (ℕ × Tick) :=
  (0, firstTick) :: (1, firstTick) ::
    (List.replicate 3 (0, firstTick) ++ List.replicate 3 (1, secondTick))

/-- Two calls one after the other. -/
theorem oneByOne_linear :
    LinearTrail (Atomic.Pool.run execDb oneByOne
      (auditPool sampleCrypto "key" (fun _ => ruleDeleted) emptyDatabase)).store "t1" := by
  have hfree : CollisionFree sampleCrypto (Atomic.Pool.run execDb oneByOne
      (auditPool sampleCrypto "key" (fun _ => ruleDeleted) emptyDatabase)).store.auditEvents := by
    apply collisionFree_of_nodup
    decide +kernel
  have horder : Atomic.Pool.Meets execDb (InsertInOrder "t1") oneByOne
      (auditPool sampleCrypto "key" (fun _ => ruleDeleted) emptyDatabase) := by
    refine ⟨trivial, trivial, trivial, ?_, trivial, trivial, trivial, ?_, trivial⟩
    · intro _ _
      decide +kernel
    · intro _ _
      decide +kernel
  exact (audit_trail_linear_iff sampleCrypto_documented "key" (fun _ => ruleDeleted) emptyDatabase
    rfl oneByOne "t1" hfree).mpr horder oneByOne List.prefix_rfl

/-- Two calls that read before either inserts both link to nothing. -/
theorem bothReadFirst_not_linear :
    ¬ ∀ (crypto : AuditCrypto) (signingKey : String) (calls : ℕ → AuditCall) (db : Database)
      (schedule : List (ℕ × Tick)) (tenantId : String),
      crypto.Documented → db.auditEvents = [] →
      CollisionFree crypto
        (Atomic.Pool.run execDb schedule (auditPool crypto signingKey calls db)).store.auditEvents →
      LinearTrail (Atomic.Pool.run execDb schedule (auditPool crypto signingKey calls db)).store
        tenantId := by
  intro h
  have hfree : CollisionFree sampleCrypto (Atomic.Pool.run execDb bothReadFirst
      (auditPool sampleCrypto "key" (fun _ => ruleDeleted) emptyDatabase)).store.auditEvents := by
    unfold CollisionFree
    decide +kernel
  have hlinear := h sampleCrypto "key" (fun _ => ruleDeleted) emptyDatabase bothReadFirst "t1"
    sampleCrypto_documented rfl hfree
  have hlinks : ((Atomic.Pool.run execDb bothReadFirst
      (auditPool sampleCrypto "key" (fun _ => ruleDeleted) emptyDatabase)).store.trail "t1").map
        (·.previousHash) = [none, none] := by
    decide +kernel
  have hdistinct := hlinear.distinct
  rw [hlinks] at hdistinct
  exact absurd hdistinct (by decide)

end MiniSiem

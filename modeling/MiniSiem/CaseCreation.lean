import MiniSiem.AlertCases
import MiniSiem.Lib.Outcomes

/-! # Opening a case once

Any number of calls of `create_case_from_alert` (`db/postgres.rs`) for one alert, command by command on
the tables; any command may fail.

* **Facts.**  Which identifiers are those of the case of the alert, which of a case that is linked to
  it, and which of a playbook; facts are never taken back.
* **Outcome.**  A call whose replies tell of the facts as they should returns the case of the alert, and
  that case is linked (`createCaseFromAlert_yields`).
* **Runs.**  `case_opened_once`: so does every call whose own commands do not fail, if a case that is
  found is linked and a case is inserted only for an alert that has none. -/

namespace MiniSiem

open Atomic

structure CreateCall where
  alert : Alert
  new : NewCase
  playbookId : Option Uuid

abbrev CreatePool (ι : Type) := BackendPool ι (Except CaseFailure CaseRecord)

/-- The calls, none of them started. -/
def createPool {ι : Type} (calls : ι → CreateCall) (b : Backend) : CreatePool ι :=
  ⟨fun i => createCaseFromAlert (calls i).alert (calls i).new (calls i).playbookId, b⟩

section tables

variable (d : TenantData) (tenantId : String) (alertId caseId : Uuid)

/-- The case is the one of the alert. -/
def TenantData.CaseOf : Prop :=
  ∃ c ∈ d.cases, c.id = caseId ∧ c.tenantId = tenantId ∧ c.primaryAlertId = alertId

/-- The alert is linked to the case. -/
def TenantData.Linked : Prop :=
  ∃ l ∈ d.links, l.caseId = caseId ∧ l.tenantId = tenantId ∧ l.alertId = alertId

instance : Decidable (d.CaseOf tenantId alertId caseId) :=
  inferInstanceAs (Decidable (∃ c ∈ d.cases, c.id = caseId ∧ c.tenantId = tenantId ∧
    c.primaryAlertId = alertId))

instance : Decidable (d.Linked tenantId alertId caseId) :=
  inferInstanceAs (Decidable (∃ l ∈ d.links, l.caseId = caseId ∧ l.tenantId = tenantId ∧
    l.alertId = alertId))

end tables

/-- A lookup finds a linked case only, and an `INSERT` has what it needs: the alert has no case yet, the
identifier is new, and the values can be stored. -/
def BackendCmd.opensOnce (tick : Tick) (d : TenantData) : BackendCmd → Bool
  | data (.getCaseByAlertId tenantId alertId) =>
      decide (∀ record ∈ d.getCaseByAlertId tenantId alertId, d.Linked tenantId alertId record.id)
  | data (.insertCase record) =>
      decide (∀ c ∈ d.cases, ¬ (c.tenantId = record.tenantId ∧ c.primaryAlertId = record.primaryAlertId)) &&
        decide (∀ c ∈ d.cases, c.id ≠ record.id) && record.storable
  | data (.insertLink _ _ tenantId) => nulFree tenantId
  | data (.insertPlaybook playbook) =>
      decide (∀ p ∈ d.playbooks, p.id ≠ playbook.id) && playbook.storable
  | db .now => tick.clock.1 + 2147483647 * 60 * 1000000000 < (maxSeconds + 1) * 1000000000
  | _ => true

/-- The step of a call fails, or opens the case once. -/
def OpensOnce {ι : Type} (s : CreatePool ι) (e : ι × Tick) : Prop :=
  e.2.fault = none → ∀ c ∈ (s.progs e.1).next, c.opensOnce e.2 s.store.data = true

instance {ι : Type} (s : CreatePool ι) (e : ι × Tick) : Decidable (OpensOnce s e) :=
  inferInstanceAs (Decidable (e.2.fault = none → ∀ c ∈ (s.progs e.1).next,
    c.opensOnce e.2 s.store.data = true))

/-- The call has returned the only case of the alert, which is linked to it. -/
def ReturnsCase {ι : Type} (tenantId : String) (alertId : Uuid) (s : CreatePool ι) (i : ι) : Prop :=
  ∃ record, s.progs i = .ret (.ok record) ∧
    (∀ caseId, s.store.data.CaseOf tenantId alertId caseId ↔ caseId = record.id) ∧
    s.store.data.Linked tenantId alertId record.id

/-! ### Facts -/

structure CaseFacts where
  opened : Set Uuid
  linked : Set Uuid
  playbooks : Set Uuid

instance : Preorder CaseFacts where
  le w w' := w.opened ⊆ w'.opened ∧ w.linked ⊆ w'.linked ∧ w.playbooks ⊆ w'.playbooks
  le_refl w := ⟨subset_rfl, subset_rfl, subset_rfl⟩
  le_trans _ _ _ h h' := ⟨h.1.trans h'.1, h.2.1.trans h'.2.1, h.2.2.trans h'.2.2⟩

def TenantData.caseFacts (tenantId : String) (alertId : Uuid) (d : TenantData) : CaseFacts where
  opened := {id | d.CaseOf tenantId alertId id}
  linked := {id | d.Linked tenantId alertId id}
  playbooks := {id | ∃ p ∈ d.playbooks, p.id = id}

/-- What a call learns from a reply. -/
def Learns (w w' : CaseFacts) : (c : BackendCmd) → c.Reply → Prop
  | .data (.getCaseByAlertId _ _), r => ∃ found, r = .ok found ∧
      ∀ record ∈ found, record.id ∈ w'.opened ∧ record.id ∈ w'.linked
  | .data (.countPlaybooks _), r => ∃ n, r = .ok n
  | .data (.insertPlaybook _), r => r = .ok ()
  | .data (.listPlaybooks _), r => ∃ playbooks, r = .ok playbooks ∧ ∀ p ∈ playbooks, p.id ∈ w'.playbooks
  | .data (.getCasePlaybook _ _), r => ∃ playbook, r = .ok playbook ∧ ∀ p ∈ playbook, p.id ∈ w'.playbooks
  | .data (.insertCase record), r => (∀ id ∈ record.playbookId, id ∈ w.playbooks) →
      ∃ stored, r = .ok stored ∧ stored.id = record.id ∧ record.id ∈ w'.opened
  | .data (.insertLink caseId _ _), r => caseId ∈ w.opened → r = .ok () ∧ caseId ∈ w'.linked
  | .db .now, now => ∀ minutes, (DateTime.addMinutes now minutes).isSome = true
  | _, _ => True

/-- The facts grow, and the reply tells of them. -/
def OpeningReply (w : CaseFacts) (c : BackendCmd) (r : c.Reply) (w' : CaseFacts) : Prop :=
  w ≤ w' ∧ Learns w w' c r

/-- The result is an opened and linked case. -/
def Opened (w : CaseFacts) (result : Except CaseFailure CaseRecord) : Prop :=
  ∃ record, result = .ok record ∧ record.id ∈ w.opened ∧ record.id ∈ w.linked

/-! ### The outcome of a call -/

section outcome

variable {w : CaseFacts} {alert : Alert} {new : NewCase}

theorem ensureDefaultCasePlaybooks_yields (tenantId : String) :
    (ensureDefaultCasePlaybooks tenantId).Yields OpeningReply (fun _ result => result = .ok ()) w := by
  refine Prog.yields_call fun w₁ _ r w₂ hr => ?_
  obtain ⟨n, rfl⟩ := hr.2
  dsimp only
  split_ifs
  · rfl
  · refine Prog.yields_call fun _ _ _ _ _ => Prog.yields_call fun _ _ _ _ _ =>
      Prog.yields_call fun _ _ r _ hr => ?_
    obtain rfl := hr.2
    rfl

/-- The chosen playbook, if there is one, is in the table. -/
def PlaybookKnown (w : CaseFacts) (result : Except String (Option CasePlaybook)) : Prop :=
  ∃ playbook, result = .ok playbook ∧ ∀ p ∈ playbook, p.id ∈ w.playbooks

theorem choosePlaybook_yields (tenantId : String) (playbookId : Option Uuid) :
    (choosePlaybook tenantId playbookId).Yields OpeningReply PlaybookKnown w := by
  cases playbookId with
  | some id =>
      refine Prog.yields_call fun _ _ r _ hr => ?_
      obtain ⟨playbook, rfl, hknown⟩ := hr.2
      exact ⟨playbook, rfl, hknown⟩
  | none =>
      have hlist : (listCasePlaybooks tenantId).Yields OpeningReply (fun w result =>
          ∃ playbooks, result = .ok playbooks ∧ ∀ p ∈ playbooks, p.id ∈ w.playbooks) w := by
        refine (ensureDefaultCasePlaybooks_yields tenantId).bind fun w' result hresult => ?_
        subst hresult
        refine Prog.yields_call fun _ _ r _ hr => ?_
        obtain ⟨playbooks, rfl, hknown⟩ := hr.2
        exact ⟨playbooks, rfl, hknown⟩
      refine hlist.bind fun w' result hresult => ?_
      obtain ⟨playbooks, rfl, hknown⟩ := hresult
      exact ⟨_, rfl, fun p hp => hknown p (List.mem_of_find?_eq_some hp)⟩

theorem opened_mono {w w' : CaseFacts} {result : Except CaseFailure CaseRecord} (hle : w ≤ w')
    (h : Opened w result) : Opened w' result := by
  obtain ⟨record, rfl, hopened, hlinked⟩ := h
  exact ⟨record, rfl, hle.1 hopened, hle.2.1 hlinked⟩

theorem insertCaseOfAlert_yields {playbook : Option CasePlaybook}
    (h : ∀ p ∈ playbook, p.id ∈ w.playbooks) :
    (insertCaseOfAlert alert new playbook).Yields OpeningReply Opened w := by
  refine Prog.yields_call fun w₁ hle₁ now w₂ hnow => Prog.yields_call fun w₃ hle₃ caseId w₄ hid => ?_
  obtain ⟨slaDueAt, hsla⟩ := Option.isSome_iff_exists.mp (hnow.2 ((playbook.map (·.slaMinutes)).getD 60))
  obtain ⟨escalationAt, hescalation⟩ :=
    Option.isSome_iff_exists.mp (hnow.2 ((playbook.map (·.escalateAfterMinutes)).getD 120))
  rw [hsla, hescalation]
  refine Prog.yields_call fun w₅ hle₅ r w₆ hr => ?_
  have hle : w ≤ w₅ := hle₁.trans (hnow.1.trans (hle₃.trans (hid.1.trans hle₅)))
  obtain ⟨stored, rfl, hstored, hopened⟩ := hr.2 fun id hid' => by
    obtain ⟨p, hp, rfl⟩ := Option.map_eq_some_iff.mp hid'
    exact hle.2.2 (h p hp)
  refine Prog.yields_call fun w₇ hle₇ r' w₈ hr' => ?_
  obtain ⟨rfl, hlinked⟩ := hr'.2 (hle₇.1 hopened)
  have hwas : w₇ ≤ w₈ := hr'.1
  refine (Prog.yields_later (fun _ _ _ _ hlater => hlater.1) (le_refl w₈)).bind fun w₉ _ hle₉ => ?_
  refine ⟨stored, rfl, ?_, ?_⟩
  · rw [hstored]
    exact hle₉.1 (hwas.1 (hle₇.1 hopened))
  · rw [hstored]
    exact hle₉.2.1 hlinked

theorem createCaseFromAlert_yields (playbookId : Option Uuid) :
    (createCaseFromAlert alert new playbookId).Yields OpeningReply Opened w := by
  refine Prog.yields_call fun w₁ _ r w₂ hr => ?_
  obtain ⟨found, rfl, hfound⟩ := hr.2
  cases found with
  | some record => exact ⟨record, rfl, hfound record rfl⟩
  | none =>
      refine (ensureDefaultCasePlaybooks_yields _).bind fun w₃ result hresult => ?_
      subst hresult
      refine (choosePlaybook_yields _ _).bind fun w₄ result hresult => ?_
      obtain ⟨playbook, rfl, hknown⟩ := hresult
      exact insertCaseOfAlert_yields hknown

end outcome

/-! ### What every call does, whatever fails -/

/-- A case that a call has inserted is the one of the alert. -/
def InsertReply (w : CaseFacts) : (c : BackendCmd) → c.Reply → Prop
  | .data (.insertCase record), r => ∀ stored, r = .ok stored → record.id ∈ w.opened
  | _, _ => True

/-- A link is inserted for the case of the alert only. -/
def LinksOwn (alert : Alert) (new : NewCase) (w : CaseFacts) (c : BackendCmd) : Prop :=
  OpeningCommand alert new c ∧
    ∀ caseId alertId tenantId, c = .data (.insertLink caseId alertId tenantId) → caseId ∈ w.opened

section links

variable {w : CaseFacts} {alert : Alert} {new : NewCase}

theorem linksOwn_side {α : Type} {p : BackendProg α} (h : Issues (SideCommand alert) p) :
    p.Ensures InsertReply (LinksOwn alert new) w := by
  induction p generalizing w with
  | ret a => trivial
  | call c k ih =>
      refine fun w' _ => ⟨⟨(h () le_rfl).1.opening, ?_⟩, fun r _ => ih r ((h () le_rfl).2 r trivial)⟩
      rintro caseId alertId tenantId rfl
      exact ((h () le_rfl).1 : SideCommand alert _).elim

theorem insertCaseOfAlert_links (playbook : Option CasePlaybook) :
    (insertCaseOfAlert alert new playbook).Ensures InsertReply (LinksOwn alert new) w := by
  refine fun w₁ _ => ⟨⟨trivial, fun _ _ _ h => by cases h⟩, fun now _ w₂ _ =>
    ⟨⟨trivial, fun _ _ _ h => by cases h⟩, fun caseId _ => ?_⟩⟩
  split
  · refine fun w₃ _ => ⟨⟨⟨_, _, _, _, _, rfl⟩, fun _ _ _ h => by cases h⟩, fun r hr => ?_⟩
    cases r with
    | error e => trivial
    | ok record =>
        refine fun w₄ hle => ⟨⟨⟨rfl, rfl⟩, ?_⟩, fun r' _ => ?_⟩
        · rintro _ _ _ ⟨⟩
          exact hle.1 (hr record rfl)
        · cases r' with
          | error e => trivial
          | ok u => exact (linksOwn_side (recordNewCase_issues _ _)).bind fun _ _ _ => trivial
  · trivial

theorem createCaseFromAlert_links (playbookId : Option Uuid) :
    (createCaseFromAlert alert new playbookId).Ensures InsertReply (LinksOwn alert new) w := by
  refine fun w₁ _ => ⟨⟨⟨rfl, rfl⟩, fun _ _ _ h => by cases h⟩, fun r _ => ?_⟩
  rcases r with e | _ | existing
  · trivial
  · refine (linksOwn_side (ensureDefaultCasePlaybooks_issues _)).bind fun w₂ _ ensured => ?_
    cases ensured with
    | error e => trivial
    | ok u =>
        refine (linksOwn_side (choosePlaybook_issues _ _)).bind fun w₃ _ chosen => ?_
        cases chosen with
        | error e => trivial
        | ok playbook => exact insertCaseOfAlert_links playbook
  · trivial

end links

/-! ### Commands -/

section commands

variable {tenantId : String} {alertId : Uuid} {tick : Tick} {b : Backend} {alert : Alert}
  {new : NewCase} {c : BackendCmd}

/-- No command of a call takes a fact back. -/
theorem caseFacts_exec (h : OpeningCommand alert new c) :
    b.data.caseFacts tenantId alertId ≤ (execBackend tick c b).2.data.caseFacts tenantId alertId := by
  have hrows : ∀ {d : TenantData}, (∀ r ∈ b.data.cases, r ∈ d.cases) → (∀ l ∈ b.data.links, l ∈ d.links) →
      (∀ p ∈ b.data.playbooks, p ∈ d.playbooks) →
      b.data.caseFacts tenantId alertId ≤ d.caseFacts tenantId alertId := by
    intro d hcases hlinks hplaybooks
    refine ⟨?_, ?_, ?_⟩
    · rintro id ⟨r, hr, hid⟩
      exact ⟨r, hcases r hr, hid⟩
    · rintro id ⟨l, hl, hid⟩
      exact ⟨l, hlinks l hl, hid⟩
    · rintro id ⟨p, hp, hid⟩
      exact ⟨p, hplaybooks p hp, hid⟩
  rcases execBackend_data tick b c with hsame | ⟨dc, reply, data, rfl, -, hrun, hdata⟩
  · rw [hsame]
  · rw [hdata]
    cases dc with
    | insertCase record =>
        obtain ⟨-, -, -, rfl⟩ := TenantData.insertCase_ok hrun
        exact hrows (fun r hr => List.mem_append_left _ hr) (fun l hl => hl) fun p hp => hp
    | insertLink caseId alertId' tenantId' =>
        rcases TenantData.insertLink_ok hrun with rfl | ⟨-, -, rfl⟩
        · exact le_rfl
        · exact hrows (fun r hr => hr) (fun l hl => List.mem_append_left _ hl) fun p hp => hp
    | insertPlaybook playbook =>
        obtain ⟨-, rfl⟩ := TenantData.insertPlaybook_ok hrun
        exact hrows (fun r hr => hr) (fun l hl => hl) fun p hp => List.mem_append_left _ hp
    | insertCaseEvent event =>
        obtain ⟨-, rfl⟩ := TenantData.insertCaseEvent_ok hrun
        exact hrows (fun r hr => hr) (fun l hl => hl) fun p hp => hp
    | getCaseByAlertId _ _ | countPlaybooks _ | listPlaybooks _ | getCasePlaybook _ _ =>
        obtain rfl := data_of_ok hrun
        exact le_rfl
    | _ => exact h.elim

/-- Every link is that of a case and its alert. -/
def LinksBelong (d : TenantData) : Prop := ∀ l ∈ d.links, d.CaseOf l.tenantId l.alertId l.caseId

theorem CaseOf.unique {d : TenantData} {id id' : Uuid} (h : d.CaseOf tenantId alertId id)
    (h' : d.CaseOf tenantId alertId id') : id = id' := by
  obtain ⟨c, hc, rfl, htenant, halert⟩ := h
  obtain ⟨c', hc', rfl, htenant', halert'⟩ := h'
  have hkey : (c.tenantId, c.primaryAlertId) = (c'.tenantId, c'.primaryAlertId) := by
    rw [htenant, halert, htenant', halert']
  rw [List.inj_on_of_nodup_map d.cases_alert hc hc' hkey]

theorem isSome_addMinutes {now : DateTime}
    (h : now.1 + 2147483647 * 60 * 1000000000 < (maxSeconds + 1) * 1000000000) (minutes : Int32) :
    (DateTime.addMinutes now minutes).isSome = true := by
  have hmost : minutes.toInt ≤ 2147483647 := Int32.toInt_le minutes
  have hleast := now.2.1
  unfold DateTime.addMinutes
  dsimp only
  rw [dif_pos ⟨by omega, by omega⟩]
  rfl

/-- A lookup finds the case of the alert. -/
theorem getCaseByAlertId_caseOf {d : TenantData} {record : CaseRecord} (hlinks : LinksBelong d)
    (h : d.getCaseByAlertId tenantId alertId = some record) : d.CaseOf tenantId alertId record.id := by
  have hmem := List.mem_of_head? h
  rw [List.mem_insertionSort, List.mem_filter] at hmem
  obtain ⟨hrecord, hmatch⟩ := hmem
  simp only [Bool.and_eq_true, Bool.or_eq_true, decide_eq_true_eq, List.any_eq_true] at hmatch
  obtain ⟨htenant, halert | ⟨l, hl, ⟨hcase, hltenant⟩, hlalert⟩⟩ := hmatch
  · exact ⟨record, hrecord, rfl, htenant, halert⟩
  · have hown := hlinks l hl
    rw [hcase, hltenant.trans htenant, hlalert] at hown
    exact hown

/-- An `INSERT INTO cases` that has what it needs. -/
theorem insertCase_run {d : TenantData} {record : CaseRecord}
    (h : BackendCmd.opensOnce tick d (.data (.insertCase record)) = true)
    (hplaybook : ∀ id ∈ record.playbookId, ∃ p ∈ d.playbooks, p.id = id) :
    ∃ data, d.insertCase record = .ok (record.stored, data) := by
  simp only [BackendCmd.opensOnce, Bool.and_eq_true, decide_eq_true_eq] at h
  obtain ⟨⟨hnone, hnew⟩, hstorable⟩ := h
  have hforeign : record.playbookId.all (fun id => d.playbooks.any fun p => p.id = id) = true := by
    rw [Option.all_eq_true]
    intro id hid
    obtain ⟨p, hp, hpid⟩ := hplaybook id hid
    exact List.any_eq_true.mpr ⟨p, hp, decide_eq_true hpid⟩
  have hids : ((d.cases ++ [record.stored]).map (·.id)).Nodup :=
    KeyedList.nodup_concat d.cases_id hnew
  have halerts : ((d.cases ++ [record.stored]).map fun c => (c.tenantId, c.primaryAlertId)).Nodup :=
    KeyedList.nodup_concat d.cases_alert fun c hc hkey => hnone c hc (Prod.mk.inj hkey)
  unfold TenantData.insertCase
  dsimp only
  rw [if_neg (by rw [hstorable]; decide), if_neg (by rw [hforeign]; decide), dif_pos ⟨hids, halerts⟩]
  exact ⟨_, rfl⟩

/-- A link of the alert to its own case is inserted, or there already. -/
theorem insertLink_run {d : TenantData} (now : DateTime) {caseId : Uuid}
    (hlinks : LinksBelong d) (htext : nulFree tenantId = true)
    (hcase : d.CaseOf tenantId alertId caseId) :
    ∃ data, d.insertLink now caseId alertId tenantId = .ok ((), data) ∧
      data.Linked tenantId alertId caseId := by
  obtain ⟨c, hc, hid, htenant, halert⟩ := hcase
  have hexists : d.cases.any (fun c => c.id = caseId) = true :=
    List.any_eq_true.mpr ⟨c, hc, decide_eq_true hid⟩
  unfold TenantData.insertLink
  dsimp only
  rw [if_neg (by rw [htext]; decide)]
  by_cases hany : (d.links.any fun l => l.caseId = caseId && l.alertId = alertId) = true
  · rw [if_pos hany]
    obtain ⟨l, hl, hmatch⟩ := List.any_eq_true.mp hany
    simp only [Bool.and_eq_true, decide_eq_true_eq] at hmatch
    obtain ⟨c', hc', hid', htenant', -⟩ := hlinks l hl
    -- the link is that of the case, and so of its tenant
    have hsame : c' = c := List.inj_on_of_nodup_map d.cases_id hc' hc (by rw [hid', hmatch.1, hid])
    refine ⟨d, rfl, l, hl, hmatch.1, ?_, hmatch.2⟩
    rw [← htenant', hsame, htenant]
  · have hfree : ∀ l ∈ d.links, ¬ (l.tenantId = tenantId ∧ l.alertId = alertId) := by
      rintro l hl ⟨hltenant, hlalert⟩
      have hown := hlinks l hl
      rw [hltenant, hlalert] at hown
      have hcaseId := CaseOf.unique hown ⟨c, hc, hid, htenant, halert⟩
      refine hany (List.any_eq_true.mpr ⟨l, hl, ?_⟩)
      rw [hcaseId, hlalert]
      simp
    have hnone : ∀ l ∈ d.links, ¬ (l.caseId = caseId ∧ l.alertId = alertId) := by
      rintro l hl ⟨hlcase, hlalert⟩
      refine hany (List.any_eq_true.mpr ⟨l, hl, ?_⟩)
      rw [hlcase, hlalert]
      simp
    have hfree : ∀ l ∈ d.links, ¬ (l.tenantId = tenantId ∧ l.alertId = alertId) := by
      rintro l hl ⟨hltenant, hlalert⟩
      have hown := hlinks l hl
      rw [hltenant, hlalert] at hown
      exact hnone l hl ⟨CaseOf.unique hown ⟨c, hc, hid, htenant, halert⟩, hlalert⟩
    have hkeys : ((d.links ++ [CaseAlertLink.mk caseId alertId tenantId (DateTime.stored now)]).map
        fun l => (l.caseId, l.alertId)).Nodup :=
      KeyedList.nodup_concat d.links_key fun l hl hkey => hnone l hl (Prod.mk.inj hkey)
    have halerts : ((d.links ++ [CaseAlertLink.mk caseId alertId tenantId (DateTime.stored now)]).map
        fun l => (l.tenantId, l.alertId)).Nodup :=
      KeyedList.nodup_concat d.links_alert fun l hl hkey => hfree l hl (Prod.mk.inj hkey)
    rw [if_neg hany, if_neg (by rw [hexists]; decide), dif_pos ⟨hkeys, halerts⟩]
    exact ⟨_, rfl, ⟨caseId, alertId, tenantId, DateTime.stored now⟩,
      List.mem_append_right _ (List.mem_singleton_self _), rfl, rfl, rfl⟩

theorem mem_listPlaybooks {d : TenantData} {p : CasePlaybook} (h : p ∈ d.listPlaybooks tenantId) :
    p ∈ d.playbooks := by
  unfold TenantData.listPlaybooks at h
  rw [List.mem_insertionSort] at h
  exact (List.mem_filter.mp h).1

/-- The case that a call inserts is one of its alert. -/
theorem insertCase_caseOf {record stored : CaseRecord} {d data : TenantData}
    (hc : OpeningCommand alert new (.data (.insertCase record))) (htenant : alert.tenantId = tenantId)
    (halert : alert.id = alertId) (hrun : d.insertCase record = .ok (stored, data)) :
    data.CaseOf tenantId alertId record.id := by
  obtain ⟨id, playbook, now, slaDueAt, escalationAt, hrecord⟩ := hc
  obtain ⟨-, -, -, rfl⟩ := TenantData.insertCase_ok hrun
  refine ⟨record.stored, List.mem_append_right _ (List.mem_singleton_self _), rfl, ?_, ?_⟩
  · rw [hrecord]
    exact htenant
  · rw [hrecord]
    exact halert

/-- The reply to a command that does not fail tells of the facts. -/
theorem opening_reply (hc : OpeningCommand alert new c) (htenant : alert.tenantId = tenantId)
    (halert : alert.id = alertId) (hlinks : LinksBelong b.data)
    (hfault : tick.fault = none) (hok : c.opensOnce tick b.data = true) :
    OpeningReply (b.data.caseFacts tenantId alertId) c (execBackend tick c b).1
      ((execBackend tick c b).2.data.caseFacts tenantId alertId) := by
  refine ⟨caseFacts_exec hc, ?_⟩
  cases c with
  | getAlert _ _ => exact hc.elim
  | db c =>
      cases c with
      | now => exact isSome_addMinutes (of_decide_eq_true hok)
      | newV4 => trivial
      | _ => exact hc.elim
  | data c =>
      cases c with
      | getCaseByAlertId tenantId' alertId' =>
          obtain ⟨rfl, rfl⟩ : tenantId' = alert.tenantId ∧ alertId' = alert.id := hc
          obtain rfl := htenant
          obtain rfl := halert
          rw [execBackend_ok hfault rfl]
          refine ⟨_, rfl, fun record hrecord => ⟨getCaseByAlertId_caseOf hlinks hrecord, ?_⟩⟩
          exact of_decide_eq_true hok record hrecord
      | countPlaybooks tenantId' =>
          rw [execBackend_ok hfault rfl]
          exact ⟨_, rfl⟩
      | listPlaybooks tenantId' =>
          rw [execBackend_ok hfault rfl]
          exact ⟨_, rfl, fun p hp => ⟨p, mem_listPlaybooks hp, rfl⟩⟩
      | getCasePlaybook tenantId' id =>
          rw [execBackend_ok hfault rfl]
          exact ⟨_, rfl, fun p hp => ⟨p, KeyedList.mem_of_lookup hp, rfl⟩⟩
      | insertPlaybook playbook =>
          simp only [BackendCmd.opensOnce, Bool.and_eq_true, decide_eq_true_eq] at hok
          have hids : ((b.data.playbooks ++ [playbook.stored]).map (·.id)).Nodup :=
            KeyedList.nodup_concat b.data.playbooks_id hok.1
          have hrun : ∃ data, (DataCmd.insertPlaybook playbook).run tick.clock tick.uuid b.data =
              .ok ((), data) := by
            unfold DataCmd.run TenantData.insertPlaybook
            dsimp only
            rw [if_neg (by rw [hok.2]; decide), dif_pos hids]
            exact ⟨_, rfl⟩
          obtain ⟨data, hrun⟩ := hrun
          rw [execBackend_ok hfault hrun]
          rfl
      | insertCase record =>
          intro hplaybook
          have hcommand : OpeningCommand alert new (.data (.insertCase record)) := hc
          obtain ⟨data, hrun⟩ := insertCase_run hok hplaybook
          have hexec : (DataCmd.insertCase record).run tick.clock tick.uuid b.data =
              .ok (record.stored, data) := hrun
          rw [execBackend_ok hfault hexec]
          exact ⟨_, rfl, rfl, insertCase_caseOf hcommand htenant halert hrun⟩
      | insertLink caseId alertId' tenantId' =>
          intro hcase
          obtain ⟨rfl, rfl⟩ : alertId' = alert.id ∧ tenantId' = alert.tenantId := hc
          obtain rfl := htenant
          obtain rfl := halert
          obtain ⟨data, hrun, hlinked⟩ := insertLink_run tick.clock hlinks hok hcase
          have hexec : (DataCmd.insertLink caseId alert.id alert.tenantId).run tick.clock tick.uuid b.data =
              .ok ((), data) := hrun
          rw [execBackend_ok hfault hexec]
          exact ⟨rfl, hlinked⟩
      | insertCaseEvent event => trivial
      | _ => exact hc.elim

/-- A case that is inserted is the one of the alert. -/
theorem insertReply_exec (hc : OpeningCommand alert new c) (htenant : alert.tenantId = tenantId)
    (halert : alert.id = alertId) :
    InsertReply ((execBackend tick c b).2.data.caseFacts tenantId alertId) c
      (execBackend tick c b).1 := by
  cases c with
  | data c =>
      cases c with
      | insertCase record =>
          rcases execBackend_cases tick b (.insertCase record) with
            ⟨e, hexec⟩ | ⟨reply, data, -, hrun, hexec⟩
          · rw [hexec]
            intro stored hstored
            cases hstored
          · rw [hexec]
            intro stored _
            exact insertCase_caseOf hc htenant halert hrun
      | _ => trivial
  | _ => trivial

/-- A command of a call leaves every link with its case. -/
theorem linksBelong_exec (hc : OpeningCommand alert new c) (hlinks : LinksBelong b.data)
    (hcase : ∀ caseId alertId' tenantId', c = .data (.insertLink caseId alertId' tenantId') →
      b.data.CaseOf alert.tenantId alert.id caseId) :
    LinksBelong (execBackend tick c b).2.data := by
  have hgrow : ∀ tenantId alertId caseId, b.data.CaseOf tenantId alertId caseId →
      (execBackend tick c b).2.data.CaseOf tenantId alertId caseId := by
    intro tenantId alertId caseId h
    have hfacts : b.data.caseFacts tenantId alertId ≤
        (execBackend tick c b).2.data.caseFacts tenantId alertId := caseFacts_exec hc
    exact hfacts.1 h
  rcases execBackend_data tick b c with hsame | ⟨dc, reply, data, rfl, -, hrun, hdata⟩
  · rw [hsame]
    exact hlinks
  · intro l hl
    rw [hdata] at hl
    by_cases htable : dc.table = some .links
    · cases dc with
      | insertLink caseId alertId' tenantId' =>
          rcases TenantData.insertLink_ok hrun with hsame | ⟨_, _, rfl⟩
          · rw [hsame] at hl
            exact hgrow _ _ _ (hlinks l hl)
          · have hmem : l ∈ b.data.links ++ [⟨caseId, alertId', tenantId', DateTime.stored tick.clock⟩] := hl
            rcases List.mem_append.mp hmem with hold | hnew
            · exact hgrow _ _ _ (hlinks l hold)
            · obtain ⟨rfl, rfl⟩ : alertId' = alert.id ∧ tenantId' = alert.tenantId := hc
              obtain rfl := List.mem_singleton.mp hnew
              exact hgrow alert.tenantId alert.id caseId (hcase _ _ _ rfl)
      | _ => cases htable
    · have hsame : data.links = b.data.links := DataCmd.run_frame hrun (t := .links) htable
      rw [hsame] at hl
      exact hgrow _ _ _ (hlinks l hl)

end commands

/-! ### Runs -/

section runs

variable {ι : Type} [DecidableEq ι] {tenantId : String} {alertId : Uuid} {calls : ι → CreateCall}

/-- The calls link their own cases, and every link is that of a case and its alert. -/
structure Opening (tenantId : String) (alertId : Uuid) (calls : ι → CreateCall) (s : CreatePool ι) :
    Prop where
  calls_own : ∀ i, (s.progs i).Ensures InsertReply (LinksOwn (calls i).alert (calls i).new)
    (s.store.data.caseFacts tenantId alertId)
  links : LinksBelong s.store.data

/-- The calls are for the alert. -/
def ForAlert (tenantId : String) (alertId : Uuid) (calls : ι → CreateCall) : Prop :=
  ∀ i, (calls i).alert.tenantId = tenantId ∧ (calls i).alert.id = alertId

theorem Opening.grows {s : CreatePool ι} (h : Opening tenantId alertId calls s) (e : ι × Tick) :
    s.store.data.caseFacts tenantId alertId ≤
      (Pool.step execBackend s e).store.data.caseFacts tenantId alertId := by
  cases hnext : (s.progs e.1).next with
  | none => rw [Pool.step_finished hnext]
  | some c =>
      rw [Pool.step_store hnext]
      exact caseFacts_exec ((h.calls_own e.1).of_next hnext).1

theorem Opening.step (hcalls : ForAlert tenantId alertId calls) {s : CreatePool ι}
    (h : Opening tenantId alertId calls s) (e : ι × Tick) :
    Opening tenantId alertId calls (Pool.step execBackend s e) := by
  have hgrows := h.grows e
  cases hnext : (s.progs e.1).next with
  | none =>
      rw [Pool.step_finished hnext]
      exact h
  | some c =>
      obtain ⟨hopening, hown⟩ := (h.calls_own e.1).of_next hnext
      obtain ⟨htenant, halert⟩ := hcalls e.1
      refine ⟨fun i => ?_, ?_⟩
      · have hlater := (h.calls_own i).mono hgrows
        by_cases hi : i = e.1
        · subst hi
          rw [Pool.step_progs_self]
          refine hlater.step_next fun c' hc' => ?_
          rw [Pool.step_store hc']
          exact insertReply_exec ((h.calls_own e.1).of_next hc').1 htenant halert
        · rw [Pool.step_progs_of_ne hi]
          exact hlater
      · rw [Pool.step_store hnext]
        refine linksBelong_exec hopening h.links fun caseId alertId' tenantId' hlink => ?_
        rw [htenant, halert]
        exact hown caseId alertId' tenantId' hlink

/-- **Opening a case once.** -/
theorem case_opened_once (hcalls : ForAlert tenantId alertId calls) {b : Backend}
    (hlinks : LinksBelong b.data) {schedule : List (ι × Tick)}
    (hsteps : Pool.Meets execBackend OpensOnce schedule (createPool calls b)) :
    ∀ front, front <+: schedule → ∀ i, (∀ e ∈ front, e.1 = i → e.2.fault = none) →
      ((Pool.run execBackend front (createPool calls b)).progs i).next = none →
      ReturnsCase tenantId alertId (Pool.run execBackend front (createPool calls b)) i := by
  rintro front ⟨back, rfl⟩ i hfair hended
  have hyields := Pool.yields_run (R := OpeningReply) (Q := Opened) (J := Opening tenantId alertId calls)
    (i := i) (fun b => b.data.caseFacts tenantId alertId) (fun tick => tick.fault = none)
    (fun w w' result hle h => opened_mono hle h) (fun s e h _ => h.step hcalls e)
    (fun s e h _ => h.grows e)
    (fun s e h hok _ hfault c hc => opening_reply ((h.calls_own e.1).of_next hc).1 (hcalls e.1).1
      (hcalls e.1).2 h.links hfault (hok hfault c hc))
    ⟨fun j => createCaseFromAlert_links (calls j).playbookId, hlinks⟩
    ((Pool.meets_append front back).mp hsteps).1 hfair (createCaseFromAlert_yields (calls i).playbookId)
  cases hprog : (Pool.run execBackend front (createPool calls b)).progs i with
  | call c k =>
      rw [hprog] at hended
      cases hended
  | ret result =>
      rw [hprog] at hyields
      obtain ⟨record, rfl, hopened, hlinked⟩ := hyields
      refine ⟨record, hprog, fun caseId => ⟨fun hcase => CaseOf.unique hcase hopened, ?_⟩, hlinked⟩
      rintro rfl
      exact hopened

end runs

/-! ### Two calls for one alert -/

/-- The worker's call, twice. -/
def twoCalls (_ : Bool) : CreateCall := ⟨severeAlert "a1", {}, none⟩

/-- One call after the other. -/
def callAfterCall : List (Bool × Tick) :=
  List.replicate 17 (true, firstTick) ++ [(false, secondTick)]

/-- Both calls look for a case before either inserts one. -/
def callWithinCall : List (Bool × Tick) :=
  (false, secondTick) :: (List.replicate 17 (true, firstTick) ++ List.replicate 16 (false, secondTick))

theorem twoCalls_forAlert : ForAlert "t1" "a1" twoCalls := fun _ => ⟨rfl, rfl⟩

theorem emptyBackend_links : LinksBelong emptyBackend.data := by
  intro l hl
  cases hl

theorem callAfterCall_returns :
    ReturnsCase "t1" "a1" (Pool.run execBackend callAfterCall (createPool twoCalls emptyBackend))
      false := by
  have hsteps : Pool.Meets execBackend OpensOnce callAfterCall (createPool twoCalls emptyBackend) := by
    decide +kernel
  have hfair : ∀ e ∈ callAfterCall, e.1 = false → e.2.fault = none := by decide +kernel
  have hended : ((Pool.run execBackend callAfterCall
      (createPool twoCalls emptyBackend)).progs false).next = none := by decide +kernel
  exact case_opened_once twoCalls_forAlert emptyBackend_links hsteps callAfterCall List.prefix_rfl false
    hfair hended

/-- The second `INSERT` violates the constraint, and its call fails. -/
theorem callWithinCall_fails :
    ¬ ∀ (tenantId : String) (alertId : Uuid) (calls : Bool → CreateCall) (b : Backend)
      (schedule : List (Bool × Tick)), ForAlert tenantId alertId calls → LinksBelong b.data →
      ∀ i, (∀ e ∈ schedule, e.1 = i → e.2.fault = none) →
        ((Pool.run execBackend schedule (createPool calls b)).progs i).next = none →
        ReturnsCase tenantId alertId (Pool.run execBackend schedule (createPool calls b)) i := by
  intro h
  have hfair : ∀ e ∈ callWithinCall, e.1 = false → e.2.fault = none := by decide +kernel
  have hended : ((Pool.run execBackend callWithinCall
      (createPool twoCalls emptyBackend)).progs false).next = none := by decide +kernel
  have hfailed : ¬ ((Pool.run execBackend callWithinCall (createPool twoCalls emptyBackend)).progs
      false).Returned fun result => result.isOk = true := by decide +kernel
  obtain ⟨record, hprog, -⟩ := h "t1" "a1" twoCalls emptyBackend callWithinCall twoCalls_forAlert
    emptyBackend_links false hfair hended
  rw [hprog] at hfailed
  exact hfailed rfl

end MiniSiem

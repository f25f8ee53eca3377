import MiniSiem.AlertFlush

/-! # Repeated deliveries of alerts

The alert topic is consumed with auto-commit, so an alert can be delivered again, in the same
buffer or in a later one.  A run is a sequence of flushes and of updates that close or reopen
rows; it is compared with the run without the repeats.

* **Stopping.**  A flush ends at the first tenant whose insert is refused
  (`flushTenants_append_of_stops`).
* **Harmless flushes.**  `HarmlessFlush`: with and without the repeats the flush works through the
  same parts and then stops.  `harmless_of_noRepeat` and `harmless_of_refused` are its two ways.
* **Runs.**  `redelivered_eq_once`: a run of harmless flushes ends in the table of the run without
  the repeats.  `repeatWhileOpen_counts_twice`: a repeat that finds its row open is counted twice. -/

namespace MiniSiem

/-! ### Runs -/

/-- A delivered alert; `again` marks a repeated delivery. -/
structure Delivery where
  alert : Alert
  again : Bool

/-- A flush of a buffer, or an update of a row that somebody else makes. -/
inductive BatcherStep
  | flush (env : BatchEnv) (buffer : List Delivery)
  | update (alert : Alert)

/-- The alerts of a buffer, with or without the repeats. -/
def deliveredAlerts (withRepeats : Bool) (buffer : List Delivery) : List Alert :=
  (buffer.filter fun d => withRepeats || !d.again).map (·.alert)

def BatcherStep.exec (withRepeats : Bool) (t : AlertsTable) : BatcherStep → AlertsTable
  | .flush env buffer => (flushBatch env .none t (deliveredAlerts withRepeats buffer)).1.table
  | .update alert => (t.updateAlert false alert).getD t

def runBatcher (withRepeats : Bool) (run : List BatcherStep) (t : AlertsTable) : AlertsTable :=
  run.foldl (BatcherStep.exec withRepeats) t

/-- The deliveries of a run in order. -/
def deliveries (run : List BatcherStep) : List Delivery :=
  run.flatMap fun
    | .flush _ buffer => buffer
    | .update _ => []

/-- Every repeat is one of an alert delivered before. -/
def RepeatsDelivered (run : List BatcherStep) : Prop :=
  ∀ front d back, deliveries run = front ++ d :: back → d.again = true →
    ∃ d' ∈ front, d'.again = false ∧ d'.alert = d.alert

/-! ### Where a flush stops -/

section stops

variable (env : BatchEnv)

/-- After the tenants of `front` the flush ends: none is left, or the next insert is refused. -/
def Stops (t : AlertsTable) (front back : List TenantEntry) : Prop :=
  ∀ g ∈ back.head?, ¬ InsertsOk env .none t (front ++ [g])

theorem flushTenants_append_of_stops {front back : List TenantEntry}
    (hwell : ∀ g ∈ front ++ back, WellKeyed env.fingerprint g.1 g.2)
    (hkeys : (front ++ back).NodupKeys) {t : AlertsTable} (hstops : Stops env t front back) :
    (flushTenants env .none (front ++ back) t).table = (flushTenants env .none front t).table := by
  induction front generalizing t with
  | nil =>
      cases back with
      | nil => rfl
      | cons g back =>
          have hrefused := hstops g rfl
          rw [List.nil_append] at hrefused ⊢
          rw [flushTenants_failed env .none back hrefused]
          rfl
  | cons g front ih =>
      rw [List.cons_append] at hwell hkeys ⊢
      by_cases hins : InsertsOk env .none t [g]
      · obtain ⟨t', hpart, hall⟩ := flushTenants_stored env .none (front ++ back) hins
        obtain ⟨t'', hpart', hfront⟩ := flushTenants_stored env .none front hins
        have hsame : t'' = t' := by
          obtain ⟨rows, hnodup⟩ := t'
          obtain ⟨rows', hnodup'⟩ := t''
          unfold PartRows at hpart hpart'
          obtain rfl : rows' = rows := hpart'.trans hpart.symm
          rfl
        rw [hall, hfront, hsame]
        refine ih (fun g' hg' => hwell g' (List.mem_cons_of_mem _ hg'))
          (List.nodupKeys_of_nodupKeys_cons hkeys) ?_
        intro b hb hok
        refine hstops b hb ?_
        rw [List.cons_append, insertsOk_cons env .none hpart (hwell g List.mem_cons_self)]
        · exact ⟨hins, hok⟩
        · intro g' hg' heq
          have hmem : g' ∈ front ++ back := by
            rcases List.mem_append.mp hg' with hg' | hg'
            · exact List.mem_append_left _ hg'
            · rw [List.mem_singleton.mp hg']
              exact List.mem_append_right _ (List.mem_of_mem_head? hb)
          exact List.notMem_keys_of_nodupKeys_cons hkeys (heq ▸ List.mem_keys_of_mem hmem)
      · rw [flushTenants_failed env .none _ hins, flushTenants_failed env .none _ hins]

/-- With and without its repeats the flush works through the same parts, then it stops. -/
def HarmlessFlush (t : AlertsTable) (buffer : List Delivery) : Prop :=
  ∃ front back back', visitedTenants env (deliveredAlerts true buffer) = front ++ back ∧
    visitedTenants env (deliveredAlerts false buffer) = front ++ back' ∧
    Stops env t front back ∧ Stops env t front back'

theorem flush_eq_of_harmless {t : AlertsTable} {buffer : List Delivery}
    (h : HarmlessFlush env t buffer) :
    (flushBatch env .none t (deliveredAlerts true buffer)).1.table =
      (flushBatch env .none t (deliveredAlerts false buffer)).1.table := by
  obtain ⟨front, back, back', hall, hfresh, hstops, hstops'⟩ := h
  have hwell := visitedTenants_wellKeyed env
  have hkeys := visitedTenants_nodupKeys env
  rw [flushBatch_outcome, flushBatch_outcome, hall, hfresh,
    flushTenants_append_of_stops env (hall ▸ hwell _) (hall ▸ hkeys _) hstops,
    flushTenants_append_of_stops env (hfresh ▸ hwell _) (hfresh ▸ hkeys _) hstops']

theorem harmless_of_noRepeat (t : AlertsTable) {buffer : List Delivery}
    (h : ∀ d ∈ buffer, d.again = false) : HarmlessFlush env t buffer := by
  have hsame : deliveredAlerts true buffer = deliveredAlerts false buffer := by
    unfold deliveredAlerts
    congr 1
    refine List.filter_congr fun d hd => ?_
    rw [h d hd]
    rfl
  refine ⟨visitedTenants env (deliveredAlerts false buffer), [], [], ?_, ?_, ?_, ?_⟩
  · rw [hsame, List.append_nil]
  · rw [List.append_nil]
  · intro g hg
    cases hg
  · intro g hg
    cases hg

/-- A buffer of repeats only is harmless when the first insert of its flush is refused. -/
theorem harmless_of_refused {t : AlertsTable} {buffer : List Delivery}
    (h : ∀ d ∈ buffer, d.again = true) {g : TenantEntry} {gs : List TenantEntry}
    (hvisited : visitedTenants env (deliveredAlerts true buffer) = g :: gs) {a : Alert}
    (ha : a ∈ newAlerts env .none t g) (hstored : ∃ r ∈ t.rows, r.id = a.id) :
    HarmlessFlush env t buffer := by
  have hnone : deliveredAlerts false buffer = [] := by
    unfold deliveredAlerts
    rw [List.map_eq_nil_iff, List.filter_eq_nil_iff]
    intro d hd
    rw [h d hd]
    decide
  refine ⟨[], g :: gs, [], hvisited, ?_, ?_, ?_⟩
  · rw [hnone, visitedTenants_nil]
    rfl
  · intro g' hg' hok
    obtain rfl : g = g' := Option.some.inj hg'
    obtain ⟨r, hr, hid⟩ := hstored
    exact hok.id_ne env .none (List.mem_singleton_self g) ha hr hid
  · intro g' hg'
    cases hg'

end stops

/-! ### Whole runs -/

/-- Every flush of the run is harmless in the state before it. -/
def HarmlessRun : List BatcherStep → AlertsTable → Prop
  | [], _ => True
  | step :: run, t =>
      (match step with
        | .flush env buffer => HarmlessFlush env t buffer
        | .update _ => True) ∧
      HarmlessRun run (step.exec true t)

/-- **Repeats are harmless** in a run of harmless flushes. -/
theorem redelivered_eq_once {run : List BatcherStep} {t : AlertsTable} (h : HarmlessRun run t) :
    runBatcher true run t = runBatcher false run t := by
  induction run generalizing t with
  | nil => rfl
  | cons step run ih =>
      obtain ⟨hstep, hrun⟩ := h
      have hsame : step.exec true t = step.exec false t := by
        cases step with
        | flush env buffer => exact flush_eq_of_harmless env hstep
        | update alert => rfl
      have hrest := ih hrun
      unfold runBatcher at hrest ⊢
      rw [List.foldl_cons, List.foldl_cons, ← hsame]
      exact hrest

/-! ### A repeat after and before its row is closed -/

def failedLogin : Log where
  id := "l1"
  tenantId := "t1"
  timestamp := .ofSeconds 0
  eventType := "login_failed"
  sourceIp := "10.0.0.1"
  targetUser := none
  service := none
  message := ""
  severity := .info
  metadata := .null
  receivedAt := .ofSeconds 0

def loginAlert (status : AlertStatus) : Alert :=
  { Alert.new "a1" (.ofSeconds 0) "t1" "r1" "rule" .low "failed login" "10.0.0.1" [failedLogin] with
    status }

def noAlerts : AlertsTable := ⟨[], List.nodup_nil⟩

def flushOnce : BatcherStep := .flush .plain [⟨loginAlert .new, false⟩]

def flushAgain : BatcherStep := .flush .plain [⟨loginAlert .new, true⟩]

def closeAlert : BatcherStep := .update (loginAlert .resolved)

/-- The repeat of a closed alert is refused. -/
theorem repeatWhenClosed_harmless :
    runBatcher true [flushOnce, closeAlert, flushAgain] noAlerts =
      runBatcher false [flushOnce, closeAlert, flushAgain] noAlerts := by
  refine redelivered_eq_once ⟨harmless_of_noRepeat _ _ ?_, trivial, ?_, trivial⟩
  · intro d hd
    rw [List.mem_singleton.mp hd]
  · refine harmless_of_refused .plain (a := loginAlert .new) ?_ rfl ?_ ?_
    · intro d hd
      rw [List.mem_singleton.mp hd]
    · rw [mem_newAlerts]
      exact ⟨_, List.mem_cons_self, by decide⟩
    · exact ⟨_, List.mem_cons_self, rfl⟩

/-- The repeat of an open alert is counted twice. -/
theorem repeatWhileOpen_counts_twice :
    ¬ ∀ (run : List BatcherStep) (t : AlertsTable), RepeatsDelivered run →
      runBatcher true run t = runBatcher false run t := by
  intro h
  have hrepeats : RepeatsDelivered [flushOnce, flushAgain] := by
    intro front d back hd hagain
    have hlist : deliveries [flushOnce, flushAgain] =
        [⟨loginAlert .new, false⟩, ⟨loginAlert .new, true⟩] := rfl
    rw [hlist] at hd
    cases front with
    | nil =>
        obtain ⟨rfl, -⟩ := List.cons.inj hd
        cases hagain
    | cons d' front =>
        obtain ⟨rfl, htail⟩ := List.cons.inj hd
        refine ⟨_, List.mem_cons_self, rfl, ?_⟩
        cases front with
        | nil =>
            obtain ⟨rfl, -⟩ := List.cons.inj htail
            rfl
        | cons d'' front => cases front <;> cases htail
  have hcounts := congrArg (fun t => t.rows.map (·.eventsCount))
    (h [flushOnce, flushAgain] noAlerts hrepeats)
  exact absurd hcounts (by decide)

end MiniSiem

import MiniSiem.Json
import MiniSiem.Lib.Outcomes
import MiniSiem.RedisCounters
import MiniSiem.ReliabilityStatus

/-! # The samples of the reliability objectives

`reliability.rs` keeps three lists of samples in Redis.  The detection engine, the alert worker and the
sampler push to them and trim them, the overview reads them, and nobody waits for anybody: `lpush_trim` is
three commands (`db/redis.rs`), between which others may push.

* **Commands.**  Each of them is atomic.  A `SampleTick` says when it is executed and whether it fails, which
  may be after it has had its effect.
* **Windows.**  After every run a list consists of the newest samples, a window of them at least, and of no
  more beyond the window than have been pushed since the last trim (`samples_newest`).
* **Overviews.**  The status that an overview reports is that of the lists that it has read itself
  (`overview_status`). -/

namespace MiniSiem

open Atomic

/-! ### The store -/

/-- A list of Redis, its head first, and when it expires. -/
structure RedisList where
  items : List String
  expireAt : Option ℤ

structure SampleStore where
  lists : String → Option RedisList

namespace SampleStore

variable (s : SampleStore) (now : DateTime) (key : String)

def put (list : Option RedisList) : SampleStore := ⟨Function.update s.lists key list⟩

/-- The list of a key, unless it has expired. -/
def live : Option RedisList :=
  (s.lists key).filter fun l => match l.expireAt with
    | some deadline => now.millis ≤ deadline
    | none => true

/-- `LPUSH`. -/
def lpush (value : String) : SampleStore :=
  s.put key (some (match s.live now key with
    | some l => { l with items := value :: l.items }
    | none => ⟨[value], none⟩))

/-- `LTRIM` from the head to a position. -/
def ltrim (stop : ℕ) : SampleStore :=
  s.put key ((s.live now key).map fun l => { l with items := l.items.take (stop + 1) })

/-- `EXPIRE`. -/
def expire (seconds : UInt64) : SampleStore :=
  s.put key (if seconds = 0 then none
    else (s.live now key).map fun l => { l with expireAt := some (now.millis + seconds.toNat * 1000) })

/-- `LRANGE` of the whole list. -/
def lrange : List String :=
  match s.live now key with
  | some l => l.items
  | none => []

/-- What is stored under a key, expired or not. -/
def stored : List String :=
  match s.lists key with
  | some l => l.items
  | none => []

end SampleStore

/-- The services that the availability check asks. -/
inductive Probe
  | postgres
  | redis
  | kafka
  | elasticsearch

structure ReliabilityReportRecord where
  id : Uuid
  tenantId : String
  reportType : String
  drillName : String
  status : String
  startedAt : DateTime
  completedAt : DateTime
  durationMs : ℤ
  summaryJson : Json
  createdAt : DateTime

inductive SampleCmd
  | lpush (key value : String)
  | ltrim (key : String) (stop : ℕ)
  | expire (key : String) (seconds : UInt64)
  | lrange (key : String)
  | probe (service : Probe)
  | listReliabilityReports (tenantId : String) (limit : ℕ)

abbrev SampleCmd.Reply : SampleCmd → Type
  | lpush _ _ | ltrim _ _ | expire _ _ => Except String Unit
  | lrange _ => Except String (List String)
  | probe _ => Bool
  | listReliabilityReports _ _ => Except String (List ReliabilityReportRecord)

/-- What happens outside the code at a command. -/
structure SampleTick where
  clock : DateTime
  fault : Option String := none
  /-- A command that fails has had its effect. -/
  applied : Bool := false
  up : Probe → Bool := fun _ => true
  reports : List ReliabilityReportRecord := []

/-- The command has its effect. -/
def SampleTick.effective (tick : SampleTick) : Bool := tick.fault.isNone || tick.applied

def SampleTick.attempt {β : Type} (tick : SampleTick) (s : SampleStore) (reply : β) (after : SampleStore) :
    Except String β × SampleStore :=
  (match tick.fault with
    | some e => .error e
    | none => .ok reply,
    if tick.effective then after else s)

def execSample (tick : SampleTick) : (c : SampleCmd) → SampleStore → c.Reply × SampleStore
  | .lpush key value, s => tick.attempt s () (s.lpush tick.clock key value)
  | .ltrim key stop, s => tick.attempt s () (s.ltrim tick.clock key stop)
  | .expire key seconds, s => tick.attempt s () (s.expire tick.clock key seconds)
  | .lrange key, s => tick.attempt s (s.lrange tick.clock key) s
  | .probe service, s => (tick.up service, s)
  | .listReliabilityReports _ _, s => tick.attempt s tick.reports s

/-- What a command does to the store. -/
def SampleCmd.effect (now : DateTime) (s : SampleStore) : SampleCmd → SampleStore
  | lpush key value => s.lpush now key value
  | ltrim key stop => s.ltrim now key stop
  | expire key seconds => s.expire now key seconds
  | lrange _ | probe _ | listReliabilityReports _ _ => s

theorem execSample_store (tick : SampleTick) (c : SampleCmd) (s : SampleStore) :
    (execSample tick c s).2 = if tick.effective then c.effect tick.clock s else s := by
  cases c with
  | lpush key value => rfl
  | ltrim key stop => rfl
  | expire key seconds => rfl
  | lrange key => rfl
  | probe service => exact (ite_self s).symm
  | listReliabilityReports tenantId limit => rfl

abbrev SampleProg (α : Type) := Prog SampleCmd SampleCmd.Reply α

/-! ### The programs -/

def ingestAvailabilityKey : String := "siem:reliability:ingest_availability_samples"

def detectionLatencyKey : String := "siem:reliability:detection_latency_ms_samples"

def alertDeliveryLatencyKey : String := "siem:reliability:alert_delivery_latency_ms_samples"

def defaultSampleWindow : ℕ := 512

def defaultAvailabilityWindow : ℕ := 10080

/-- `lpush_trim`. -/
def lpushTrim (key value : String) (maxLen : ℕ) (expirySeconds : Option UInt64) :
    SampleProg (Except String Unit) :=
  .call (.lpush key value) fun
    | .error e => .ret (.error e)
    | .ok () => .call (.ltrim key (maxLen - 1)) fun
      | .error e => .ret (.error e)
      | .ok () => match expirySeconds with
        | none => .ret (.ok ())
        | some seconds => .call (.expire key seconds) .ret

section programs

-- `format!("{:.3}")`, and `parse` to a double
variable (formatMs : ℚ → String) (parse : String → Option ℚ)

/-- `record_latency_sample`. -/
def recordLatencySample (key : String) (latencyMs : ℚ) : SampleProg (Except String Unit) :=
  lpushTrim key (formatMs latencyMs) defaultSampleWindow (some (7 * 24 * 60 * 60))

def recordDetectionLatency (latencyMs : ℚ) : SampleProg (Except String Unit) :=
  recordLatencySample formatMs detectionLatencyKey latencyMs

def recordAlertDeliveryLatency (latencyMs : ℚ) : SampleProg (Except String Unit) :=
  recordLatencySample formatMs alertDeliveryLatencyKey latencyMs

/-- The end of `record_ingest_availability_sample`. -/
def recordAvailable (available : Bool) : SampleProg (Except String Unit) :=
  lpushTrim ingestAvailabilityKey (if available then "1" else "0") defaultAvailabilityWindow
    (some (8 * 24 * 60 * 60))

/-- `record_ingest_availability_sample`: a missing Elasticsearch client counts as a failed probe, and the
first of the other services that is down ends the check. -/
def recordIngestAvailabilitySample : SampleProg (Except String Unit) :=
  .call (.probe .elasticsearch) fun (elasticOk : Bool) =>
    .call (.probe .postgres) fun (postgresOk : Bool) =>
      if postgresOk then
        .call (.probe .redis) fun (redisOk : Bool) =>
          if redisOk then .call (.probe .kafka) fun (kafkaOk : Bool) => recordAvailable (kafkaOk && elasticOk)
          else recordAvailable false
      else recordAvailable false

/-- `read_samples`: no samples if the command fails. -/
def readSamples (key : String) : SampleProg (List ℚ) :=
  .call (.lrange key) fun
    | .ok values => .ret (values.filterMap parse)
    | .error _ => .ret []

structure ReliabilityOverview where
  tenantId : String
  snapshot : ReliabilitySloSnapshot
  recentReports : List ReliabilityReportRecord

/-- `build_reliability_overview`. -/
def buildReliabilityOverview (tenantId : String) : SampleProg (Except String ReliabilityOverview) :=
  (readSamples parse ingestAvailabilityKey).bind fun ingest =>
  (readSamples parse detectionLatencyKey).bind fun detection =>
  (readSamples parse alertDeliveryLatencyKey).bind fun alertDelivery =>
  .call (.listReliabilityReports tenantId 12) fun
    | .error e => .ret (.error e)
    | .ok reports => .ret (.ok ⟨tenantId, sloSnapshot ingest detection alertDelivery, reports⟩)

inductive SampleCall
  | detectionLatency (latencyMs : ℚ)
  | alertDeliveryLatency (latencyMs : ℚ)
  | ingestAvailability
  | overview (tenantId : String)

inductive SampleAnswer
  | recorded (result : Except String Unit)
  | overview (result : Except String ReliabilityOverview)

def SampleCall.prog : SampleCall → SampleProg SampleAnswer
  | detectionLatency latencyMs => (recordDetectionLatency formatMs latencyMs).bind fun r => .ret (.recorded r)
  | alertDeliveryLatency latencyMs =>
      (recordAlertDeliveryLatency formatMs latencyMs).bind fun r => .ret (.recorded r)
  | ingestAvailability => recordIngestAvailabilitySample.bind fun r => .ret (.recorded r)
  | overview tenantId => (buildReliabilityOverview parse tenantId).bind fun r => .ret (.overview r)

abbrev SamplePool (ι : Type) := Pool ι SampleCmd SampleCmd.Reply SampleAnswer SampleStore

/-- Any number of calls, none of them started, and no samples. -/
def samplePool {ι : Type} (calls : ι → SampleCall) : SamplePool ι where
  progs i := (calls i).prog formatMs parse
  store := ⟨fun _ => none⟩

end programs

/-! ### The newest samples -/

/-- The items are the newest of what was pushed, a window of them at least, and no more beyond it than were
pushed since the last trim. -/
structure Newest {α : Type} (window : ℕ) (pushed items : List α) (untrimmed : ℕ) : Prop where
  newest : items <+: pushed
  full : min window pushed.length ≤ items.length
  extra : items.length ≤ window + untrimmed

section newest

variable {α : Type} {window untrimmed : ℕ} {pushed items : List α}

theorem newest_nil (window untrimmed : ℕ) : Newest window ([] : List α) [] untrimmed where
  newest := List.prefix_refl []
  full := by simp
  extra := by simp

theorem Newest.push (h : Newest window pushed items untrimmed) (a : α) :
    Newest window (a :: pushed) (a :: items) (untrimmed + 1) where
  newest := List.cons_prefix_cons.mpr ⟨rfl, h.newest⟩
  full := by
    have hfull := h.full
    simp only [List.length_cons]
    omega
  extra := by
    have hextra := h.extra
    simp only [List.length_cons]
    omega

theorem Newest.trim (h : Newest window pushed items untrimmed) :
    Newest window pushed (items.take window) 0 where
  newest := (List.take_prefix window items).trans h.newest
  full := by
    have hfull := h.full
    simp only [List.length_take]
    omega
  extra := by simp

end newest

/-! ### What is pushed -/

/-- How many samples of a key are kept. -/
def sampleWindow (key : String) : ℕ :=
  if key = ingestAvailabilityKey then defaultAvailabilityWindow else defaultSampleWindow

/-- The samples pushed to a key since it last expired, the newest first, and how many of them since the last
trim. -/
structure SampleRecord where
  pushed : List String
  untrimmed : ℕ

namespace SampleRecord

/-- The record when a command on the key arrives. -/
def current (r : SampleRecord) (s : SampleStore) (now : DateTime) (key : String) : SampleRecord :=
  if (s.live now key).isSome then r else ⟨[], 0⟩

/-- The record after a command that has its effect. -/
def after (key : String) (now : DateTime) (s : SampleStore) (r : SampleRecord) : SampleCmd → SampleRecord
  | .lpush k value =>
      if k = key then ⟨value :: (r.current s now key).pushed, (r.current s now key).untrimmed + 1⟩ else r
  | .ltrim k _ => if k = key then ⟨(r.current s now key).pushed, 0⟩ else r
  | .expire k _ => if k = key then r.current s now key else r
  | _ => r

section after

variable (key : String) (now : DateTime) (s : SampleStore) (r : SampleRecord)

@[simp] theorem after_lpush (value : String) : r.after key now s (.lpush key value) =
    ⟨value :: (r.current s now key).pushed, (r.current s now key).untrimmed + 1⟩ := if_pos rfl

@[simp] theorem after_ltrim (stop : ℕ) :
    r.after key now s (.ltrim key stop) = ⟨(r.current s now key).pushed, 0⟩ := if_pos rfl

@[simp] theorem after_expire (seconds : UInt64) :
    r.after key now s (.expire key seconds) = r.current s now key := if_pos rfl

end after

/-- The record after a step of a pool. -/
def next {ι : Type} (key : String) (s : SamplePool ι) (e : ι × SampleTick) (r : SampleRecord) :
    SampleRecord :=
  match (s.progs e.1).next with
  | some c => if e.2.effective then r.after key e.2.clock s.store c else r
  | none => r

end SampleRecord

section record

variable {ι : Type} [DecidableEq ι]

/-- The record after a schedule. -/
def recordOf (key : String) : List (ι × SampleTick) → SamplePool ι → SampleRecord → SampleRecord
  | [], _, r => r
  | e :: es, s, r => recordOf key es (Pool.step execSample s e) (r.next key s e)

end record

/-! ### Windows -/

/-- A trim keeps the window of its key, and no key is deleted. -/
def SampleCmd.Windowed : SampleCmd → Prop
  | ltrim key stop => stop + 1 = sampleWindow key
  | expire _ seconds => seconds ≠ 0
  | _ => True

abbrev Windowed {α : Type} (p : SampleProg α) : Prop :=
  p.Ensures (fun (_ : Unit) _ _ => True) (fun _ c => c.Windowed) ()

theorem windowed_lpushTrim (key value : String) {maxLen : ℕ} {seconds : UInt64} (hpos : 0 < maxLen)
    (hwindow : sampleWindow key = maxLen) (hseconds : seconds ≠ 0) :
    Windowed (lpushTrim key value maxLen (some seconds)) := by
  have htrim : maxLen - 1 + 1 = sampleWindow key := by omega
  intro _ _
  refine ⟨trivial, fun r _ => ?_⟩
  cases r with
  | error e => trivial
  | ok u =>
      intro _ _
      refine ⟨htrim, fun r _ => ?_⟩
      cases r with
      | error e => trivial
      | ok u => exact fun _ _ => ⟨hseconds, fun _ _ => trivial⟩

theorem windowed_readSamples (parse : String → Option ℚ) (key : String) :
    Windowed (readSamples parse key) := by
  intro _ _
  refine ⟨trivial, fun r _ => ?_⟩
  cases r <;> trivial

theorem windowed_recordAvailable (available : Bool) : Windowed (recordAvailable available) :=
  windowed_lpushTrim _ _ (by decide) (by decide) (by decide)

theorem windowed_recordIngestAvailabilitySample : Windowed recordIngestAvailabilitySample := by
  refine fun _ _ => ⟨trivial, fun elasticOk _ => ?_⟩
  refine fun _ _ => ⟨trivial, fun postgresOk _ => ?_⟩
  dsimp only
  split_ifs
  · refine fun _ _ => ⟨trivial, fun redisOk _ => ?_⟩
    dsimp only
    split_ifs
    · exact fun _ _ => ⟨trivial, fun kafkaOk _ => windowed_recordAvailable _⟩
    · exact windowed_recordAvailable _
  · exact windowed_recordAvailable _

theorem windowed_buildReliabilityOverview (parse : String → Option ℚ) (tenantId : String) :
    Windowed (buildReliabilityOverview parse tenantId) := by
  refine (windowed_readSamples parse _).bind fun _ _ ingest => ?_
  refine (windowed_readSamples parse _).bind fun _ _ detection => ?_
  refine (windowed_readSamples parse _).bind fun _ _ alertDelivery => ?_
  refine fun _ _ => ⟨trivial, fun r _ => ?_⟩
  cases r <;> trivial

theorem windowed_prog (formatMs : ℚ → String) (parse : String → Option ℚ) (call : SampleCall) :
    Windowed (call.prog formatMs parse) := by
  cases call with
  | detectionLatency ms =>
      exact (windowed_lpushTrim _ _ (by decide) (by decide) (by decide)).bind fun _ _ _ => trivial
  | alertDeliveryLatency ms =>
      exact (windowed_lpushTrim _ _ (by decide) (by decide) (by decide)).bind fun _ _ _ => trivial
  | ingestAvailability => exact windowed_recordIngestAvailabilitySample.bind fun _ _ _ => trivial
  | overview tenantId => exact (windowed_buildReliabilityOverview parse tenantId).bind fun _ _ _ => trivial

/-- What is stored under the key are the newest samples of the record, and a key without any is absent. -/
structure StoresNewest (key : String) (s : SampleStore) (r : SampleRecord) : Prop where
  newest : Newest (sampleWindow key) r.pushed (s.stored key) r.untrimmed
  nonempty : ∀ l, s.lists key = some l → l.items ≠ []

namespace SampleStore

variable {s : SampleStore} {now : DateTime} {key : String}

theorem lists_of_live {l : RedisList} (h : s.live now key = some l) : s.lists key = some l :=
  (Option.filter_eq_some_iff.mp h).1

theorem stored_of_lists {l : RedisList} (h : s.lists key = some l) : s.stored key = l.items := by
  simp [stored, h]

@[simp] theorem lists_put_self (list : Option RedisList) : (s.put key list).lists key = list :=
  Function.update_self ..

theorem lists_put_of_ne {k : String} (hk : key ≠ k) (list : Option RedisList) :
    (s.put k list).lists key = s.lists key := Function.update_of_ne hk ..

end SampleStore

namespace StoresNewest

variable {key : String} {s : SampleStore} {r : SampleRecord} {now : DateTime}

theorem put {l : RedisList} (h : Newest (sampleWindow key) r.pushed l.items r.untrimmed)
    (hne : l.items ≠ []) : StoresNewest key (s.put key (some l)) r where
  newest := by
    rw [SampleStore.stored_of_lists (SampleStore.lists_put_self (some l))]
    exact h
  nonempty := by
    intro l' hl'
    rw [SampleStore.lists_put_self] at hl'
    cases hl'
    exact hne

theorem remove : StoresNewest key (s.put key none) ⟨[], 0⟩ where
  newest := by
    simp only [SampleStore.stored, SampleStore.lists_put_self]
    exact newest_nil _ _
  nonempty := by simp

theorem put_other (h : StoresNewest key s r) {k : String} (hk : ¬ k = key) (list : Option RedisList) :
    StoresNewest key (s.put k list) r := by
  have hsame : (s.put k list).lists key = s.lists key := SampleStore.lists_put_of_ne (Ne.symm hk) list
  constructor
  · simp only [SampleStore.stored, hsame]
    exact h.newest
  · rw [hsame]
    exact h.nonempty

/-- A command on the key finds the newest samples. -/
theorem current_live (h : StoresNewest key s r) {l : RedisList} (hlive : s.live now key = some l) :
    r.current s now key = r ∧ Newest (sampleWindow key) r.pushed l.items r.untrimmed ∧ l.items ≠ [] := by
  have hlists := SampleStore.lists_of_live hlive
  refine ⟨by simp [SampleRecord.current, hlive], ?_, h.nonempty l hlists⟩
  rw [← SampleStore.stored_of_lists hlists]
  exact h.newest

theorem current_expired (hlive : s.live now key = none) : r.current s now key = ⟨[], 0⟩ := by
  simp [SampleRecord.current, hlive]

theorem lpush (h : StoresNewest key s r) (value : String) :
    StoresNewest key (s.lpush now key value) (r.after key now s (.lpush key value)) := by
  rw [SampleRecord.after_lpush]
  unfold SampleStore.lpush
  cases hlive : s.live now key with
  | none =>
      rw [current_expired hlive]
      exact put ((newest_nil _ 0).push value) (by simp)
  | some l =>
      obtain ⟨hcurrent, hnewest, hne⟩ := h.current_live hlive
      rw [hcurrent]
      exact put (hnewest.push value) (by simp)

theorem ltrim (h : StoresNewest key s r) {stop : ℕ} (hstop : stop + 1 = sampleWindow key) :
    StoresNewest key (s.ltrim now key stop) (r.after key now s (.ltrim key stop)) := by
  rw [SampleRecord.after_ltrim]
  unfold SampleStore.ltrim
  cases hlive : s.live now key with
  | none =>
      rw [current_expired hlive]
      exact remove
  | some l =>
      obtain ⟨hcurrent, hnewest, hne⟩ := h.current_live hlive
      rw [hcurrent, hstop]
      refine put hnewest.trim ?_
      simp only [← hstop, ne_eq, List.take_eq_nil_iff, hne, or_false]
      omega

theorem expire (h : StoresNewest key s r) {seconds : UInt64} (hseconds : seconds ≠ 0) :
    StoresNewest key (s.expire now key seconds) (r.after key now s (.expire key seconds)) := by
  rw [SampleRecord.after_expire]
  unfold SampleStore.expire
  rw [if_neg hseconds]
  cases hlive : s.live now key with
  | none =>
      rw [current_expired hlive]
      exact remove
  | some l =>
      obtain ⟨hcurrent, hnewest, hne⟩ := h.current_live hlive
      rw [hcurrent]
      exact put hnewest hne

theorem effect (h : StoresNewest key s r) {c : SampleCmd} (hc : c.Windowed) :
    StoresNewest key (c.effect now s) (r.after key now s c) := by
  cases c with
  | lpush k value =>
      by_cases hk : k = key
      · subst hk
        exact h.lpush value
      · simp only [SampleRecord.after, hk, if_false]
        exact h.put_other hk _
  | ltrim k stop =>
      by_cases hk : k = key
      · subst hk
        exact h.ltrim hc
      · simp only [SampleRecord.after, hk, if_false]
        exact h.put_other hk _
  | expire k seconds =>
      by_cases hk : k = key
      · subst hk
        exact h.expire hc
      · simp only [SampleRecord.after, hk, if_false]
        exact h.put_other hk _
  | lrange k => exact h
  | probe service => exact h
  | listReliabilityReports tenantId limit => exact h

end StoresNewest

section windows

variable {ι : Type} [DecidableEq ι] {key : String} {s : SamplePool ι} {r : SampleRecord}

/-- In such a pool the key stores the newest samples, and so it will after any command the programs issue. -/
structure Sampling (key : String) (s : SamplePool ι) (r : SampleRecord) : Prop where
  windowed : ∀ i, Windowed (s.progs i)
  stores : StoresNewest key s.store r

theorem Sampling.step (h : Sampling key s r) (e : ι × SampleTick) :
    Sampling key (Pool.step execSample s e) (r.next key s e) := by
  refine ⟨fun i => Pool.ensures_step h.windowed e (fun _ => trivial) i, ?_⟩
  cases hnext : (s.progs e.1).next with
  | none =>
      rw [Pool.step_finished hnext]
      simp only [SampleRecord.next, hnext]
      exact h.stores
  | some c =>
      rw [Pool.step_store hnext, execSample_store]
      simp only [SampleRecord.next, hnext]
      split_ifs
      · exact h.stores.effect ((h.windowed e.1).of_next hnext)
      · exact h.stores

theorem Sampling.run (h : Sampling key s r) (es : List (ι × SampleTick)) :
    Sampling key (Pool.run execSample es s) (recordOf key es s r) := by
  induction es generalizing s r with
  | nil => exact h
  | cons e es ih => exact ih (h.step e)

variable (formatMs : ℚ → String) (parse : String → Option ℚ) (calls : ι → SampleCall)
  (schedule : List (ι × SampleTick)) (key)

omit [DecidableEq ι] in
theorem sampling_start : Sampling key (samplePool formatMs parse calls) ⟨[], 0⟩ where
  windowed i := windowed_prog formatMs parse (calls i)
  stores := ⟨newest_nil _ _, by simp [samplePool]⟩

/-- **The newest samples are kept**: whatever the calls, their failures and the order of their commands, a
list consists of the newest samples pushed since the key expired, in their order, a window of them at least,
and no more beyond the window than were pushed since the last trim. -/
theorem samples_newest :
    (Pool.run execSample schedule (samplePool formatMs parse calls)).store.stored key <+:
      (recordOf key schedule (samplePool formatMs parse calls) ⟨[], 0⟩).pushed ∧
    min (sampleWindow key) (recordOf key schedule (samplePool formatMs parse calls) ⟨[], 0⟩).pushed.length ≤
      ((Pool.run execSample schedule (samplePool formatMs parse calls)).store.stored key).length ∧
    ((Pool.run execSample schedule (samplePool formatMs parse calls)).store.stored key).length ≤
      sampleWindow key + (recordOf key schedule (samplePool formatMs parse calls) ⟨[], 0⟩).untrimmed := by
  obtain ⟨hnewest, hwindow, hextra⟩ :=
    ((sampling_start key formatMs parse calls).run schedule).stores.newest
  exact ⟨hnewest, hwindow, hextra⟩

end windows

/-! ### Overviews -/

section record

variable {ι : Type} {key : String}

theorem SampleRecord.next_untrimmed_le (s : SamplePool ι) (e : ι × SampleTick) (r : SampleRecord) :
    (r.next key s e).untrimmed ≤ r.untrimmed + 1 := by
  have hcurrent : (r.current s.store e.2.clock key).untrimmed ≤ r.untrimmed := by
    unfold current
    split_ifs <;> simp
  unfold next
  cases (s.progs e.1).next with
  | none => simp
  | some c =>
      dsimp only
      split_ifs
      · cases c <;> simp only [after] <;> (try split_ifs) <;> simp <;> omega
      · simp

theorem recordOf_untrimmed_le [DecidableEq ι] (es : List (ι × SampleTick)) (s : SamplePool ι)
    (r : SampleRecord) : (recordOf key es s r).untrimmed ≤ r.untrimmed + es.length := by
  induction es generalizing s r with
  | nil => simp [recordOf]
  | cons e es ih =>
      have hrest := ih (Pool.step execSample s e) (r.next key s e)
      have hfirst : (r.next key s e).untrimmed ≤ r.untrimmed + 1 := r.next_untrimmed_le s e
      simp only [recordOf, List.length_cons]
      omega

end record

section overviews

variable {ι : Type} [DecidableEq ι] (formatMs : ℚ → String) (parse : String → Option ℚ)
  (calls : ι → SampleCall) (schedule : List (ι × SampleTick))

/-- The values that are taken from a reply. -/
def repliedValues : Except String (List String) → List String
  | .ok values => values
  | .error _ => []

/-- Step `n` of the run is a read of the key by a call, which gets these values: the newest ones of that
moment, but none if the command fails or the key has expired. -/
def ValuesRead (i : ι) (n : ℕ) (key : String) (values : List String) : Prop :=
  ∃ front tick, front ++ [(i, tick)] <+: schedule ∧ front.length = n ∧
    ((Pool.run execSample front (samplePool formatMs parse calls)).progs i).next = some (.lrange key) ∧
    values = repliedValues (execSample tick (.lrange key)
      (Pool.run execSample front (samplePool formatMs parse calls)).store).1 ∧
    match tick.fault,
      (Pool.run execSample front (samplePool formatMs parse calls)).store.live tick.clock key with
    | none, some _ => Newest (sampleWindow key)
        (recordOf key front (samplePool formatMs parse calls) ⟨[], 0⟩).pushed values
        (recordOf key front (samplePool formatMs parse calls) ⟨[], 0⟩).untrimmed
    | _, _ => values = []

/-- The samples that the call makes of the values. -/
def SamplesRead (i : ι) (n : ℕ) (key : String) (samples : List ℚ) : Prop :=
  ∃ values, ValuesRead formatMs parse calls schedule i n key values ∧ samples = values.filterMap parse

/-- What is known of a reply to a call at a step of the run. -/
def ReadReply (i : ι) (n : ℕ) : (c : SampleCmd) → c.Reply → Prop
  | .lrange key, reply => ValuesRead formatMs parse calls schedule i n key (repliedValues reply)
  | _, _ => True

theorem readReply_exec (i : ι) {front : List (ι × SampleTick)} {tick : SampleTick}
    (h : front ++ [(i, tick)] <+: schedule) (c : SampleCmd)
    (hc : ((Pool.run execSample front (samplePool formatMs parse calls)).progs i).next = some c) :
    ReadReply formatMs parse calls schedule i front.length c
      (execSample tick c (Pool.run execSample front (samplePool formatMs parse calls)).store).1 := by
  cases c with
  | lrange key =>
      have hstores := ((sampling_start key formatMs parse calls).run front).stores
      refine ⟨front, tick, h, rfl, hc, rfl, ?_⟩
      cases hfault : tick.fault with
      | some error => simp [execSample, SampleTick.attempt, hfault, repliedValues]
      | none =>
          have hreply : (execSample tick (.lrange key)
              (Pool.run execSample front (samplePool formatMs parse calls)).store).1 =
                .ok ((Pool.run execSample front (samplePool formatMs parse calls)).store.lrange
                  tick.clock key) := by
            simp only [execSample, SampleTick.attempt, hfault]
          rw [hreply]
          unfold SampleStore.lrange
          cases hlive : (Pool.run execSample front (samplePool formatMs parse calls)).store.live
            tick.clock key with
          | none => rfl
          | some l => exact (hstores.current_live hlive).2.1
  | lpush key value => trivial
  | ltrim key stop => trivial
  | expire key seconds => trivial
  | probe service => trivial
  | listReliabilityReports tenantId limit => trivial

theorem SamplesRead.length_le {i : ι} {n : ℕ} {key : String} {samples : List ℚ}
    (h : SamplesRead formatMs parse calls schedule i n key samples) :
    samples.length ≤ 10080 + schedule.length := by
  obtain ⟨values, ⟨front, tick, hfront, -, -, -, hvalues⟩, rfl⟩ := h
  have hfilter : (values.filterMap parse).length ≤ values.length := List.length_filterMap_le parse values
  have hlength := hfront.length_le
  have huntrimmed : (recordOf key front (samplePool formatMs parse calls) ⟨[], 0⟩).untrimmed ≤
      0 + front.length := recordOf_untrimmed_le front (samplePool formatMs parse calls) ⟨[], 0⟩
  have hwindow : sampleWindow key ≤ 10080 := by
    unfold sampleWindow
    split_ifs <;> decide
  simp only [List.length_append] at hlength huntrimmed
  split at hvalues
  · have hextra := hvalues.extra
    omega
  · simp [hvalues]

/-- An overview is computed from what the call has read, one key after the other. -/
def OverviewRead (i : ι) (a : SampleAnswer) : Prop :=
  ∀ o, a = .overview (.ok o) → ∃ n₁ n₂ n₃ ingest detection alertDelivery, n₁ < n₂ ∧ n₂ < n₃ ∧
    SamplesRead formatMs parse calls schedule i n₁ ingestAvailabilityKey ingest ∧
    SamplesRead formatMs parse calls schedule i n₂ detectionLatencyKey detection ∧
    SamplesRead formatMs parse calls schedule i n₃ alertDeliveryLatencyKey alertDelivery ∧
    o.snapshot = sloSnapshot ingest detection alertDelivery

/-- From step `n` of the run on the call comes to such a result. -/
abbrev YieldsRead {α : Type} (i : ι) (n : ℕ) (Q : ℕ → α → Prop) (p : SampleProg α) : Prop :=
  p.Yields (fun n c r n' => ReadReply formatMs parse calls schedule i n c r ∧ n < n') Q n

theorem yieldsRead_readSamples (i : ι) (n : ℕ) (key : String) : YieldsRead formatMs parse calls schedule i n
    (fun n' samples => ∃ m, n ≤ m ∧ m < n' ∧ SamplesRead formatMs parse calls schedule i m key samples)
    (readSamples parse key) := by
  intro m hle r n' ⟨hr, hlt⟩
  cases r with
  | error e => exact ⟨m, hle, hlt, [], hr, rfl⟩
  | ok values => exact ⟨m, hle, hlt, values, hr, rfl⟩

theorem yieldsRead_recorded (i : ι) (p : SampleProg (Except String Unit)) :
    YieldsRead formatMs parse calls schedule i 0 (fun _ => OverviewRead formatMs parse calls schedule i)
      (p.bind fun r => .ret (.recorded r)) :=
  (Prog.yields_later (fun _ _ _ _ hr => hr.2.le) (le_refl 0)).bind fun _ _ _ _ ho => nomatch ho

theorem yieldsRead_overview (i : ι) (tenantId : String) :
    YieldsRead formatMs parse calls schedule i 0 (fun _ => OverviewRead formatMs parse calls schedule i)
      ((SampleCall.overview tenantId).prog formatMs parse) := by
  refine Prog.Yields.bind (Q := fun _ r => OverviewRead formatMs parse calls schedule i (.overview r)) ?_
    fun _ r hr => hr
  refine (yieldsRead_readSamples formatMs parse calls schedule i 0 _).bind ?_
  rintro w₁ ingest ⟨n₁, -, hlt₁, hingest⟩
  refine (yieldsRead_readSamples formatMs parse calls schedule i w₁ _).bind ?_
  rintro w₂ detection ⟨n₂, hle₂, hlt₂, hdetection⟩
  refine (yieldsRead_readSamples formatMs parse calls schedule i w₂ _).bind ?_
  rintro w₃ alertDelivery ⟨n₃, hle₃, -, halerts⟩
  intro _ _ r _ _
  cases r with
  | error e => exact fun o ho => nomatch ho
  | ok reports =>
      intro o ho
      cases ho
      exact ⟨n₁, n₂, n₃, ingest, detection, alertDelivery, hlt₁.trans_le hle₂, hlt₂.trans_le hle₃,
        hingest, hdetection, halerts, rfl⟩

theorem yieldsRead_prog (i : ι) (call : SampleCall) :
    YieldsRead formatMs parse calls schedule i 0 (fun _ => OverviewRead formatMs parse calls schedule i)
      (call.prog formatMs parse) := by
  cases call with
  | detectionLatency ms => exact yieldsRead_recorded formatMs parse calls schedule i _
  | alertDeliveryLatency ms => exact yieldsRead_recorded formatMs parse calls schedule i _
  | ingestAvailability => exact yieldsRead_recorded formatMs parse calls schedule i _
  | overview tenantId => exact yieldsRead_overview formatMs parse calls schedule i tenantId

/-- **What an overview reports**: whatever else runs and fails, an overview that is answered has in three
steps of its own read the newest samples of the three keys; its snapshot is computed from these, and its
status says in whole numbers how they are. -/
theorem overview_status (hlength : schedule.length ≤ 2 ^ 40) (i : ι) (o : ReliabilityOverview)
    (hdone : (Pool.run execSample schedule (samplePool formatMs parse calls)).progs i =
      .ret (.overview (.ok o))) :
    ∃ n₁ n₂ n₃ ingest detection alertDelivery, n₁ < n₂ ∧ n₂ < n₃ ∧
      SamplesRead formatMs parse calls schedule i n₁ ingestAvailabilityKey ingest ∧
      SamplesRead formatMs parse calls schedule i n₂ detectionLatencyKey detection ∧
      SamplesRead formatMs parse calls schedule i n₃ alertDeliveryLatencyKey alertDelivery ∧
      o.snapshot = sloSnapshot ingest detection alertDelivery ∧
      (o.snapshot.status = "down" ↔ ¬ AvailableFor 95 ingest) ∧
      (o.snapshot.status = "healthy" ↔
        AvailableFor 99 ingest ∧ ¬ SlowTail detection ∧ ¬ SlowTail alertDelivery) ∧
      (o.snapshot.status = "degraded" ↔ AvailableFor 95 ingest ∧
        (¬ AvailableFor 99 ingest ∨ SlowTail detection ∨ SlowTail alertDelivery)) := by
  have hyields := Pool.yields_fronts (i := i) schedule
    (fun _ _ hfront c hc => readReply_exec formatMs parse calls schedule i hfront c hc)
    (yieldsRead_prog formatMs parse calls schedule i (calls i))
  rw [hdone] at hyields
  obtain ⟨n₁, n₂, n₃, ingest, detection, alertDelivery, hlt₁, hlt₂, hingest, hdetection, halerts, hsnapshot⟩ :=
    hyields o rfl
  have hbound : ∀ {n key samples}, SamplesRead formatMs parse calls schedule i n key samples →
      samples.length ≤ 2 ^ 41 := by
    intro n key samples h
    have hle := h.length_le
    omega
  refine ⟨n₁, n₂, n₃, ingest, detection, alertDelivery, hlt₁, hlt₂, hingest, hdetection, halerts,
    hsnapshot, ?_⟩
  rw [hsnapshot]
  exact snapshot_status ingest detection alertDelivery (hbound hingest) (hbound hdetection) (hbound halerts)

end overviews

/-! ### A latency of five milliseconds -/

/-- A detection takes five milliseconds, and a user of `acme` asks for the overview. -/
def fiveMsCalls : Bool → SampleCall
  | false => .detectionLatency 5
  | true => .overview "acme"

def fiveMsFormat (latencyMs : ℚ) : String := if latencyMs = 5 then "5.000" else "0.000"

def fiveMsParse (s : String) : Option ℚ := if s = "5.000" then some 5 else none

/-- The sample is recorded in three commands, the overview built in four. -/
def fiveMsSchedule : List (Bool × SampleTick) :=
  List.replicate 3 (false, { clock := .ofSeconds 0 }) ++ List.replicate 4 (true, { clock := .ofSeconds 1 })

/-- No check of the services has been recorded. -/
def fiveMsOverview : ReliabilityOverview := ⟨"acme", sloSnapshot [] [5] [], []⟩

theorem fiveMs_status :
    ∃ n₁ n₂ n₃ ingest detection alertDelivery, n₁ < n₂ ∧ n₂ < n₃ ∧
      SamplesRead fiveMsFormat fiveMsParse fiveMsCalls fiveMsSchedule true n₁ ingestAvailabilityKey ingest ∧
      SamplesRead fiveMsFormat fiveMsParse fiveMsCalls fiveMsSchedule true n₂ detectionLatencyKey detection ∧
      SamplesRead fiveMsFormat fiveMsParse fiveMsCalls fiveMsSchedule true n₃ alertDeliveryLatencyKey
        alertDelivery ∧
      fiveMsOverview.snapshot = sloSnapshot ingest detection alertDelivery ∧
      (fiveMsOverview.snapshot.status = "down" ↔ ¬ AvailableFor 95 ingest) ∧
      (fiveMsOverview.snapshot.status = "healthy" ↔
        AvailableFor 99 ingest ∧ ¬ SlowTail detection ∧ ¬ SlowTail alertDelivery) ∧
      (fiveMsOverview.snapshot.status = "degraded" ↔ AvailableFor 95 ingest ∧
        (¬ AvailableFor 99 ingest ∨ SlowTail detection ∨ SlowTail alertDelivery)) :=
  overview_status fiveMsFormat fiveMsParse fiveMsCalls fiveMsSchedule (by decide) true fiveMsOverview rfl

end MiniSiem

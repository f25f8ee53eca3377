import MiniSiem.Cache
import MiniSiem.Engine
import MiniSiem.Lib.MachineInt

/-! # Correlation rules

`CorrelationRule::evaluate` of `detection/rules/correlation.rs` as a program over the cache.

* **Keys.** A group of logs has one state key, derived from the 64-bit fingerprint of its group
  key; the fingerprint function is a parameter, since the standard library leaves the algorithm
  of its default hasher open.  All state keys of a rule are members of one sorted set, the
  active index.
* **State.** `CorrelationState` is the decoded text; a text that does not decode is kept as
  `StateText.other`.
* **Evaluation.** Load the state (`loadState`), drop a late event, move the window
  (`enterWindow`), make room for a new group (`evictIfNeeded`), match the current stage
  (`matchStage`), and raise an alert or store the state (`applyStage`). -/

namespace MiniSiem

open Atomic MachineInt

structure CorrelationState where
  groupKey : String
  currentStageIdx : ℕ
  eventsInStage : ℕ
  windowStartEventTs : ℤ
  maxEventTs : ℤ
  lastEventTs : ℤ
deriving DecidableEq, Repr

/-- A cached text: one that decodes to a state, or any other. -/
inductive StateText where
  | state (s : CorrelationState)
  | other (text : String)
deriving DecidableEq, Repr

/-- `{:016x}`. -/
def hex16 (n : UInt64) : String :=
  let digits := Nat.toDigits 16 n.toNat
  String.ofList (List.replicate (16 - digits.length) '0' ++ digits)

theorem hex16_length (n : UInt64) : (hex16 n).toList.length = 16 := by
  have hlen : (Nat.toDigits 16 n.toNat).length ≤ 16 :=
    Nat.toDigits_length 16 n.toNat 16 (by norm_num) n.toNat_lt
  unfold hex16
  rw [String.toList_ofList, List.length_append, List.length_replicate]
  omega

/-- The value of a hexadecimal digit. -/
def hexValue (c : Char) : ℕ := if c.toNat < 58 then c.toNat - 48 else c.toNat - 87

def ofHex (digits : List Char) : ℕ := digits.foldl (fun n c => 16 * n + hexValue c) 0

theorem ofHex_append (l : List Char) (c : Char) : ofHex (l ++ [c]) = 16 * ofHex l + hexValue c := by
  unfold ofHex
  rw [List.foldl_append]
  rfl

theorem ofHex_replicate_append (k : ℕ) (l : List Char) :
    ofHex (List.replicate k '0' ++ l) = ofHex l := by
  unfold ofHex
  rw [List.foldl_append]
  congr 1
  induction k with
  | zero => rfl
  | succ k ih =>
      rw [List.replicate_succ', List.foldl_append, ih]
      rfl

theorem hexValue_digitChar {d : ℕ} (h : d < 16) : hexValue (Nat.digitChar d) = d := by
  interval_cases d <;> rfl

theorem ofHex_toDigits (n : ℕ) : ofHex (Nat.toDigits 16 n) = n := by
  induction n using Nat.strongRecOn with
  | ind n ih =>
      rw [Nat.toDigits_eq_if (by norm_num)]
      split_ifs with h
      · exact (ofHex_append [] _).trans (by rw [hexValue_digitChar h]; exact Nat.zero_add n)
      · rw [ofHex_append, ih (n / 16) (by omega), hexValue_digitChar (Nat.mod_lt _ (by norm_num))]
        omega

theorem hex16_injective : Function.Injective hex16 := by
  intro m n h
  have hlist := congrArg ofHex (String.ofList_injective h)
  rw [ofHex_replicate_append, ofHex_replicate_append, ofHex_toDigits, ofHex_toDigits] at hlist
  exact UInt64.toNat_inj.mp hlist

namespace CorrelationRule

variable (r : CorrelationRule)

def getGroupKey (log : Log) : String :=
  ":".intercalate (r.definition.groupBy.map fun field => match field with
    | "source_ip" => log.sourceIp
    | "target_user" => log.targetUser.getD ""
    | "event_type" => log.eventType
    | _ => "")

def «namespace» : String := "cep:" ++ r.tenantId ++ ":" ++ r.id ++ ":v" ++
  r.definition.version.toNat.repr

def stateKey (fingerprint : String → UInt64) (groupKey : String) : String :=
  r.namespace ++ ":state:" ++ hex16 (fingerprint groupKey)

def activeIndexKey : String := r.namespace ++ ":active"

/-- `watermark_lateness_seconds.max(0)`. -/
def lateness : ℤ := max r.definition.watermarkLatenessSeconds.toInt 0

def stateTtlSeconds : ℕ :=
  let base := satAddU64 (satAddU64 r.definition.windowSeconds.toNat r.lateness.toNat) 60
  max r.definition.stateTtlSeconds.toNat base

/-- The newest event time, less the allowed lateness. -/
def watermark (maxEventTs : ℤ) : ℤ := satSubI64 maxEventTs r.lateness

def isStaleByWatermark (state : CorrelationState) (eventTs : ℤ) : Bool :=
  eventTs < r.watermark state.maxEventTs

def resetState (groupKey : String) (eventTs : ℤ) : CorrelationState where
  groupKey := groupKey
  currentStageIdx := 0
  eventsInStage := 0
  windowStartEventTs := eventTs
  maxEventTs := eventTs
  lastEventTs := eventTs

/-- The state read from a stored text: a text of this group that decodes, else a new state. -/
def stateOf (text : Option StateText) (groupKey : String) (eventTs : ℤ) : CorrelationState :=
  match text with
  | some (.state state) => if state.groupKey = groupKey then state else resetState groupKey eventTs
  | some (.other _) => resetState groupKey eventTs
  | none => resetState groupKey eventTs

def loadState (stateKey groupKey : String) (eventTs : ℤ) : CacheM StateText CorrelationState :=
  (CacheM.getString stateKey).andThen fun text => .pure (stateOf text groupKey eventTs)

/-- May the group be stored?  Over the cap, the oldest group goes or the new one is refused. -/
def evictIfNeeded (stateKey : String) : CacheM StateText Bool :=
  (CacheM.zcard r.activeIndexKey).andThen fun count =>
    if count < r.definition.maxActiveGroups.toNat then .pure true
    else match r.definition.evictionPolicy with
      | .oldestFirst => (CacheM.zpopmin r.activeIndexKey).andThen fun oldest =>
          match oldest with
          | some oldestKey => (CacheM.deleteKey oldestKey).ignore.andThen fun _ => .pure true
          | none => .pure true
      | .dropNewest => (CacheM.zrem r.activeIndexKey stateKey).ignore.andThen fun _ => .pure false

def persistState (stateKey : String) (state : CorrelationState) : CacheM StateText Unit :=
  (CacheM.setString stateKey (.state state) (some r.stateTtlSeconds)).andThen fun _ =>
  (CacheM.zadd r.activeIndexKey stateKey state.lastEventTs).andThen fun _ =>
  CacheM.expireKey r.activeIndexKey r.stateTtlSeconds

/-- The watermark has moved past the window that starts at `windowStart`. -/
def windowPassed (windowStart maxEventTs : ℤ) : Bool :=
  wrapI64 r.definition.windowSeconds.toNat < wrapI64 (r.watermark maxEventTs - windowStart)

/-- The state at the time of the event: times advanced, window restarted when it has passed. -/
def enterWindow (groupKey : String) (eventTs : ℤ) (state : CorrelationState) : CorrelationState :=
  let state := { state with
    maxEventTs := if eventTs > state.maxEventTs then eventTs else state.maxEventTs
    lastEventTs := eventTs }
  if r.windowPassed state.windowStartEventTs state.maxEventTs then resetState groupKey eventTs
  else state

def isNewGroup (state : CorrelationState) (eventTs : ℤ) : Bool :=
  state.currentStageIdx == 0 && state.eventsInStage == 0 && state.windowStartEventTs == eventTs &&
  state.maxEventTs == eventTs

/-- The state after the current stage has seen the log, or nothing when the last stage is
complete. -/
def matchStage (log : Log) (state : CorrelationState) : Option CorrelationState :=
  match r.definition.stages[state.currentStageIdx]? with
  | none => some state
  | some stage =>
      if stage.condition.evaluate log then
        let state := { state with
          eventsInStage := wrapU32 (state.eventsInStage + 1)
          lastEventTs := log.timestamp.timestamp }
        if stage.minCount.toNat ≤ state.eventsInStage then
          let state := { state with currentStageIdx := state.currentStageIdx + 1, eventsInStage := 0 }
          if r.definition.stages.length ≤ state.currentStageIdx then none else some state
        else some state
      else some state

def alert (id : Uuid) (log : Log) : Alert where
  id := id
  tenantId := log.tenantId
  ruleId := r.id
  ruleName := r.name
  severity := r.severity
  description := "Correlation rule triggered: " ++ r.name
  sourceIp := log.sourceIp
  events := [log]
  firstSeen := log.timestamp
  lastSeen := log.timestamp
  status := .new
  eventsCount := 1

/-- Raise the alert and clear the state, or store the state. -/
def applyStage (alertId : Uuid) (stateKey : String) (log : Log) (state : CorrelationState) :
    CacheM StateText (Option Alert) :=
  match r.matchStage log state with
  | none =>
      (CacheM.deleteKey stateKey).ignore.andThen fun _ =>
      (CacheM.zrem r.activeIndexKey stateKey).ignore.andThen fun _ =>
      .pure (some (r.alert alertId log))
  | some state => (r.persistState stateKey state).andThen fun _ => .pure none

/-- The evaluation after the state was loaded. -/
def evaluateFrom (alertId : Uuid) (stateKey groupKey : String) (log : Log)
    (state : CorrelationState) : CacheM StateText (Option Alert) :=
  let eventTs := log.timestamp.timestamp
  if r.isStaleByWatermark state eventTs then .pure none
  else
    let state := r.enterWindow groupKey eventTs state
    if isNewGroup state eventTs then
      (r.evictIfNeeded stateKey).andThen fun allowed =>
        if allowed then r.applyStage alertId stateKey log state else .pure none
    else r.applyStage alertId stateKey log state

/-- `CorrelationRule::evaluate`; `alertId` is the identifier an alert would be given. -/
def evaluate (fingerprint : String → UInt64) (alertId : Uuid) (log : Log) :
    CacheM StateText (Option Alert) :=
  let groupKey := r.getGroupKey log
  if groupKey = "" then .pure none
  else
    let stateKey := r.stateKey fingerprint groupKey
    (loadState stateKey groupKey log.timestamp.timestamp).andThen
      (r.evaluateFrom alertId stateKey groupKey log)

/-! ### The group of a state -/

theorem stateOf_groupKey (text : Option StateText) (groupKey : String) (t : ℤ) :
    (stateOf text groupKey t).groupKey = groupKey := by
  unfold stateOf
  cases text with
  | none => rfl
  | some text =>
      cases text with
      | other text => rfl
      | state state =>
          dsimp only
          split_ifs with h
          · exact h
          · rfl

theorem enterWindow_groupKey {groupKey : String} {t : ℤ} {state : CorrelationState}
    (h : state.groupKey = groupKey) : (r.enterWindow groupKey t state).groupKey = groupKey := by
  unfold enterWindow
  dsimp only
  generalize (if t > state.maxEventTs then t else state.maxEventTs) = newest
  split_ifs
  · rfl
  · exact h

/-- The state that a log leaves is as before, or it has counted the log in its stage, or it is in the next one. -/
theorem matchStage_some {r : CorrelationRule} {log : Log} {state next : CorrelationState}
    (h : r.matchStage log state = some next) :
    next = state ∨ ∃ stage, r.definition.stages[state.currentStageIdx]? = some stage ∧
      ((wrapU32 (state.eventsInStage + 1) < stage.minCount.toNat ∧
          next = { state with
            eventsInStage := wrapU32 (state.eventsInStage + 1)
            lastEventTs := log.timestamp.timestamp }) ∨
        next = { state with
          currentStageIdx := state.currentStageIdx + 1
          eventsInStage := 0
          lastEventTs := log.timestamp.timestamp }) := by
  unfold matchStage at h
  cases hs : r.definition.stages[state.currentStageIdx]? with
  | none =>
      rw [hs] at h
      exact Or.inl (Option.some.inj h).symm
  | some stage =>
      rw [hs] at h
      dsimp only at h
      split_ifs at h with hmatch hcount hlast
      · exact Or.inr ⟨stage, rfl, Or.inr (Option.some.inj h).symm⟩
      · exact Or.inr ⟨stage, rfl, Or.inl ⟨not_le.mp hcount, (Option.some.inj h).symm⟩⟩
      · exact Or.inl (Option.some.inj h).symm

theorem matchStage_groupKey {r : CorrelationRule} {log : Log} {state next : CorrelationState}
    (h : r.matchStage log state = some next) : next.groupKey = state.groupKey := by
  obtain rfl | ⟨stage, -, ⟨-, rfl⟩ | rfl⟩ := matchStage_some h <;> rfl

/-- Without stages a state stays. -/
theorem matchStage_of_nil {r : CorrelationRule} (hstages : r.definition.stages = []) (log : Log)
    (state : CorrelationState) : r.matchStage log state = some state := by
  unfold matchStage
  rw [hstages]
  rfl

/-! ### Keys -/

theorem stateKey_ne_activeIndexKey (fp : String → UInt64) (groupKey : String) :
    r.stateKey fp groupKey ≠ r.activeIndexKey := by
  intro h
  unfold stateKey activeIndexKey at h
  have hlist := congrArg String.toList h
  simp only [String.toList_append, List.append_assoc, List.append_cancel_left_eq] at hlist
  have hsecond := congrArg (fun l => l[1]?) hlist
  revert hsecond
  simp

/-- Two groups have one state key only when their fingerprints collide. -/
theorem stateKey_inj {fp : String → UInt64} {g g' : String} :
    r.stateKey fp g = r.stateKey fp g' ↔ fp g = fp g' := by
  constructor
  · intro h
    unfold stateKey at h
    exact hex16_injective (String.append_right_inj _ |>.mp h)
  · intro h
    unfold stateKey
    rw [h]

/-- A state key names the namespace it is in. -/
theorem namespace_of_stateKey {r r' : CorrelationRule} {fp : String → UInt64} {g g' : String}
    (h : r.stateKey fp g = r'.stateKey fp g') : r.namespace = r'.namespace := by
  unfold stateKey at h
  have hlist := congrArg String.toList h
  rw [String.toList_append, String.toList_append, String.toList_append, String.toList_append] at hlist
  have hfront := (List.append_inj' hlist (by rw [hex16_length, hex16_length])).1
  exact String.toList_injective (List.append_cancel_right hfront)

/-! ### The watermark -/

theorem watermark_le {t : ℤ} (h : minSeconds ≤ t) : r.watermark t ≤ t := by
  refine satSubI64_le (le_max_right _ _) ?_
  unfold minSeconds at h
  unfold minI64
  omega

/-- An event that is not older than the newest one is not late. -/
theorem not_stale {state : CorrelationState} {t : ℤ} (h₁ : minSeconds ≤ state.maxEventTs)
    (h₂ : state.maxEventTs ≤ t) : r.isStaleByWatermark state t = false := by
  have hle := r.watermark_le h₁
  exact decide_eq_false (by omega)

/-- A new state is not behind its own watermark. -/
theorem resetState_not_stale (groupKey : String) (t : DateTime) :
    r.isStaleByWatermark (resetState groupKey t.timestamp) t.timestamp = false :=
  r.not_stale t.timestamp_bounds.1 (le_refl _)

end CorrelationRule

end MiniSiem

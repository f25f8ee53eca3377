import MiniSiem.KafkaConsumers

/-! # What the consumers account for

* **Messages.**  `logs_accounted_iff`: every message that `consume_logs` takes is accounted for exactly
  when it decodes to a log and, if there is no counter, no log waits in vain for room.
* **Pauses.**  `backpressure_local_iff`: the pauses of both functions stay with their own consumer and
  are released after every message exactly when a pause of `consume_logs` ends with a resume that
  succeeds and `consume_alerts` never pauses a partition. -/

namespace MiniSiem

/-! ### Iterations -/

section loops

variable {σ ε α : Type} {handle : σ → ε → (List (Effect α) × Flow) × σ}

theorem iterations_cons (s : σ) (e : ε) (es : List ε) :
    iterations handle s (e :: es) =
      ⟨s, e, (handle s e).1.1, (handle s e).1.2⟩ ::
        if (handle s e).1.2 = .next then iterations handle (handle s e).2 es else [] := by
  rw [iterations]
  cases hflow : (handle s e).1.2 <;> simp [hflow]

theorem eq_handle_of_mem {s : σ} {es : List ε} {it : Iteration σ ε α}
    (h : it ∈ iterations handle s es) : (it.effects, it.flow) = (handle it.state it.event).1 := by
  induction es generalizing s with
  | nil => cases h
  | cons e es ih =>
      rw [iterations_cons, List.mem_cons] at h
      rcases h with rfl | h
      · rfl
      · split_ifs at h
        · exact ih h
        · cases h

/-- Only the last iteration ends the loop. -/
theorem next_of_front {s : σ} {es : List ε} {front back : List (Iteration σ ε α)}
    {it : Iteration σ ε α} (h : iterations handle s es = front ++ it :: back) :
    ∀ u ∈ front, u.flow = .next := by
  induction es generalizing s front with
  | nil =>
      have := congrArg List.length h
      simp [iterations] at this
  | cons e es ih =>
      rw [iterations_cons] at h
      cases front with
      | nil => intro u hu; cases hu
      | cons first front =>
          rw [List.cons_append] at h
          obtain ⟨hfirst, hrest⟩ := List.cons.inj h
          split_ifs at hrest with hflow
          · intro u hu
            rcases List.mem_cons.mp hu with rfl | hu
            · rw [← hfirst]
              exact hflow
            · exact ih hrest u hu
          · have := congrArg List.length hrest
            simp at this

end loops

/-! ### Deliveries -/

section deliveries

variable {α : Type} {settings : PauseSettings} (item : α) {pausing : ConsumerId} {plainWaitMs : ℕ}
  {env : DeliveryEnv}

/-- The channel is full, and the message waits in vain. -/
def Overflows (settings : PauseSettings) (pausing : ConsumerId) (plainWaitMs : ℕ) (env : DeliveryEnv) :
    Prop :=
  env.trySend = .full ∧ env.send.within (waitLimit settings pausing plainWaitMs env) = .timedOut

instance : Decidable (Overflows settings pausing plainWaitMs env) :=
  inferInstanceAs (Decidable (_ ∧ _))

def Effect.pauses : Effect α → Bool
  | paused _ _ _ | resumed _ _ _ => true
  | _ => false

/-- The partitions that are paused because the channel is full. -/
def pausedPartitions (settings : PauseSettings) (pausing : ConsumerId) (env : DeliveryEnv) :
    Option (List TopicPartition) :=
  if env.trySend = .full ∧ settings.pauseOnFull = true then
    (env.consumers pausing).assignment.toOption
  else none

/-- A delivery without a pause. -/
theorem deliver_of_unpaused (h : pausedPartitions settings pausing env = none) :
    deliver settings item pausing plainWaitMs env =
      match env.trySend with
      | .ok => (.sent item :: resetCounter settings, .next)
      | .full => afterSend settings item []
          (env.send.within (waitLimit settings pausing plainWaitMs env))
      | .closed => ([], .stop) := by
  unfold deliver
  unfold pausedPartitions at h
  cases htry : env.trySend with
  | ok => rfl
  | closed => rfl
  | full =>
      unfold backpressure
      rw [htry] at h
      cases hpause : settings.pauseOnFull with
      | false => rfl
      | true =>
          rw [hpause, if_pos ⟨rfl, rfl⟩] at h
          cases hassigned : (env.consumers pausing).assignment with
          | error e => rfl
          | ok partitions => rw [hassigned] at h; cases h

/-- A delivery that pauses. -/
theorem deliver_of_paused {plainWaitMs : ℕ} {partitions : List TopicPartition}
    (h : pausedPartitions settings pausing env = some partitions) :
    env.trySend = .full ∧ deliver settings item pausing plainWaitMs env =
      let result := env.send.within (waitLimit settings pausing plainWaitMs env)
      let release := [.resumed pausing partitions (env.consumers pausing).resume]
      (.paused pausing partitions (env.consumers pausing).pause ::
        (afterSend settings item release result).1, (afterSend settings item release result).2) := by
  unfold pausedPartitions at h
  split_ifs at h with hfull
  obtain ⟨htry, hpause⟩ := hfull
  refine ⟨htry, ?_⟩
  cases hassigned : (env.consumers pausing).assignment with
  | error e => rw [hassigned] at h; cases h
  | ok assigned =>
      rw [hassigned] at h
      obtain rfl : assigned = partitions := Option.some.inj h
      unfold deliver backpressure
      rw [htry, hpause, hassigned]

/-- What a delivery does to the message. -/
theorem deliver_accounted (h : settings.hasCounter = true ∨ ¬ Overflows settings pausing plainWaitMs env) :
    .sent item ∈ (deliver settings item pausing plainWaitMs env).1 ∨
      .counterIncremented ∈ (deliver settings item pausing plainWaitMs env).1 ∨
      (deliver settings item pausing plainWaitMs env).2 = .stop ∨
      (deliver settings item pausing plainWaitMs env).2 = .pending := by
  cases hpaused : pausedPartitions settings pausing env with
  | none =>
      rw [deliver_of_unpaused item hpaused]
      cases htry : env.trySend with
      | ok => exact Or.inl List.mem_cons_self
      | closed => exact Or.inr (Or.inr (Or.inl rfl))
      | full =>
          dsimp only
          cases hresult : env.send.within (waitLimit settings pausing plainWaitMs env) with
          | sent => exact Or.inl List.mem_cons_self
          | closed => exact Or.inr (Or.inr (Or.inl rfl))
          | pending => exact Or.inr (Or.inr (Or.inr rfl))
          | timedOut =>
              have hcounter : settings.hasCounter = true := by
                refine h.resolve_right ?_
                rw [not_not]
                exact ⟨htry, hresult⟩
              simp [afterSend, incrementCounter, hcounter]
  | some partitions =>
      obtain ⟨htry, hdeliver⟩ := deliver_of_paused item hpaused
      rw [hdeliver]
      dsimp only
      cases hresult : env.send.within (waitLimit settings pausing plainWaitMs env) with
      | sent => exact Or.inl (List.mem_cons_of_mem _ List.mem_cons_self)
      | closed => exact Or.inr (Or.inr (Or.inl rfl))
      | pending => exact Or.inr (Or.inr (Or.inr rfl))
      | timedOut =>
          have hcounter : settings.hasCounter = true := by
            refine h.resolve_right ?_
            rw [not_not]
            exact ⟨htry, hresult⟩
          simp [afterSend, incrementCounter, hcounter]

/-- Without a counter a message that waits in vain leaves nothing but pauses. -/
theorem deliver_of_overflow (hcounter : settings.hasCounter = false)
    (h : Overflows settings pausing plainWaitMs env) :
    (∀ e ∈ (deliver settings item pausing plainWaitMs env).1, e.pauses = true) ∧
      (deliver settings item pausing plainWaitMs env).2 = .next := by
  obtain ⟨htry, hresult⟩ := h
  cases hpaused : pausedPartitions settings pausing env with
  | none =>
      rw [deliver_of_unpaused item hpaused, htry]
      dsimp only
      rw [hresult]
      simp [afterSend, incrementCounter, hcounter]
  | some partitions =>
      obtain ⟨-, hdeliver⟩ := deliver_of_paused item hpaused
      rw [hdeliver]
      dsimp only
      rw [hresult]
      simp [afterSend, incrementCounter, hcounter, Effect.pauses]

end deliveries

/-! ### Accounts of the messages -/

def logsDlqTopic : String := "siem-logs-dlq"

/-- What has become of a message of the topic of logs. -/
def Accounted (formats : TextFormats) (m : LogMessage) (effects : List (Effect Log)) (flow : Flow) :
    Prop :=
  (∃ log, logOfPayload formats m.payload = some log ∧
    (.sent log ∈ effects ∨ .rateLimited log ∈ effects ∨ .counterIncremented ∈ effects)) ∨
  (logOfPayload formats m.payload = none ∧ .published logsDlqTopic m.payload ∈ effects) ∨
  flow = .stop ∨ flow = .pending

/-- The message is a log, and without a counter it does not wait in vain behind the limiter. -/
def Accountable (settings : LogSettings) (limits : LocalRateLimits) (m : LogMessage) : Prop :=
  ∃ log, logOfPayload settings.formats m.payload = some log ∧
    (settings.pausing.hasCounter = true ∨
      (limitLog settings.limiter limits log m.nowMs m.redis).1 = .rateLimited ∨
      ¬ Overflows settings.pausing .logs 50 m.delivery)

/-- The effects that account for a message. -/
def Effect.accounts {α : Type} : Effect α → Bool
  | sent _ | rateLimited _ | counterIncremented | published _ _ => true
  | _ => false

theorem Effect.accounts_of_pauses {α : Type} {e : Effect α} (h : e.pauses = true) :
    e.accounts = false := by
  cases e <;> first | rfl | cases h

section messages

variable {settings : LogSettings} {limits : LocalRateLimits} {m : LogMessage}

theorem not_accounted {formats : TextFormats} {effects : List (Effect Log)}
    (h : ∀ e ∈ effects, e.accounts = false) : ¬ Accounted formats m effects .next := by
  rintro (⟨log, -, hmem | hmem | hmem⟩ | ⟨-, hmem⟩ | hflow | hflow)
  · cases h _ hmem
  · cases h _ hmem
  · cases h _ hmem
  · cases h _ hmem
  · cases hflow
  · cases hflow

theorem accounts_forwardToIndexer (log : Log) (indexer : TrySend) :
    ∀ e ∈ forwardToIndexer settings log indexer, e.accounts = false ∧ e.pauses = false := by
  unfold forwardToIndexer
  split <;> simp [Effect.accounts, Effect.pauses]

theorem passLog_eq (log : Log) (m : LogMessage) :
    passLog settings log m = (.seen :: (deliver settings.pausing log .logs 50 m.delivery).1 ++
      (if (deliver settings.pausing log .logs 50 m.delivery).2 = .next then
        forwardToIndexer settings log m.indexer else []),
      (deliver settings.pausing log .logs 50 m.delivery).2) := rfl

/-- A log that the limiter lets pass, behind effects that say nothing about it. -/
theorem accounted_passLog_iff {log : Log} (hlog : logOfPayload settings.formats m.payload = some log)
    {front : List (Effect Log)} (hfront : ∀ e ∈ front, e.accounts = false) :
    Accounted settings.formats m (front ++ (passLog settings log m).1) (passLog settings log m).2 ↔
      settings.pausing.hasCounter = true ∨ ¬ Overflows settings.pausing .logs 50 m.delivery := by
  constructor
  · intro h
    by_contra hlost
    rw [not_or, not_not, Bool.not_eq_true] at hlost
    obtain ⟨hpauses, hflow⟩ := deliver_of_overflow log hlost.1 hlost.2
    rw [passLog_eq, hflow, if_pos rfl] at h
    refine not_accounted ?_ h
    intro e he
    rcases List.mem_append.mp he with he | he
    · exact hfront e he
    · rcases List.mem_cons.mp he with rfl | he
      · rfl
      · rcases List.mem_append.mp he with he | he
        · exact Effect.accounts_of_pauses (hpauses e he)
        · exact (accounts_forwardToIndexer log m.indexer e he).1
  · intro h
    have hmem : ∀ e ∈ (deliver settings.pausing log .logs 50 m.delivery).1,
        e ∈ front ++ (passLog settings log m).1 := fun e he =>
      List.mem_append_right front (List.mem_cons_of_mem _ (List.mem_append_left _ he))
    rcases deliver_accounted log h with hsent | hcounted | hstop | hpending
    · exact Or.inl ⟨log, hlog, Or.inl (hmem _ hsent)⟩
    · exact Or.inl ⟨log, hlog, Or.inr (Or.inr (hmem _ hcounted))⟩
    · exact Or.inr (Or.inr (Or.inl hstop))
    · exact Or.inr (Or.inr (Or.inr hpending))

theorem accounted_iff (settings : LogSettings) (limits : LocalRateLimits) (m : LogMessage) :
    Accounted settings.formats m (handleLogMessage settings limits m).1.1
      (handleLogMessage settings limits m).1.2 ↔ Accountable settings limits m := by
  unfold handleLogMessage Accountable
  cases hlog : logOfPayload settings.formats m.payload with
  | none =>
      refine iff_of_false (not_accounted fun e he => by cases he) ?_
      rintro ⟨log, hnone, -⟩
      cases hnone
  | some log =>
      dsimp only
      have hlogs : ∀ {P : Log → Prop}, (∃ l, some log = some l ∧ P l) ↔ P log := by simp
      rw [hlogs]
      cases hverdict : (limitLog settings.limiter limits log m.nowMs m.redis).1 with
      | rateLimited =>
          refine iff_of_true ?_ (Or.inr (Or.inl rfl))
          exact Or.inl ⟨log, hlog, Or.inr (Or.inl List.mem_cons_self)⟩
      | allowed =>
          have hpass := accounted_passLog_iff hlog (show ∀ e ∈ ([] : List (Effect Log)),
            e.accounts = false from fun e he => by cases he)
          simpa using hpass
      | sampled =>
          have hpass := accounted_passLog_iff hlog (show ∀ e ∈ [Effect.sampled log],
            e.accounts = false from fun e he => by rw [List.mem_singleton.mp he]; rfl)
          simpa using hpass

end messages

/-- **When every message is accounted for**: each message that `consume_logs` takes is a log, and
without a counter none that passes the limiter waits in vain for room. -/
theorem logs_accounted_iff (settings : LogSettings) (events : List LogLoopEvent) :
    (∀ it ∈ consumeLogs settings events, ∀ m, it.event = .message m →
      Accounted settings.formats m it.effects it.flow) ↔
    ∀ it ∈ consumeLogs settings events, ∀ m, it.event = .message m →
      Accountable settings it.state m := by
  refine forall₂_congr fun it hit => forall₂_congr fun m hm => ?_
  have hhandle := eq_handle_of_mem hit
  rw [hm] at hhandle
  obtain ⟨heffects, hflow⟩ := Prod.mk.inj hhandle
  rw [heffects, hflow]
  exact accounted_iff settings it.state m

/-! ### Pauses -/

section pauses

variable {α : Type}

/-- The consumer whose partitions a pause or a resume is about. -/
def Effect.target : Effect α → Option ConsumerId
  | paused consumer partitions _ | resumed consumer partitions _ =>
      if partitions = [] then none else some consumer
  | _ => none

/-- The partitions that are paused after an effect. -/
def applyPause (s : List (ConsumerId × TopicPartition)) : Effect α → List (ConsumerId × TopicPartition)
  | .paused consumer partitions true => s ++ partitions.map (consumer, ·)
  | .resumed consumer partitions true => s.filter (· ∉ partitions.map (consumer, ·))
  | _ => s

/-- What a function that does these effects has paused and not resumed. -/
def stillPaused (effects : List (Effect α)) : List (ConsumerId × TopicPartition) :=
  effects.foldl applyPause []

/-- The pauses stay with one consumer, and after every message that is done none is left. -/
def LocalAndReleased {σ ε : Type} (own : ConsumerId) (its : List (Iteration σ ε α)) : Prop :=
  (∀ it ∈ its, ∀ e ∈ it.effects, e.target = none ∨ e.target = some own) ∧
  ∀ front, front <+: its → (∀ it ∈ front, it.flow ≠ .pending) →
    stillPaused (front.flatMap (·.effects)) = []

theorem foldl_applyPause_of_free {effects : List (Effect α)} (h : ∀ e ∈ effects, e.pauses = false)
    (s : List (ConsumerId × TopicPartition)) : effects.foldl applyPause s = s := by
  induction effects generalizing s with
  | nil => rfl
  | cons e effects ih =>
      rw [List.forall_mem_cons] at h
      rw [List.foldl_cons, ih h.2]
      cases e <;> first | rfl | cases h.1

theorem target_of_free {e : Effect α} (h : e.pauses = false) : e.target = none := by
  cases e <;> first | rfl | cases h

theorem localAndReleased_iff {σ ε : Type} {handle : σ → ε → (List (Effect α) × Flow) × σ}
    (own : ConsumerId) (s : σ) (es : List ε) :
    LocalAndReleased own (iterations handle s es) ↔ ∀ it ∈ iterations handle s es,
      (∀ e ∈ it.effects, e.target = none ∨ e.target = some own) ∧
        (it.flow ≠ .pending → stillPaused it.effects = []) := by
  constructor
  · rintro ⟨hlocal, hreleased⟩ it hit
    refine ⟨hlocal it hit, ?_⟩
    intro hflow
    obtain ⟨front, back, heq⟩ := List.append_of_mem hit
    have hfront : ∀ u ∈ front, u.flow ≠ .pending := by
      intro u hu
      rw [next_of_front heq u hu]
      exact Flow.noConfusion
    have hbefore := hreleased front ⟨it :: back, heq.symm⟩ hfront
    have hafter := hreleased (front ++ [it]) ⟨back, by rw [heq, List.append_assoc]; rfl⟩ (by
      intro u hu
      rcases List.mem_append.mp hu with hu | hu
      · exact hfront u hu
      · rwa [List.mem_singleton.mp hu])
    unfold stillPaused at hbefore hafter ⊢
    rw [List.flatMap_append, List.foldl_append, hbefore, List.flatMap_cons, List.flatMap_nil,
      List.append_nil] at hafter
    exact hafter
  · intro h
    refine ⟨fun it hit => (h it hit).1, ?_⟩
    intro front hfront hdone
    have hmem : ∀ it ∈ front, it ∈ iterations handle s es := fun it hit => hfront.subset hit
    clear hfront
    unfold stillPaused
    induction front with
    | nil => rfl
    | cons it front ih =>
        rw [List.forall_mem_cons] at hdone hmem
        have hit : it.effects.foldl applyPause [] = [] := (h it hmem.1).2 hdone.1
        rw [List.flatMap_cons, List.foldl_append, hit]
        exact ih hdone.2 hmem.2

end pauses

/-! ### Pauses of a delivery -/

/-- A pause of some partition succeeds, and the function stops or its resume fails. -/
def KeepsPaused (settings : PauseSettings) (pausing : ConsumerId) (plainWaitMs : ℕ)
    (env : DeliveryEnv) : Prop :=
  (∃ partitions, pausedPartitions settings pausing env = some partitions ∧ partitions ≠ []) ∧
  (env.consumers pausing).pause = true ∧
  (env.send.within (waitLimit settings pausing plainWaitMs env) = .closed ∨
    env.send.within (waitLimit settings pausing plainWaitMs env) ≠ .pending ∧
      (env.consumers pausing).resume = false)

section deliveries

variable {α : Type} {settings : PauseSettings} (item : α) {pausing : ConsumerId} {plainWaitMs : ℕ}
  {env : DeliveryEnv}

theorem pauses_counter (settings : PauseSettings) :
    (∀ e ∈ (resetCounter settings : List (Effect α)), e.pauses = false) ∧
      ∀ e ∈ (incrementCounter settings : List (Effect α)), e.pauses = false := by
  unfold resetCounter incrementCounter
  cases settings.hasCounter <;> simp [Effect.pauses]

/-- Without a pause there is no effect on what is paused. -/
theorem free_of_unpaused (h : pausedPartitions settings pausing env = none) :
    ∀ e ∈ (deliver settings item pausing plainWaitMs env).1, e.pauses = false := by
  obtain ⟨hreset, hincrement⟩ := pauses_counter (α := α) settings
  rw [deliver_of_unpaused item h]
  cases env.trySend with
  | ok => exact List.forall_mem_cons.mpr ⟨rfl, hreset⟩
  | closed => exact fun e he => by cases he
  | full =>
      dsimp only
      cases env.send.within (waitLimit settings pausing plainWaitMs env) with
      | sent => exact List.forall_mem_cons.mpr ⟨rfl, hreset⟩
      | closed => exact fun e he => by cases he
      | pending => exact fun e he => by cases he
      | timedOut => exact hincrement

/-- A pause that is followed by a resume of the same partitions. -/
theorem stillPaused_resumed_iff (consumer : ConsumerId) (partitions : List TopicPartition)
    (pause resume : Bool) {more : List (Effect α)} (hmore : ∀ e ∈ more, e.pauses = false) :
    stillPaused (.paused consumer partitions pause :: .resumed consumer partitions resume :: more) =
        [] ↔ ¬ (partitions ≠ [] ∧ pause = true ∧ resume = false) := by
  unfold stillPaused
  rw [List.foldl_cons, List.foldl_cons, foldl_applyPause_of_free hmore]
  cases pause <;> cases resume <;> simp [applyPause]

theorem stillPaused_deliver_iff (hflow : (deliver settings item pausing plainWaitMs env).2 ≠ .pending) :
    stillPaused (deliver settings item pausing plainWaitMs env).1 = [] ↔
      ¬ KeepsPaused settings pausing plainWaitMs env := by
  unfold KeepsPaused
  cases hpaused : pausedPartitions settings pausing env with
  | none =>
      refine iff_of_true (foldl_applyPause_of_free (free_of_unpaused item hpaused) []) ?_
      rintro ⟨⟨partitions, hnone, -⟩, -⟩
      cases hnone
  | some partitions =>
      obtain ⟨-, hdeliver⟩ := deliver_of_paused item hpaused
      obtain ⟨hreset, hincrement⟩ := pauses_counter (α := α) settings
      rw [hdeliver] at hflow ⊢
      dsimp only at hflow ⊢
      cases hresult : env.send.within (waitLimit settings pausing plainWaitMs env) with
      | pending =>
          rw [hresult] at hflow
          exact absurd rfl hflow
      | closed =>
          cases hpause : (env.consumers pausing).pause <;>
            simp [afterSend, stillPaused, applyPause]
      | sent =>
          refine (stillPaused_resumed_iff pausing partitions _ _ hreset).trans ?_
          simp
      | timedOut =>
          refine (stillPaused_resumed_iff pausing partitions _ _ hincrement).trans ?_
          simp

/-- The pauses and resumes of a delivery that pauses. -/
theorem pausing_of_paused {plainWaitMs : ℕ} {partitions : List TopicPartition}
    (h : pausedPartitions settings pausing env = some partitions) :
    ∀ e ∈ (deliver settings item pausing plainWaitMs env).1, e.pauses = false ∨
      ∃ succeeds, e = .paused pausing partitions succeeds ∨ e = .resumed pausing partitions succeeds := by
  obtain ⟨hreset, hincrement⟩ := pauses_counter (α := α) settings
  rw [(deliver_of_paused item h).2]
  dsimp only
  rw [List.forall_mem_cons]
  refine ⟨Or.inr ⟨_, Or.inl rfl⟩, ?_⟩
  cases env.send.within (waitLimit settings pausing plainWaitMs env) with
  | sent =>
      refine List.forall_mem_cons.mpr ⟨Or.inl rfl, List.forall_mem_cons.mpr
        ⟨Or.inr ⟨_, Or.inr rfl⟩, ?_⟩⟩
      exact fun e he => Or.inl (hreset e he)
  | closed => exact fun e he => by cases he
  | pending => exact fun e he => by cases he
  | timedOut =>
      refine List.forall_mem_cons.mpr ⟨Or.inr ⟨_, Or.inr rfl⟩, ?_⟩
      exact fun e he => Or.inl (hincrement e he)

theorem target_pausing {consumer : ConsumerId} {partitions : List TopicPartition} {e : Effect α}
    (h : ∃ succeeds, e = .paused consumer partitions succeeds ∨
      e = .resumed consumer partitions succeeds) :
    e.target = if partitions = [] then none else some consumer := by
  obtain ⟨succeeds, rfl | rfl⟩ := h <;> rfl

/-- The effects of a delivery are about the consumer that it names. -/
theorem target_deliver : ∀ e ∈ (deliver settings item pausing plainWaitMs env).1,
    e.target = none ∨ e.target = some pausing := by
  intro e he
  cases hpaused : pausedPartitions settings pausing env with
  | none => exact Or.inl (target_of_free (free_of_unpaused item hpaused e he))
  | some partitions =>
      rcases pausing_of_paused item hpaused e he with hfree | hpausing
      · exact Or.inl (target_of_free hfree)
      · rw [target_pausing hpausing]
        split_ifs
        · exact Or.inl rfl
        · exact Or.inr rfl

end deliveries

/-! ### Pauses of the two functions -/

/-- A pause of `consume_logs` for a message that the limiter lets pass is released. -/
def ReleasesLogs (settings : LogSettings) (limits : LocalRateLimits) (m : LogMessage) : Prop :=
  ∀ log, logOfPayload settings.formats m.payload = some log →
    (limitLog settings.limiter limits log m.nowMs m.redis).1 ≠ .rateLimited →
    ¬ KeepsPaused settings.pausing .logs 50 m.delivery

/-- `consume_alerts` has no partition to pause. -/
def NeverPauses (formats : TextFormats) (settings : PauseSettings) (m : AlertMessage) : Prop :=
  ∀ alert, alertOfPayload formats m.payload = some alert →
    ∀ partitions, pausedPartitions settings .logs m.delivery = some partitions → partitions = []

section functions

variable {settings : LogSettings} {limits : LocalRateLimits} {m : LogMessage}

/-- A log that the limiter lets pass, behind effects that pause nothing. -/
theorem released_passLog_iff {log : Log} {front : List (Effect Log)}
    (hfront : ∀ e ∈ front, e.pauses = false) :
    ((∀ e ∈ front ++ (passLog settings log m).1, e.target = none ∨ e.target = some .logs) ∧
      ((passLog settings log m).2 ≠ .pending →
        stillPaused (front ++ (passLog settings log m).1) = [])) ↔
      ¬ KeepsPaused settings.pausing .logs 50 m.delivery := by
  have hback : ∀ e ∈ (if (deliver settings.pausing log .logs 50 m.delivery).2 = .next then
      forwardToIndexer settings log m.indexer else []), e.pauses = false := by
    intro e he
    split_ifs at he
    · exact (accounts_forwardToIndexer log m.indexer e he).2
    · cases he
  have htarget : ∀ e ∈ front ++ (passLog settings log m).1,
      e.target = none ∨ e.target = some .logs := by
    rw [passLog_eq]
    intro e he
    rcases List.mem_append.mp he with he | he
    · exact Or.inl (target_of_free (hfront e he))
    · rcases List.mem_cons.mp he with rfl | he
      · exact Or.inl rfl
      · rcases List.mem_append.mp he with he | he
        · exact target_deliver log e he
        · exact Or.inl (target_of_free (hback e he))
  have hpaused : stillPaused (front ++ (passLog settings log m).1) =
      stillPaused (deliver settings.pausing log .logs 50 m.delivery).1 := by
    rw [passLog_eq]
    unfold stillPaused
    rw [List.foldl_append, foldl_applyPause_of_free hfront, List.cons_append, List.foldl_cons,
      List.foldl_append, foldl_applyPause_of_free hback]
    rfl
  rw [hpaused, and_iff_right htarget]
  constructor
  · intro h hkeeps
    have hflow : (deliver settings.pausing log .logs 50 m.delivery).2 ≠ .pending := by
      obtain ⟨⟨partitions, hpart, -⟩, -, hresult⟩ := hkeeps
      rw [(deliver_of_paused log hpart).2]
      dsimp only
      intro hpending
      cases hsend : m.delivery.send.within (waitLimit settings.pausing .logs 50 m.delivery) <;>
        simp [hsend, afterSend] at hpending hresult
    exact (stillPaused_deliver_iff log hflow).mp (h hflow) hkeeps
  · intro h hflow
    exact (stillPaused_deliver_iff log hflow).mpr h

theorem released_logMessage_iff (settings : LogSettings) (limits : LocalRateLimits) (m : LogMessage) :
    ((∀ e ∈ (handleLogMessage settings limits m).1.1, e.target = none ∨ e.target = some .logs) ∧
      ((handleLogMessage settings limits m).1.2 ≠ .pending →
        stillPaused (handleLogMessage settings limits m).1.1 = [])) ↔
      ReleasesLogs settings limits m := by
  unfold handleLogMessage ReleasesLogs
  cases hlog : logOfPayload settings.formats m.payload with
  | none =>
      refine iff_of_true ⟨fun e he => (by cases he), fun _ => rfl⟩ ?_
      intro log h
      cases h
  | some log =>
      dsimp only
      have hlogs : ∀ {P : Log → Prop}, (∀ l, some log = some l → P l) ↔ P log := by simp
      rw [hlogs]
      cases hverdict : (limitLog settings.limiter limits log m.nowMs m.redis).1 with
      | rateLimited =>
          refine iff_of_true ⟨fun e he => ?_, fun _ => rfl⟩ fun h => absurd rfl h
          rw [List.mem_singleton.mp he]
          exact Or.inl rfl
      | allowed =>
          refine (@released_passLog_iff settings m log [] fun e he => (by cases he)).trans ?_
          simp
      | sampled =>
          refine (@released_passLog_iff settings m log [Effect.sampled log] fun e he => (by
            rw [List.mem_singleton.mp he]; rfl)).trans ?_
          simp

theorem alertIteration_message (formats : TextFormats) (settings : PauseSettings) (m : AlertMessage) :
    alertIteration formats settings () (.message m) =
      match alertOfPayload formats m.payload with
      | none => (([], .next), ())
      | some alert =>
          ((.seen :: (deliver settings alert .logs (shortWaitMs settings) m.delivery).1,
            (deliver settings alert .logs (shortWaitMs settings) m.delivery).2), ()) := rfl

theorem released_alertMessage_iff (formats : TextFormats) (settings : PauseSettings)
    (m : AlertMessage) :
    ((∀ e ∈ (alertIteration formats settings () (.message m)).1.1,
        e.target = none ∨ e.target = some .alerts) ∧
      ((alertIteration formats settings () (.message m)).1.2 ≠ .pending →
        stillPaused (alertIteration formats settings () (.message m)).1.1 = [])) ↔
      NeverPauses formats settings m := by
  rw [alertIteration_message]
  unfold NeverPauses
  cases halert : alertOfPayload formats m.payload with
  | none =>
      refine iff_of_true ⟨fun e he => (by cases he), fun _ => rfl⟩ ?_
      intro alert h
      cases h
  | some alert =>
      dsimp only
      have halerts : ∀ {P : Prop}, (∀ a, some alert = some a → P) ↔ P := by simp
      rw [halerts, List.forall_mem_cons]
      have hseen : stillPaused (Effect.seen ::
          (deliver settings alert .logs (shortWaitMs settings) m.delivery).1) =
          stillPaused (deliver settings alert .logs (shortWaitMs settings) m.delivery).1 := rfl
      rw [hseen]
      cases hpaused : pausedPartitions settings .logs m.delivery with
      | none =>
          have hfree := @free_of_unpaused _ _ alert _ (shortWaitMs settings) _ hpaused
          refine iff_of_true ⟨⟨Or.inl rfl, ?_⟩, fun _ => foldl_applyPause_of_free hfree []⟩ ?_
          · exact fun e he => Or.inl (target_of_free (hfree e he))
          · intro partitions h
            cases h
      | some partitions =>
          constructor
          · rintro ⟨⟨-, htarget⟩, -⟩ partitions' h
            obtain rfl := Option.some.inj h
            rw [(deliver_of_paused alert hpaused).2, List.forall_mem_cons] at htarget
            have hfirst := htarget.1
            rw [target_pausing ⟨_, Or.inl rfl⟩] at hfirst
            by_contra hne
            rw [if_neg hne] at hfirst
            rcases hfirst with h | h <;> cases h
          · intro h
            obtain rfl : partitions = [] := h partitions rfl
            refine ⟨⟨Or.inl rfl, ?_⟩, ?_⟩
            · intro e he
              rcases pausing_of_paused alert hpaused e he with hfree | hpausing
              · exact Or.inl (target_of_free hfree)
              · exact Or.inl (target_pausing hpausing)
            · intro hflow
              rw [stillPaused_deliver_iff alert hflow]
              rintro ⟨⟨partitions, hpart, hne⟩, -⟩
              rw [hpaused] at hpart
              exact hne (Option.some.inj hpart).symm

end functions

theorem released_of_quiet {σ ε α : Type} {own : ConsumerId} {it : Iteration σ ε α}
    (h : it.effects = []) :
    (∀ e ∈ it.effects, e.target = none ∨ e.target = some own) ∧
      (it.flow ≠ .pending → stillPaused it.effects = []) := by
  rw [h]
  exact ⟨fun e he => (by cases he), fun _ => rfl⟩

/-- **When backpressure stays local and is released**: the pauses of each function are about its own
consumer and none is left after a message that is done, exactly when every pause of `consume_logs`
is released and `consume_alerts` never has a partition to pause. -/
theorem backpressure_local_iff (settings : LogSettings) (logEvents : List LogLoopEvent)
    (alertEvents : List AlertLoopEvent) :
    (LocalAndReleased .logs (consumeLogs settings logEvents) ∧
      LocalAndReleased .alerts (consumeAlerts settings.formats settings.pausing alertEvents)) ↔
    (∀ it ∈ consumeLogs settings logEvents, ∀ m, it.event = .message m →
      ReleasesLogs settings it.state m) ∧
    ∀ it ∈ consumeAlerts settings.formats settings.pausing alertEvents, ∀ m, it.event = .message m →
      NeverPauses settings.formats settings.pausing m := by
  unfold consumeLogs consumeAlerts
  rw [localAndReleased_iff, localAndReleased_iff]
  refine and_congr (forall₂_congr fun it hit => ?_) (forall₂_congr fun it hit => ?_)
  · have hhandle := eq_handle_of_mem hit
    cases hevent : it.event with
    | message m =>
        rw [hevent] at hhandle
        obtain ⟨heffects, hflow⟩ := Prod.mk.inj hhandle
        rw [heffects, hflow]
        refine (released_logMessage_iff settings it.state m).trans ?_
        simp
    | cleanup nowMs =>
        rw [hevent] at hhandle
        exact iff_of_true (released_of_quiet (Prod.mk.inj hhandle).1) fun m h => by cases h
    | consumerError =>
        rw [hevent] at hhandle
        exact iff_of_true (released_of_quiet (Prod.mk.inj hhandle).1) fun m h => by cases h
    | streamEnd =>
        rw [hevent] at hhandle
        exact iff_of_true (released_of_quiet (Prod.mk.inj hhandle).1) fun m h => by cases h
  · have hhandle := eq_handle_of_mem hit
    cases hevent : it.event with
    | message m =>
        rw [hevent] at hhandle
        obtain ⟨heffects, hflow⟩ := Prod.mk.inj hhandle
        rw [heffects, hflow]
        refine (released_alertMessage_iff settings.formats settings.pausing m).trans ?_
        simp
    | consumerError =>
        rw [hevent] at hhandle
        exact iff_of_true (released_of_quiet (Prod.mk.inj hhandle).1) fun m h => by cases h

/-! ### Two messages -/

def portScanText : String :=
  "\x7b\"id\":\"7d0a8a3e-3b7f-4a53-9a55-6f0f3a1c9b10\",\"tenant_id\":\"acme\",\"rule_id\":\"r1\"," ++
  "\"rule_name\":\"ports\",\"severity\":\"HIGH\",\"description\":\"scan\",\"source_ip\":\"10.0.0.7\"," ++
  "\"events\":[],\"first_seen\":\"2026-01-01T00:00:00Z\",\"last_seen\":\"2026-01-01T00:00:00Z\"," ++
  "\"status\":\"NEW\",\"events_count\":1\x7d"

def portScanJson : Json :=
  .obj [("id", .str "7d0a8a3e-3b7f-4a53-9a55-6f0f3a1c9b10"), ("tenant_id", .str "acme"),
    ("rule_id", .str "r1"), ("rule_name", .str "ports"), ("severity", .str "HIGH"),
    ("description", .str "scan"), ("source_ip", .str "10.0.0.7"), ("events", .arr []),
    ("first_seen", .str "2026-01-01T00:00:00Z"), ("last_seen", .str "2026-01-01T00:00:00Z"),
    ("status", .str "NEW"), ("events_count", .num (.posInt 1))]

def portScanPayload : List UInt8 := portScanText.toUTF8.toList

/-- What the parsers make of the texts below. -/
def sampleFormats : TextFormats where
  parseJson := fun bytes => if bytes = portScanPayload then some portScanJson else none
  parseUuid := some
  parseDateTime := fun s => if s = "2026-01-01T00:00:00Z" then some (.ofSeconds 1767225600) else none

def samplePausing : PauseSettings := ⟨true, 100, true⟩

/-- A channel with room after ten milliseconds. -/
def busyDelivery : DeliveryEnv where
  trySend := .full
  send := .room 10
  consumers
    | .logs => ⟨.ok [⟨"siem-logs", 0⟩], true, true⟩
    | .alerts => ⟨.ok [⟨"siem-alerts", 0⟩], true, true⟩

def sampleSettings : LogSettings where
  formats := { sampleFormats with parseJson := fun _ => none }
  limiter := ⟨fun q => q, 1000, 60000, 10, fun _ => 0⟩
  pausing := samplePausing
  hasIndexer := true

/-- A payload that is an opening brace. -/
def brokenMessage : LogMessage where
  payload := some [123]
  nowMs := 1767225600000
  redis := .ok true
  delivery := busyDelivery
  indexer := .ok

theorem brokenMessage_not_accounted :
    ∃ it ∈ consumeLogs sampleSettings [.message brokenMessage], it.event = .message brokenMessage ∧
      ¬ Accounted sampleSettings.formats brokenMessage it.effects it.flow := by
  have hlog : logOfPayload sampleSettings.formats brokenMessage.payload = none := rfl
  refine ⟨_, by rw [consumeLogs, iterations_cons]; exact List.mem_cons_self, rfl, ?_⟩
  rw [show (logIteration sampleSettings (fun _ => none) (.message brokenMessage)) =
    handleLogMessage sampleSettings (fun _ => none) brokenMessage from rfl, accounted_iff]
  rintro ⟨log, hsome, -⟩
  rw [hlog] at hsome
  cases hsome

theorem portScanPayload_parses : sampleFormats.parseJson portScanPayload = some portScanJson :=
  if_pos rfl

def portScanMessage : AlertMessage := ⟨some portScanPayload, busyDelivery⟩

theorem not_local_of_pauses {formats : TextFormats} {settings : PauseSettings} {m : AlertMessage}
    (h : ¬ NeverPauses formats settings m) :
    ¬ LocalAndReleased .alerts (consumeAlerts formats settings [.message m]) := by
  unfold consumeAlerts
  rw [localAndReleased_iff]
  intro hlocal
  have hfirst := hlocal _ (by rw [iterations_cons]; exact List.mem_cons_self)
  exact h ((released_alertMessage_iff formats settings m).mp hfirst)

/-- The function for alerts pauses a partition of the topic of logs. -/
theorem portScanMessage_not_local :
    ¬ LocalAndReleased .alerts (consumeAlerts sampleFormats samplePausing
      [.message portScanMessage]) := by
  refine not_local_of_pauses fun hnever => ?_
  obtain ⟨alert, halert⟩ := Option.isSome_iff_exists.mp
    (show (Alert.fromValue sampleFormats portScanJson).isSome = true by decide +kernel)
  rw [← alertOfPayload_of_parse portScanPayload_parses] at halert
  cases hnever alert halert [⟨"siem-logs", 0⟩] rfl

end MiniSiem

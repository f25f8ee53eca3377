import MiniSiem.Json

/-! # Logs, alerts and the text predicates on them

The records that travel through the pipeline (`types/log.rs`, `types/alert.rs`,
`types/tag.rs`) and the string tests of the detection path.

* A `Uuid` is only compared and printed, so it is its canonical text.
* A `DateTime` is a number of nanoseconds since the Unix epoch within the range of `chrono`;
  `timestamp` is the floor to whole seconds.
* `Text.contains`, `Text.startsWith` and `Text.endsWith` are the `str` methods of the same
  name on characters. -/

namespace MiniSiem

namespace Text

/-- `str::contains` with a string pattern. -/
def contains (s p : String) : Bool := decide (p.toList <:+: s.toList)

/-- `str::starts_with`. -/
def startsWith (s p : String) : Bool := decide (p.toList <+: s.toList)

/-- `str::ends_with`. -/
def endsWith (s p : String) : Bool := decide (p.toList <:+ s.toList)

/-- The upper-case form of a character, where that form is ASCII; every other character is
kept, since its upper-case form is never compared equal to an ASCII letter. -/
def upperChar (c : Char) : List Char :=
  if 'a' ≤ c ∧ c ≤ 'z' then [Char.ofNat (c.toNat - 32)]
  else match c.toNat with
    | 0xDF => ['S', 'S']
    | 0x131 => ['I']
    | 0x17F => ['S']
    | 0xFB00 => ['F', 'F']
    | 0xFB01 => ['F', 'I']
    | 0xFB02 => ['F', 'L']
    | 0xFB03 => ['F', 'F', 'I']
    | 0xFB04 => ['F', 'F', 'L']
    | 0xFB05 => ['S', 'T']
    | 0xFB06 => ['S', 'T']
    | _ => [c]

/-- `str::to_uppercase`, as far as comparisons with ASCII words can tell. -/
def toUppercase (s : String) : String := String.ofList (s.toList.flatMap upperChar)

end Text

abbrev Uuid := String

/-- The seconds of `DateTime::<Utc>::MIN_UTC` and `MAX_UTC`. -/
def minSeconds : ℤ := -8334601228800
def maxSeconds : ℤ := 8210266876799

/-- Nanoseconds since the Unix epoch, in the range of `chrono`. -/
abbrev DateTime := {t : ℤ // minSeconds * 1000000000 ≤ t ∧ t < (maxSeconds + 1) * 1000000000}

namespace DateTime

/-- A whole number of seconds after the epoch. -/
def ofSeconds (s : ℕ) (h : Nat.ble s 8210266876799 = true := by exact Eq.refl true) : DateTime :=
  ⟨s * 1000000000, by
    have hs := Nat.le_of_ble_eq_true h
    unfold minSeconds maxSeconds
    omega⟩

/-- The later and the earlier of two times. -/
def later (t u : DateTime) : DateTime := if t.1 ≤ u.1 then u else t
def earlier (t u : DateTime) : DateTime := if t.1 ≤ u.1 then t else u

/-- `DateTime::timestamp`: whole seconds, rounded down. -/
def timestamp (t : DateTime) : ℤ := t.1 / 1000000000

theorem timestamp_bounds (t : DateTime) : minSeconds ≤ t.timestamp ∧ t.timestamp ≤ maxSeconds := by
  obtain ⟨t, h₁, h₂⟩ := t
  unfold timestamp minSeconds maxSeconds at *
  simp only
  omega

theorem timestamp_mono {t u : DateTime} (h : t ≤ u) : t.timestamp ≤ u.timestamp :=
  Int.ediv_le_ediv (by norm_num) h

end DateTime

inductive LogTag where
  | auth
  | network
  | malware
deriving DecidableEq, Repr

inductive LogSeverity where
  | critical
  | high
  | medium
  | low
  | info
  | debug
deriving DecidableEq, Repr

/-- `Display` of a log severity. -/
def LogSeverity.toString : LogSeverity → String
  | critical => "CRITICAL"
  | high => "HIGH"
  | medium => "MEDIUM"
  | low => "LOW"
  | info => "INFO"
  | debug => "DEBUG"

structure Log where
  id : Uuid
  tenantId : String
  timestamp : DateTime
  eventType : String
  sourceIp : String
  targetUser : Option String
  service : Option String
  message : String
  severity : LogSeverity
  metadata : Json
  receivedAt : DateTime

namespace Log

def isFailedLogin (log : Log) : Bool :=
  Text.contains log.eventType "login_failed" ||
  Text.contains log.message "Failed password" ||
  Text.contains log.message "authentication failure"

def isSuccessfulLogin (log : Log) : Bool :=
  Text.contains log.eventType "login_success" ||
  Text.contains log.message "Accepted password"

end Log

inductive AlertSeverity where
  | critical
  | high
  | medium
  | low
  | info
deriving DecidableEq, Repr

/-- `Display` of an alert severity. -/
def AlertSeverity.toString : AlertSeverity → String
  | critical => "CRITICAL"
  | high => "HIGH"
  | medium => "MEDIUM"
  | low => "LOW"
  | info => "INFO"

/-- `FromStr` of an alert severity. -/
def AlertSeverity.fromStr (s : String) : Option AlertSeverity :=
  match Text.toUppercase s with
  | "CRITICAL" => some critical
  | "HIGH" => some high
  | "MEDIUM" => some medium
  | "LOW" => some low
  | "INFO" => some info
  | _ => none

inductive AlertStatus where
  | new
  | investigating
  | resolved
  | falsePositive
deriving DecidableEq, Repr

/-- `Display` of an alert status. -/
def AlertStatus.toString : AlertStatus → String
  | new => "NEW"
  | investigating => "INVESTIGATING"
  | resolved => "RESOLVED"
  | falsePositive => "FALSEPOSITIVE"

/-- `FromStr` of an alert status. -/
def AlertStatus.fromStr (s : String) : Option AlertStatus :=
  match Text.toUppercase s with
  | "NEW" => some new
  | "INVESTIGATING" => some investigating
  | "RESOLVED" => some resolved
  | "FALSEPOSITIVE" => some falsePositive
  | _ => none

structure Alert where
  id : Uuid
  tenantId : String
  ruleId : String
  ruleName : String
  severity : AlertSeverity
  description : String
  sourceIp : String
  events : List Log
  firstSeen : DateTime
  lastSeen : DateTime
  status : AlertStatus
  eventsCount : UInt64

/-- `Alert::new` at time `now` with the generated id `id`. -/
def Alert.new (id : Uuid) (now : DateTime) (tenantId ruleId ruleName : String)
    (severity : AlertSeverity) (description sourceIp : String) (events : List Log) : Alert where
  id := id
  tenantId := tenantId
  ruleId := ruleId
  ruleName := ruleName
  severity := severity
  description := description
  sourceIp := sourceIp
  events := events
  firstSeen := now
  lastSeen := now
  status := .new
  eventsCount := UInt64.ofNat events.length

/-! ### Printed forms are read back -/

@[simp] theorem AlertSeverity.fromStr_toString (s : AlertSeverity) :
    AlertSeverity.fromStr s.toString = some s := by
  cases s <;> decide

@[simp] theorem AlertStatus.fromStr_toString (s : AlertStatus) :
    AlertStatus.fromStr s.toString = some s := by
  cases s <;> decide

end MiniSiem

import MiniSiem.Types

/-! # Normalization to the common schema

`normalize_log` and `parse_ssh_log` of `utils/normalization.rs`.

The two expressions `Accepted password for (?P<user>\\S+) from (?P<ip>\\S+) port (?P<port>\\d+)`
and `Failed password for …` are searched from the left.  A run `\\S+` is followed by a literal
that starts with a blank, so it always is a maximal run of non-white-space characters and the
search needs no backtracking inside a candidate: `captureAt` tries one start position and
`captures` the positions in turn. -/

namespace MiniSiem

/-- `char::is_whitespace` (the Unicode `White_Space` property, also `\\s` of a regex). -/
def isWhitespace (c : Char) : Bool :=
  let n := c.toNat
  (9 ≤ n && n ≤ 13) || n == 0x20 || n == 0x85 || n == 0xA0 || n == 0x1680 ||
  (0x2000 ≤ n && n ≤ 0x200A) || n == 0x2028 || n == 0x2029 || n == 0x202F || n == 0x205F ||
  n == 0x3000

/-- The zero digits of the decimal digit blocks of Unicode. -/
def digitZeros : List ℕ :=
  [0x30, 0x660, 0x6F0, 0x7C0, 0x966, 0x9E6, 0xA66, 0xAE6, 0xB66, 0xBE6, 0xC66, 0xCE6, 0xD66,
   0xDE6, 0xE50, 0xED0, 0xF20, 0x1040, 0x1090, 0x17E0, 0x1810, 0x1946, 0x19D0, 0x1A80, 0x1A90,
   0x1B50, 0x1BB0, 0x1C40, 0x1C50, 0xA620, 0xA8D0, 0xA900, 0xA9D0, 0xA9F0, 0xAA50, 0xABF0,
   0xFF10, 0x104A0, 0x10D30, 0x10D40, 0x11066, 0x110F0, 0x11136, 0x111D0, 0x112F0, 0x11450,
   0x114D0, 0x11650, 0x116C0, 0x116D0, 0x116DA, 0x11730, 0x118E0, 0x11950, 0x11BF0, 0x11C50,
   0x11D50, 0x11DA0, 0x11F50, 0x16130, 0x16A60, 0x16AC0, 0x16B50, 0x16D70, 0x1CCF0, 0x1D7CE,
   0x1D7D8, 0x1D7E2, 0x1D7EC, 0x1D7F6, 0x1E140, 0x1E2F0, 0x1E4F0, 0x1E5F1, 0x1E950, 0x1FBF0]

/-- `\d` of a regex: a decimal digit of any script. -/
def isDecimalDigit (c : Char) : Bool :=
  digitZeros.any (fun z => z ≤ c.toNat && c.toNat < z + 10)

def isAsciiDigit (c : Char) : Bool := '0' ≤ c && c ≤ '9'

/-- The rest of `s` after the literal `p`. -/
def stripLiteral : List Char → List Char → Option (List Char)
  | [], s => some s
  | _ :: _, [] => none
  | p :: ps, c :: s => if p = c then stripLiteral ps s else none

/-- A non-empty maximal run of characters satisfying `f`, and the rest. -/
def takeRun (f : Char → Bool) (s : List Char) : Option (String × List Char) :=
  match s.span f with
  | ([], _) => none
  | (run, rest) => some (String.ofList run, rest)

structure SshCaptures where
  user : String
  ip : String
  port : String

/-- The match of the expression with the literal head `lead` that starts at the head of `s`. -/
def captureAt (lead s : List Char) : Option SshCaptures := do
  let s ← stripLiteral lead s
  let (user, s) ← takeRun (fun c => !isWhitespace c) s
  let s ← stripLiteral " from ".toList s
  let (ip, s) ← takeRun (fun c => !isWhitespace c) s
  let s ← stripLiteral " port ".toList s
  let (port, _) ← takeRun isDecimalDigit s
  return ⟨user, ip, port⟩

/-- `Regex::captures`: the leftmost match. -/
def captures (lead : List Char) : List Char → Option SshCaptures
  | [] => captureAt lead []
  | c :: s =>
      match captureAt lead (c :: s) with
      | some m => some m
      | none => captures lead s

def sshAcceptedRe (message : String) : Option SshCaptures :=
  captures "Accepted password for ".toList message.toList

def sshFailedRe (message : String) : Option SshCaptures :=
  captures "Failed password for ".toList message.toList

/-- `str::parse::<u16>` on a run of digits: ASCII digits only, at most `65535`. -/
def parseU16 (s : String) : Option ℕ :=
  if s.toList.all isAsciiDigit && !s.toList.isEmpty then
    let n := s.toList.foldl (fun n c => 10 * n + (c.toNat - '0'.toNat)) 0
    if n < 2 ^ 16 then some n else none
  else none

/-- The part of `EcsLog` that normalization fills. -/
structure EcsLog where
  timestamp : DateTime
  logLevel : Option String := none
  message : Option String := none
  eventKind : Option String := none
  eventCategory : List String := []
  eventType : List String := []
  eventOutcome : Option String := none
  sourceIp : Option String := none
  sourcePort : Option ℕ := none
  userName : Option String := none
  labels : List (String × String) := []
  eventOriginal : Option String := none
  eventId : Uuid

def EcsLog.withSsh (ecs : EcsLog) (m : SshCaptures) : EcsLog :=
  { ecs with userName := some m.user, sourceIp := some m.ip, sourcePort := parseU16 m.port }

def parseSshLog (message : String) (ecs : EcsLog) : EcsLog :=
  match sshAcceptedRe message with
  | some m => ecs.withSsh m
  | none =>
      match sshFailedRe message with
      | some m => ecs.withSsh m
      | none => ecs

/-- The authentication heuristics of `normalize_log`. -/
def EcsLog.withAuthentication (ecs : EcsLog) (log : Log) : EcsLog :=
  if log.isFailedLogin then
    { ecs with
      eventCategory := ecs.eventCategory ++ ["authentication"]
      eventType := ecs.eventType ++ ["authentication_failure"]
      eventOutcome := some "failure" }
  else if log.isSuccessfulLogin then
    { ecs with
      eventCategory := ecs.eventCategory ++ ["authentication"]
      eventType := ecs.eventType ++ ["authentication_success"]
      eventOutcome := some "success" }
  else ecs

def EcsLog.withService (ecs : EcsLog) (log : Log) : EcsLog :=
  match log.service with
  | none => ecs
  | some service =>
      let ecs := { ecs with labels := ("service", service) :: ecs.labels }
      if service = "ssh" ∨ service = "sshd" then parseSshLog log.message ecs else ecs

def EcsLog.withUser (ecs : EcsLog) (log : Log) : EcsLog :=
  match log.targetUser with
  | none => ecs
  | some user => { ecs with userName := some user }

def normalizeLog (log : Log) : EcsLog :=
  let ecs : EcsLog :=
    { timestamp := log.timestamp
      eventId := log.id
      message := some log.message
      eventOriginal := some log.message
      sourceIp := some log.sourceIp
      logLevel := some log.severity.toString
      eventKind := some "event" }
  ((ecs.withAuthentication log).withService log).withUser log

end MiniSiem

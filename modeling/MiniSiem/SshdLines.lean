import MiniSiem.Normalization

/-! # Login lines of sshd

What `normalize_log` (`utils/normalization.rs`) reads from the login lines of sshd.  The two expressions are
tried one after the other on the whole message.

* **Words.**  A literal that starts with a word and a blank matches no place of a word after which the text
  does not go on like the literal (`captures_word`).
* **Fields.**  Behind the literal of its own expression a line gives its user name, address and port
  (`captureAt_fields`); an expression that does not match at the head finds nothing before the suffix
  (`captures_fields`).
* **Lines.**  `sshd_normalized_iff`: what becomes of the three shapes of lines.  An expression has no place
  for the words `invalid user`. -/

namespace MiniSiem

/-- Not empty, and without white space. -/
def IsWord (s : String) : Prop := s.toList ≠ [] ∧ ∀ c ∈ s.toList, isWhitespace c = false

instance (s : String) : Decidable (IsWord s) :=
  @instDecidableAnd _ _ _ (List.decidableBAll (fun c => isWhitespace c = false) s.toList)

/-- What a login line says. -/
structure SshdLogin where
  user : String
  ip : String
  port : UInt16
  user_word : IsWord user
  ip_word : IsWord ip

inductive SshdShape
  | accepted
  | failed
  | failedInvalidUser
deriving DecidableEq

/-- The text in front of the user name. -/
def SshdShape.lead : SshdShape → String
  | accepted => "Accepted password for "
  | failed => "Failed password for "
  | failedInvalidUser => "Failed password for invalid user "

namespace SshdLogin

variable (l : SshdLogin)

/-- The line with a suffix. -/
def line (shape : SshdShape) (suffix : String) : String :=
  shape.lead ++ l.user ++ " from " ++ l.ip ++ " port " ++ l.port.toNat.repr ++ " " ++ suffix

/-- The normalized log has the three fields of the line. -/
def ReportedBy (ecs : EcsLog) : Prop :=
  ecs.userName = some l.user ∧ ecs.sourceIp = some l.ip ∧ ecs.sourcePort = some l.port.toNat

/-- The captures say what the line says. -/
def SaidBy (m : SshCaptures) : Prop := m.user = l.user ∧ m.ip = l.ip ∧ parseU16 m.port = some l.port.toNat

/-- Which suffixes leave the line to be read: for a failed login, one in which the first expression finds
nothing else; for an invalid user, one in which an expression finds what the line says. -/
def ReadWith (suffix : String) : SshdShape → Prop
  | .accepted => True
  | .failed => ∀ m ∈ sshAcceptedRe suffix, l.SaidBy m
  | .failedInvalidUser => ∃ m ∈ (sshAcceptedRe suffix).or (sshFailedRe suffix), l.SaidBy m

end SshdLogin

/-! ### Literals and words -/

theorem stripLiteral_append (p s : List Char) : stripLiteral p (p ++ s) = some s := by
  induction p with
  | nil => rfl
  | cons c p ih => exact (if_pos rfl).trans ih

theorem eq_of_stripLiteral {p s t : List Char} (h : stripLiteral p s = some t) : s = p ++ t := by
  induction p generalizing s with
  | nil => exact Option.some.inj h
  | cons c p ih =>
      cases s with
      | nil => cases h
      | cons d s =>
          rw [stripLiteral] at h
          split_ifs at h with hcd
          rw [hcd, ih h]
          rfl

theorem takeRun_append {f : Char → Bool} {w : List Char} {c : Char} (hne : w ≠ []) (hw : ∀ d ∈ w, f d = true)
    (hc : f c = false) (s : List Char) : takeRun f (w ++ c :: s) = some (String.ofList w, c :: s) := by
  have hspan : (w ++ c :: s).span f = (w, c :: s) := by
    rw [List.span_eq_takeWhile_dropWhile, List.takeWhile_append_of_pos hw, List.dropWhile_append_of_pos hw,
      List.takeWhile_cons_of_neg (by rw [hc]; decide), List.dropWhile_cons_of_neg (by rw [hc]; decide),
      List.append_nil]
  obtain ⟨d, w, rfl⟩ := List.exists_cons_of_ne_nil hne
  unfold takeRun
  rw [hspan]

/-- Two texts that start with a word and a blank. -/
theorem word_eq_of_starts {v w s t : List Char} (hv : ' ' ∉ v) (hw : ' ' ∉ w)
    (h : v ++ ' ' :: s <+: w ++ ' ' :: t) : v = w ∧ s <+: t := by
  induction v generalizing w with
  | nil =>
      cases w with
      | nil => exact ⟨rfl, (List.cons_prefix_cons.mp h).2⟩
      | cons d w => exact absurd (List.cons_prefix_cons.mp h).1 (List.ne_of_not_mem_cons hw)
  | cons c v ih =>
      cases w with
      | nil => exact absurd (List.cons_prefix_cons.mp h).1.symm (List.ne_of_not_mem_cons hv)
      | cons d w =>
          obtain ⟨rfl, hrest⟩ := List.cons_prefix_cons.mp h
          obtain ⟨rfl, hst⟩ := ih (List.not_mem_of_not_mem_cons hv) (List.not_mem_of_not_mem_cons hw) hrest
          exact ⟨rfl, hst⟩

theorem captureAt_none {lead s : List Char} (h : ¬ lead <+: s) : captureAt lead s = none := by
  unfold captureAt
  cases hstrip : stripLiteral lead s with
  | none => rfl
  | some t => exact absurd ⟨t, (eq_of_stripLiteral hstrip).symm⟩ h

theorem captures_cons_of_none {lead s : List Char} {c : Char} (h : captureAt lead (c :: s) = none) :
    captures lead (c :: s) = captures lead s := by
  rw [captures, h]

/-- A word after which the text does not go on like the literal is passed over. -/
theorem captures_word {first next w s : List Char} (hfirst : ' ' ∉ first) (hw : ' ' ∉ w)
    (h : first <:+ w → ¬ next <+: s) :
    captures (first ++ ' ' :: next) (w ++ ' ' :: s) = captures (first ++ ' ' :: next) s := by
  induction w with
  | nil =>
      refine captures_cons_of_none (captureAt_none fun hlead => ?_)
      obtain ⟨rfl, hnext⟩ := word_eq_of_starts (w := []) hfirst hw hlead
      exact h (List.suffix_refl _) hnext
  | cons c w ih =>
      have hhead : captureAt (first ++ ' ' :: next) (c :: (w ++ ' ' :: s)) = none := by
        refine captureAt_none fun hlead => ?_
        obtain ⟨rfl, hnext⟩ := word_eq_of_starts (w := c :: w) hfirst hw hlead
        exact h (List.suffix_refl _) hnext
      rw [List.cons_append, captures_cons_of_none hhead]
      exact ih (List.not_mem_of_not_mem_cons hw) fun hsuffix => h (hsuffix.trans (List.suffix_cons c w))

/-! ### Fields -/

theorem isDecimalDigit_of_isDigit {c : Char} (h : c.isDigit = true) : isDecimalDigit c = true := by
  unfold Char.isDigit at h
  rw [Bool.and_eq_true, decide_eq_true_iff, decide_eq_true_iff] at h
  obtain ⟨hlow, hhigh⟩ := h
  have hlow : 0x30 ≤ c.toNat := hlow
  have hhigh : c.toNat ≤ 57 := hhigh
  refine List.any_eq_true.mpr ⟨0x30, List.mem_cons_self, ?_⟩
  simp only [Bool.and_eq_true, decide_eq_true_iff]
  omega

/-- A port number is read back. -/
theorem parseU16_repr (n : UInt16) : parseU16 n.toNat.repr = some n.toNat := by
  have hdigits : (Nat.toDigits 10 n.toNat).all isAsciiDigit = true := by
    refine List.all_eq_true.mpr fun c hc => ?_
    exact Nat.isDigit_of_mem_toDigits (by norm_num) (by norm_num) hc
  have hvalue : (Nat.toDigits 10 n.toNat).foldl (fun n c => 10 * n + (c.toNat - '0'.toNat)) 0 = n.toNat :=
    Nat.ofDigitChars_ten_toDigits
  have hsize : n.toNat < 2 ^ 16 := n.toNat_lt
  unfold parseU16
  rw [Nat.toList_repr, hdigits, hvalue, List.isEmpty_eq_false_iff.mpr Nat.toDigits_ne_nil]
  exact if_pos hsize

namespace SshdLogin

variable (l : SshdLogin)

def digits : List Char := Nat.toDigits 10 l.port.toNat

/-- The line behind its literal, word by word. -/
def fields (suffix : List Char) : List Char :=
  l.user.toList ++ ' ' :: ("from".toList ++ ' ' :: (l.ip.toList ++ ' ' :: ("port".toList ++ ' ' ::
    (l.digits ++ ' ' :: suffix))))

def captured : SshCaptures := ⟨l.user, l.ip, String.ofList l.digits⟩

theorem toList_line (shape : SshdShape) (suffix : String) :
    (l.line shape suffix).toList = shape.lead.toList ++ l.fields suffix.toList := by
  unfold line fields digits
  simp only [String.toList_append, Nat.toList_repr, List.append_assoc]
  rfl

theorem saidBy_captured : l.SaidBy l.captured :=
  ⟨rfl, rfl, by rw [captured, digits, ← Nat.repr_eq_ofList_toDigits, parseU16_repr]⟩

end SshdLogin

theorem blank_not_mem {s : String} (h : IsWord s) : ' ' ∉ s.toList :=
  fun hmem => absurd (h.2 ' ' hmem) (by decide)

theorem takeRun_word {w : String} (h : IsWord w) (s : List Char) :
    takeRun (fun c => !isWhitespace c) (w.toList ++ ' ' :: s) = some (w, ' ' :: s) := by
  rw [takeRun_append h.1 (fun c hc => by rw [h.2 c hc]; rfl) rfl, String.ofList_toList]

/-- Behind its literal a line has the three fields. -/
theorem captureAt_fields (l : SshdLogin) (lead suffix : List Char) :
    captureAt lead (lead ++ l.fields suffix) = some l.captured := by
  have hport : takeRun isDecimalDigit (l.digits ++ ' ' :: suffix) =
      some (String.ofList l.digits, ' ' :: suffix) := by
    refine takeRun_append Nat.toDigits_ne_nil (fun c hc => ?_) rfl suffix
    exact isDecimalDigit_of_isDigit (Nat.isDigit_of_mem_toDigits (by norm_num) (by norm_num) hc)
  have hfrom : ∀ rest, stripLiteral " from ".toList (' ' :: ("from".toList ++ ' ' :: rest)) = some rest :=
    stripLiteral_append " from ".toList
  have hto : ∀ rest, stripLiteral " port ".toList (' ' :: ("port".toList ++ ' ' :: rest)) = some rest :=
    stripLiteral_append " port ".toList
  unfold captureAt SshdLogin.fields
  simp only [stripLiteral_append, takeRun_word l.user_word, hfrom, takeRun_word l.ip_word, hto, hport,
    Option.bind_eq_bind, Option.bind_some]
  rfl

/-- The literal of an expression after its first word. -/
def afterFirst : List Char := "password for ".toList

/-- The literal goes on with two words of its own. -/
theorem not_afterFirst {w s : List Char} (hw : ' ' ∉ w)
    (h : w = "password".toList → ¬ "for ".toList <+: s) : ¬ afterFirst <+: w ++ ' ' :: s := by
  intro hstarts
  obtain ⟨heq, hs⟩ := word_eq_of_starts (v := "password".toList) (by decide) hw hstarts
  exact h heq.symm hs

/-- An expression that does not match at the head of a line finds nothing before the suffix. -/
theorem captures_fields (l : SshdLogin) (first : List Char) (hfirst : ' ' ∉ first)
    (hletter : ∃ c ∈ first, c.isDigit = false) (suffix : List Char) :
    captures (first ++ ' ' :: afterFirst) (l.fields suffix) =
      captures (first ++ ' ' :: afterFirst) suffix := by
  have hdigits : ∀ c ∈ l.digits, c.isDigit = true := fun c hc =>
    Nat.isDigit_of_mem_toDigits (by norm_num) (by norm_num) hc
  have hblank : ' ' ∉ l.digits := fun hmem => absurd (hdigits ' ' hmem) (by decide)
  have hfrom : ∀ s, ¬ afterFirst <+: "from".toList ++ ' ' :: s := fun s =>
    not_afterFirst (by decide) fun heq => absurd heq (by decide)
  have hport : ∀ s, ¬ afterFirst <+: "port".toList ++ ' ' :: s := fun s =>
    not_afterFirst (by decide) fun heq => absurd heq (by decide)
  have hip : ∀ s, ¬ afterFirst <+: l.ip.toList ++ ' ' :: ("port".toList ++ s) := fun s =>
    not_afterFirst (blank_not_mem l.ip_word) fun _ hstarts =>
      absurd (List.cons_prefix_cons.mp hstarts).1 (by decide)
  have hnumber : ∀ s, ¬ afterFirst <+: l.digits ++ ' ' :: s := fun s =>
    not_afterFirst hblank fun heq => absurd (hdigits 'p' (heq ▸ by decide)) (by decide)
  have hsuffix : ¬ first <:+ l.digits := by
    intro hends
    obtain ⟨c, hc, hletter⟩ := hletter
    exact absurd (hdigits c (hends.subset hc)) (by rw [hletter]; decide)
  unfold SshdLogin.fields
  rw [captures_word hfirst (blank_not_mem l.user_word) fun _ => hfrom _,
    captures_word hfirst (by decide) fun _ => hip _,
    captures_word hfirst (blank_not_mem l.ip_word) fun _ => hport _,
    captures_word hfirst (by decide) fun _ => hnumber _,
    captures_word hfirst hblank fun hends => absurd hends hsuffix]

/-! ### Lines -/

theorem captures_of_captureAt {lead s : List Char} {m : SshCaptures} (h : captureAt lead s = some m) :
    captures lead s = some m := by
  cases s with
  | nil => exact h
  | cons c s => rw [captures, h]

/-- Words that do not end with the first word of the literal are passed over. -/
theorem captures_words (first next : List Char) (ws : List (List Char)) (hfirst : ' ' ∉ first)
    (h : ∀ w ∈ ws, ' ' ∉ w ∧ ¬ first <:+ w) (s : List Char) :
    captures (first ++ ' ' :: next) (ws.foldr (fun w s => w ++ ' ' :: s) s) =
      captures (first ++ ' ' :: next) s := by
  induction ws with
  | nil => rfl
  | cons w ws ih =>
      obtain ⟨⟨hw, hends⟩, hrest⟩ := List.forall_mem_cons.mp h
      rw [List.foldr_cons, captures_word hfirst hw fun h => absurd h hends, ih hrest]

section lines

variable (l : SshdLogin) (suffix : String)

theorem sshAcceptedRe_accepted : sshAcceptedRe (l.line .accepted suffix) = some l.captured := by
  unfold sshAcceptedRe
  rw [l.toList_line]
  exact captures_of_captureAt (captureAt_fields l _ _)

theorem sshFailedRe_failed : sshFailedRe (l.line .failed suffix) = some l.captured := by
  unfold sshFailedRe
  rw [l.toList_line]
  exact captures_of_captureAt (captureAt_fields l _ _)

/-- The first expression finds nothing in a line of a failed login. -/
theorem sshAcceptedRe_failed {shape : SshdShape} (h : shape ≠ .accepted) :
    sshAcceptedRe (l.line shape suffix) = sshAcceptedRe suffix := by
  have hfields := captures_fields l "Accepted".toList (by decide) ⟨'d', by decide, rfl⟩
    suffix.toList
  unfold sshAcceptedRe
  rw [l.toList_line]
  cases shape with
  | accepted => exact absurd rfl h
  | failed =>
      exact (captures_words _ afterFirst ["Failed".toList, "password".toList, "for".toList]
        (by decide) (by decide) _).trans hfields
  | failedInvalidUser =>
      exact (captures_words _ afterFirst ["Failed".toList, "password".toList, "for".toList, "invalid".toList,
        "user".toList] (by decide) (by decide) _).trans hfields

/-- Behind the word `invalid` the second expression expects `from`. -/
theorem captureAt_invalidUser (s : List Char) :
    captureAt "Failed password for ".toList (SshdShape.failedInvalidUser.lead.toList ++ s) = none := by
  have hword : takeRun (fun c => !isWhitespace c) ("invalid".toList ++ ' ' :: ("user ".toList ++ s)) =
      some ("invalid", ' ' :: ("user ".toList ++ s)) := takeRun_word (by decide) _
  have hfrom : stripLiteral " from ".toList (' ' :: ("user ".toList ++ s)) = none := rfl
  have hlead : SshdShape.failedInvalidUser.lead.toList =
      "Failed password for ".toList ++ ("invalid".toList ++ ' ' :: "user ".toList) := by decide
  rw [hlead, List.append_assoc, List.append_assoc, List.cons_append]
  unfold captureAt
  simp only [stripLiteral_append, hword, hfrom, Option.bind_eq_bind, Option.bind_some, Option.bind_none]

theorem sshFailedRe_invalidUser :
    sshFailedRe (l.line .failedInvalidUser suffix) = sshFailedRe suffix := by
  have hfields := captures_fields l "Failed".toList (by decide) ⟨'d', by decide, rfl⟩
    suffix.toList
  have hwords := captures_words "Failed".toList afterFirst
    ["ailed".toList, "password".toList, "for".toList, "invalid".toList, "user".toList]
    (by decide) (by decide) (l.fields suffix.toList)
  unfold sshFailedRe
  rw [l.toList_line]
  exact (captures_cons_of_none (captureAt_invalidUser _)).trans (hwords.trans hfields)

/-- Normalization reports what the expressions find, when the log names no user. -/
theorem reportedBy_iff {log : Log} (hservice : log.service = some "sshd") (htarget : log.targetUser = none) :
    l.ReportedBy (normalizeLog log) ↔
      ∃ m ∈ (sshAcceptedRe log.message).or (sshFailedRe log.message), l.SaidBy m := by
  have hfound : ∀ (ecs : EcsLog) (m : SshCaptures), l.ReportedBy (ecs.withSsh m) ↔ l.SaidBy m :=
    fun _ _ => and_congr Option.some_inj (and_congr Option.some_inj Iff.rfl)
  have hparse : ∀ ecs : EcsLog, ecs.userName = none → (l.ReportedBy (parseSshLog log.message ecs) ↔
      ∃ m ∈ (sshAcceptedRe log.message).or (sshFailedRe log.message), l.SaidBy m) := by
    intro ecs hnone
    have hsome : ∀ m, (∃ m' ∈ some m, l.SaidBy m') ↔ l.SaidBy m := fun m =>
      ⟨fun ⟨_, hm', h⟩ => Option.some.inj hm' ▸ h, fun h => ⟨m, rfl, h⟩⟩
    unfold parseSshLog
    cases sshAcceptedRe log.message with
    | some m => exact (hfound ecs m).trans (hsome m).symm
    | none =>
        rw [Option.none_or]
        cases sshFailedRe log.message with
        | some m => exact (hfound ecs m).trans (hsome m).symm
        | none =>
            refine iff_of_false (fun h => ?_) fun ⟨_, hm, _⟩ => nomatch hm
            exact nomatch hnone.symm.trans h.1
  have huser : ∀ ecs : EcsLog, (ecs.withAuthentication log).userName = ecs.userName := by
    intro ecs
    unfold EcsLog.withAuthentication
    split_ifs <;> rfl
  unfold normalizeLog EcsLog.withUser EcsLog.withService
  rw [hservice, htarget]
  exact hparse _ (huser _)

/-- **The login lines of sshd**: normalization reports what the line says, unless the line is about an invalid
user or another login line in the suffix is read in place of it. -/
theorem sshd_normalized_iff (log : Log) (shape : SshdShape) (hservice : log.service = some "sshd")
    (htarget : log.targetUser = none) (hmessage : log.message = l.line shape suffix) :
    l.ReportedBy (normalizeLog log) ↔ l.ReadWith suffix shape := by
  rw [reportedBy_iff l hservice htarget, hmessage]
  cases shape with
  | accepted =>
      rw [sshAcceptedRe_accepted, Option.some_or]
      exact iff_of_true ⟨_, rfl, l.saidBy_captured⟩ trivial
  | failed =>
      rw [sshAcceptedRe_failed l suffix (by decide), sshFailedRe_failed]
      unfold SshdLogin.ReadWith
      cases sshAcceptedRe suffix with
      | none => exact iff_of_true ⟨_, rfl, l.saidBy_captured⟩ fun _ hm => nomatch hm
      | some m =>
          constructor
          · rintro ⟨_, ⟨⟩, hsaid⟩ _ ⟨⟩
            exact hsaid
          · exact fun h => ⟨m, rfl, h m rfl⟩
  | failedInvalidUser =>
      rw [sshAcceptedRe_failed l suffix (by decide), sshFailedRe_invalidUser]
      exact Iff.rfl

end lines

/-- A login of the log generator. -/
def generatedLogin : SshdLogin where
  user := "user0"
  ip := "192.0.2.10"
  port := 22
  user_word := by decide +kernel
  ip_word := by decide +kernel

/-- A log of sshd with a message and no user. -/
def sshdLog (message : String) : Log where
  id := "0d1e5c1a-2f0b-4c53-9d0e-5b5d8c1f7a10"
  tenantId := "t1"
  timestamp := .ofSeconds 0
  eventType := "login_failed"
  sourceIp := "198.51.100.1"
  targetUser := none
  service := some "sshd"
  message := message
  severity := .info
  metadata := .null
  receivedAt := .ofSeconds 0

theorem failedLogin_reported :
    generatedLogin.ReportedBy (normalizeLog (sshdLog (generatedLogin.line .failed "ssh2"))) :=
  (sshd_normalized_iff generatedLogin "ssh2" _ .failed rfl rfl rfl).mpr fun m hm => by
    rw [show sshAcceptedRe "ssh2" = none by decide +kernel] at hm
    cases hm

/-- The generator's own line: nothing is read from it. -/
theorem invalidUser_not_reported :
    ¬ ∀ (l : SshdLogin) (suffix : String) (log : Log) (shape : SshdShape), log.service = some "sshd" →
      log.targetUser = none → log.message = l.line shape suffix → l.ReportedBy (normalizeLog log) := by
  intro h
  have hreported := h generatedLogin "ssh2" (sshdLog (generatedLogin.line .failedInvalidUser "ssh2"))
    .failedInvalidUser rfl rfl rfl
  have hnone : (normalizeLog (sshdLog (generatedLogin.line .failedInvalidUser "ssh2"))).userName = none := by
    decide +kernel
  exact nomatch hnone.symm.trans hreported.1

end MiniSiem

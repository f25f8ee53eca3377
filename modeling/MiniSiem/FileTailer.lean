import Mathlib.Data.List.TakeWhile
import MiniSiem.AgentLogs
import MiniSiem.Lib.Lines

/-! # The file collector of the agent

`FileCollector` of `agent/collector/file.go` on a file that grows by appends.

* **Scanning.**  `bufio.Scanner` with `ScanLines` yields the terminated lines and, at the end of the
  file, the rest if there is one; a carriage return at the end of a line is dropped.  A line that
  does not fit into the buffer of the scanner ends the scan.
* **Offset.**  The scan reads to the end of the file, and `readNewLines` continues from there.
* **Cuts.**  A read cuts the appended text.  The messages are the lines of the text if every cut is at
  the end of a line or right before a newline; without carriage returns, only then
  (`tailer_delivers_lines`). -/

namespace MiniSiem

/-! ### `bufio.Scanner` -/

def newline : UInt8 := 10
def carriageReturn : UInt8 := 13

/-- `bufio.MaxScanTokenSize`. -/
def maxScanTokenSize : ℕ := 65536

/-- `dropCR`. -/
def dropCR (line : GoString) : GoString :=
  if line.getLast? = some carriageReturn then line.dropLast else line

/-- What `ScanLines` cuts the data into. -/
def segments (data : GoString) : List GoString :=
  Lines.lines newline data ++
    if Lines.rest newline data = [] then [] else [Lines.rest newline data]

/-- The texts of the tokens, and whether the scanner has no error at the end. -/
def scanLines (data : GoString) : List GoString × Bool :=
  (((segments data).takeWhile fun s => s.length < maxScanTokenSize).map dropCR,
    (segments data).all fun s => s.length < maxScanTokenSize)

/-! ### The collector -/

structure FileCollector where
  path : GoString
  tags : StringMap
  offset : ℕ

/-- The offset in `Start`: the size of the file, if it is there. -/
def FileCollector.start (path : GoString) (tags : StringMap) (file : Option GoString) : FileCollector where
  path := path
  tags := tags
  offset := (file.map List.length).getD 0

/-- `readNewLines` of a file that is opened: the logs it hands to the queue.  After an error of the
scanner the file is read up to `stopped`; the clock is read for each log. -/
def FileCollector.readNewLines (fc : FileCollector) (file : GoString) (clock : ℕ → DateTime)
    (stopped : ℕ) : List AgentLog × FileCollector :=
  let unread := file.drop fc.offset
  let (texts, ok) := scanLines unread
  ((texts.filter (· ≠ [])).mapIdx fun i line => newFileLog (clock i) fc.path line fc.tags,
    { fc with offset := if ok then fc.offset + unread.length else stopped })

/-- A monitored file, its collector and the logs pushed to a queue that is never full. -/
structure Tail where
  file : GoString
  collector : FileCollector
  pushed : List AgentLog

inductive TailEvent
  | append (chunk : GoString)
  | read (clock : ℕ → DateTime) (stopped : ℕ)

namespace Tail

def step (t : Tail) : TailEvent → Tail
  | .append chunk => { t with file := t.file ++ chunk }
  | .read clock stopped =>
      let (logs, collector) := t.collector.readNewLines t.file clock stopped
      { t with collector := collector, pushed := t.pushed ++ logs }

def run (events : List TailEvent) (t : Tail) : Tail := events.foldl step t

/-- `Start` on a file with these contents. -/
def start (path : GoString) (tags : StringMap) (file : GoString) : Tail :=
  ⟨file, .start path tags (some file), []⟩

end Tail

def TailEvent.chunk : TailEvent → GoString
  | append chunk => chunk
  | read _ _ => []

/-- The bytes appended by the events. -/
def appended (events : List TailEvent) : GoString := events.flatMap TailEvent.chunk

/-- The non-empty lines of a text that are terminated by a newline. -/
def writtenLines (text : GoString) : List GoString :=
  ((Lines.lines newline text).map dropCR).filter (· ≠ [])

/-- No part of the text without a newline is as long as the buffer of the scanner. -/
def LinesFit (text : GoString) : Prop :=
  ∀ part, part <:+: text → newline ∉ part → part.length < maxScanTokenSize

/-- Every read comes at the end of a line of the text appended so far, or right before a newline. -/
def CutsAtLineEnds : GoString → List TailEvent → Prop
  | _, [] => True
  | text, .append chunk :: events => CutsAtLineEnds (text ++ chunk) events
  | text, .read _ _ :: events =>
      (Lines.rest newline text = [] ∨ (appended events).head? = some newline) ∧
        CutsAtLineEnds text events

/-! ### One read -/

/-- What the reads push for a text that is read in one go. -/
def tokens (text : GoString) : List GoString := ((segments text).map dropCR).filter (· ≠ [])

theorem tokens_eq (text : GoString) :
    tokens text = writtenLines text ++ [dropCR (Lines.rest newline text)].filter (· ≠ []) := by
  unfold tokens segments writtenLines
  rw [List.map_append, List.filter_append]
  congr 1
  split_ifs with h
  · rw [h]
    rfl
  · rfl

theorem tokens_of_rest {text : GoString} (h : Lines.rest newline text = []) :
    tokens text = writtenLines text := by
  rw [tokens_eq, h]
  exact List.append_nil _

theorem writtenLines_append (a b : GoString) :
    writtenLines (a ++ b) = writtenLines a ++
      (((Lines.split newline (Lines.rest newline a) b).1).map dropCR).filter (· ≠ []) := by
  unfold writtenLines
  rw [Lines.lines_append, List.map_append, List.filter_append]

/-- A cut at the end of a line or right before a newline is not seen. -/
theorem tokens_append {a b : GoString}
    (h : Lines.rest newline a = [] ∨ b = [] ∨ b.head? = some newline) :
    tokens (a ++ b) = tokens a ++ tokens b := by
  rcases h with h | rfl | h
  · rw [tokens_eq (a ++ b), writtenLines_append, Lines.rest_append_of_rest h, h, tokens_of_rest h,
      tokens_eq b, ← List.append_assoc]
    rfl
  · rw [List.append_nil]
    exact (List.append_nil _).symm
  · obtain ⟨b, rfl⟩ : ∃ b', b = newline :: b' := by
      cases b with
      | nil => cases h
      | cons x b => exact ⟨b, by rw [Option.some.inj h]⟩
    -- the newline ends the unfinished line, which has been pushed before
    have hfirst : Lines.lines newline (newline :: b) = [] :: Lines.lines newline b := by
      rw [Lines.lines, Lines.split_cons_sep]
    have hrest : Lines.rest newline (newline :: b) = Lines.rest newline b := by
      rw [Lines.rest, Lines.split_cons_sep]
    have htail : tokens (newline :: b) = tokens b := by
      unfold tokens segments
      rw [hfirst, hrest]
      rfl
    rw [tokens_eq (a ++ _), writtenLines_append, Lines.rest_append, Lines.split_cons_sep, htail,
      tokens_eq a, tokens_eq b]
    unfold writtenLines
    rw [List.map_cons, List.filter_cons]
    simp only [List.append_assoc]
    congr 1
    by_cases hempty : dropCR (Lines.rest newline a) = []
    · simp [hempty]
    · simp [hempty]

theorem segments_fit {text : GoString} (h : LinesFit text) :
    ∀ s ∈ segments text, s.length < maxScanTokenSize := by
  intro s hs
  have hmem : s ∈ (Lines.split newline [] text).1 ++ [(Lines.split newline [] text).2] := by
    unfold segments at hs
    rw [List.mem_append] at hs ⊢
    refine hs.imp id ?_
    intro hs
    split_ifs at hs
    · cases hs
    · exact hs
  exact h s (Lines.infix_of_mem_split hmem) (Lines.not_mem_of_mem_split List.not_mem_nil hmem)

theorem LinesFit.infix {a b : GoString} (h : LinesFit b) (hab : a <:+: b) : LinesFit a :=
  fun part hpart => h part (hpart.trans hab)

theorem scanLines_of_fit {text : GoString} (h : LinesFit text) :
    scanLines text = ((segments text).map dropCR, true) := by
  have hfit := segments_fit h
  unfold scanLines
  rw [List.takeWhile_eq_self_iff.mpr (by simpa using hfit), List.all_eq_true.mpr (by simpa using hfit)]

theorem messages_of_mapIdx (clock : ℕ → DateTime) (path : GoString) (tags : StringMap)
    (texts : List GoString) :
    (texts.mapIdx fun i line => newFileLog (clock i) path line tags).map (·.message) = texts := by
  induction texts generalizing clock with
  | nil => rfl
  | cons line texts ih =>
      rw [List.mapIdx_cons, List.map_cons]
      exact congrArg (line :: ·) (ih fun i => clock (i + 1))

/-! ### Aligned states -/

/-- The collector has read the appended bytes `seen` and not yet `unread`, and what it has pushed are
the tokens of `seen`. -/
structure Aligned (old seen unread : GoString) (t : Tail) : Prop where
  file : t.file = old ++ seen ++ unread
  offset : t.collector.offset = (old ++ seen).length
  pushed : t.pushed.map (·.message) = tokens seen

theorem aligned_start (path : GoString) (tags : StringMap) (old : GoString) :
    Aligned old [] [] (.start path tags old) where
  file := by rw [List.append_nil, List.append_nil]; rfl
  offset := by rw [List.append_nil]; rfl
  pushed := rfl

theorem Aligned.append {old seen unread : GoString} {t : Tail} (h : Aligned old seen unread t)
    (chunk : GoString) : Aligned old seen (unread ++ chunk) (t.step (.append chunk)) where
  file := by
    show t.file ++ chunk = _
    rw [h.file, List.append_assoc]
  offset := h.offset
  pushed := h.pushed

theorem Aligned.read {old seen unread : GoString} {t : Tail} (h : Aligned old seen unread t)
    (hcut : Lines.rest newline seen = [] ∨ unread = [] ∨ unread.head? = some newline)
    (hfit : LinesFit unread) (clock : ℕ → DateTime) (stopped : ℕ) :
    Aligned old (seen ++ unread) [] (t.step (.read clock stopped)) := by
  have hunread : t.file.drop t.collector.offset = unread := by
    rw [h.file, h.offset, List.drop_left]
  have hread : t.collector.readNewLines t.file clock stopped =
      ((tokens unread).mapIdx fun i line =>
          newFileLog (clock i) t.collector.path line t.collector.tags,
        { t.collector with offset := t.collector.offset + unread.length }) := by
    unfold FileCollector.readNewLines
    dsimp only
    rw [hunread, scanLines_of_fit hfit]
    rfl
  unfold Tail.step
  dsimp only
  rw [hread]
  constructor
  · show t.file = _
    rw [h.file, List.append_nil, List.append_assoc]
  · show t.collector.offset + unread.length = _
    rw [h.offset, ← List.append_assoc, ← List.length_append]
  · show List.map _ (t.pushed ++ _) = _
    rw [List.map_append, h.pushed, tokens_append hcut, messages_of_mapIdx]

/-! ### Runs -/

theorem appended_cons (e : TailEvent) (events : List TailEvent) :
    appended (e :: events) = e.chunk ++ appended events := rfl

theorem Tail.pushed_prefix_run (events : List TailEvent) (t : Tail) :
    t.pushed <+: (t.run events).pushed := by
  induction events generalizing t with
  | nil => exact List.prefix_refl _
  | cons e events ih =>
      refine List.IsPrefix.trans ?_ (ih (t.step e))
      cases e with
      | append chunk => exact List.prefix_refl _
      | read clock stopped => exact List.prefix_append _ _

theorem cutsAtLineEnds_concat_read {events : List TailEvent} {text : GoString}
    {clock : ℕ → DateTime} {stopped : ℕ} :
    CutsAtLineEnds text (events ++ [.read clock stopped]) ↔
      CutsAtLineEnds text events ∧ Lines.rest newline (text ++ appended events) = [] := by
  induction events generalizing text with
  | nil =>
      rw [appended, List.flatMap_nil, List.append_nil]
      simp [CutsAtLineEnds, appended]
  | cons e events ih =>
      have happended : appended (events ++ [.read clock stopped]) = appended events := by
        unfold appended
        rw [List.flatMap_append]
        exact List.append_nil _
      cases e with
      | append chunk =>
          rw [appended_cons, ← List.append_assoc]
          exact ih
      | read clock' stopped' =>
          rw [appended_cons, List.cons_append, CutsAtLineEnds, CutsAtLineEnds, ih, happended, and_assoc]
          rfl

/-- What is read next begins with a newline, if the text read so far ends inside of a line. -/
def Joined (seen next : GoString) : Prop :=
  Lines.rest newline seen = [] ∨ next.head? = some newline

theorem Joined.unread {seen unread next : GoString} (h : Joined seen (unread ++ next)) :
    Lines.rest newline seen = [] ∨ unread = [] ∨ unread.head? = some newline := by
  refine h.imp id ?_
  intro h
  cases unread with
  | nil => exact Or.inl rfl
  | cons x unread => exact Or.inr h

theorem aligned_run {old seen unread : GoString} {t : Tail} {events : List TailEvent}
    (h : Aligned old seen unread t) (hjoin : Joined seen (unread ++ appended events))
    (hfit : LinesFit (seen ++ unread ++ appended events))
    (hcuts : CutsAtLineEnds (seen ++ unread) events) :
    ∃ seen' unread', seen' ++ unread' = seen ++ unread ++ appended events ∧
      Aligned old seen' unread' (t.run events) ∧ Joined seen' unread' := by
  induction events generalizing seen unread t with
  | nil =>
      rw [appended, List.flatMap_nil, List.append_nil] at hjoin
      exact ⟨seen, unread, (List.append_nil _).symm, h, hjoin⟩
  | cons e events ih =>
      cases e with
      | append chunk =>
          rw [appended_cons, ← List.append_assoc] at hjoin
          rw [appended_cons, ← List.append_assoc, List.append_assoc seen] at hfit ⊢
          rw [CutsAtLineEnds, List.append_assoc] at hcuts
          exact ih (h.append chunk) hjoin hfit hcuts
      | read clock stopped =>
          have hunread : LinesFit unread :=
            hfit.infix ⟨seen, appended (.read clock stopped :: events), rfl⟩
          have hread := h.read hjoin.unread hunread clock stopped
          have := ih hread hcuts.1 (by rw [List.append_nil]; exact hfit)
            (by rw [List.append_nil]; exact hcuts.2)
          rwa [List.append_nil] at this

theorem dropCR_of_not_mem {line : GoString} (h : carriageReturn ∉ line) : dropCR line = line := by
  refine if_neg ?_
  intro hlast
  exact h (List.mem_of_getLast? hlast)

/-- A partial line that is pushed is no line of the text. -/
theorem tokens_append_ne {text next : GoString} (hcr : carriageReturn ∉ text ++ next)
    (hrest : Lines.rest newline text ≠ []) (hnext : next.head? ≠ some newline)
    (more : List GoString) : tokens text ++ more ≠ writtenLines (text ++ next) := by
  have hmem : Lines.rest newline text ∈
      (Lines.split newline [] text).1 ++ [(Lines.split newline [] text).2] := by
    rw [List.mem_append, List.mem_singleton]
    exact Or.inr rfl
  have hsub : ∀ b ∈ Lines.rest newline text, b ∈ text := (Lines.infix_of_mem_split hmem).subset
  have hcr_rest : carriageReturn ∉ Lines.rest newline text := fun h =>
    hcr (List.mem_append_left next (hsub _ h))
  rw [tokens_eq, dropCR_of_not_mem hcr_rest, writtenLines_append, List.append_assoc]
  intro h
  have h := List.append_cancel_left h
  rw [List.filter_cons_of_pos (by simpa using hrest)] at h
  cases next with
  | nil => cases h
  | cons x next =>
      have hx : x ≠ newline := fun hx => hnext (by rw [hx]; rfl)
      rw [Lines.split, if_neg hx] at h
      rcases @Lines.split_first _ _ newline (Lines.rest newline text ++ [x]) next with
        hnone | ⟨q, later, hfirst⟩
      · rw [hnone] at h
        cases h
      · have hpiece : Lines.rest newline text ++ [x] ++ q <:+:
            (Lines.rest newline text ++ [x]) ++ next := by
          refine @Lines.infix_of_mem_split _ _ newline _ _ _ ?_
          rw [hfirst]
          exact List.mem_cons_self
        have hcr_piece : carriageReturn ∉ Lines.rest newline text ++ [x] ++ q := by
          intro hmem
          have := hpiece.subset hmem
          rw [List.append_assoc, List.mem_append] at this
          rcases this with hmem | hmem
          · exact hcr_rest hmem
          · exact hcr (List.mem_append_right text hmem)
        rw [hfirst, List.map_cons, dropCR_of_not_mem hcr_piece,
          List.filter_cons_of_pos (by simp)] at h
        have hlen := congrArg List.length (List.cons.inj h).1
        simp at hlen

theorem cuts_of_delivered {old seen unread : GoString} {t : Tail} {events : List TailEvent}
    (h : Aligned old seen unread t) (hjoin : Joined seen (unread ++ appended events))
    (hfit : LinesFit (seen ++ unread ++ appended events))
    (hcr : carriageReturn ∉ seen ++ unread ++ appended events)
    (hdone : (t.run events).pushed.map (·.message) =
      writtenLines (seen ++ unread ++ appended events)) :
    CutsAtLineEnds (seen ++ unread) events := by
  induction events generalizing seen unread t with
  | nil => trivial
  | cons e events ih =>
      cases e with
      | append chunk =>
          rw [appended_cons, ← List.append_assoc] at hjoin
          rw [appended_cons, ← List.append_assoc, List.append_assoc seen] at hfit hcr hdone
          rw [CutsAtLineEnds, List.append_assoc]
          exact ih (h.append chunk) hjoin hfit hcr hdone
      | read clock stopped =>
          have hunread : LinesFit unread :=
            hfit.infix ⟨seen, appended (.read clock stopped :: events), rfl⟩
          have hread := h.read hjoin.unread hunread clock stopped
          have hcut : Joined (seen ++ unread) (appended events) := by
            by_contra hcut
            rw [Joined, not_or] at hcut
            obtain ⟨more, hmore⟩ := Tail.pushed_prefix_run events (t.step (.read clock stopped))
            refine tokens_append_ne hcr hcut.1 hcut.2 (more.map (·.message)) ?_
            rw [← hread.pushed, ← List.map_append, hmore]
            exact hdone
          refine ⟨hcut, ?_⟩
          have := ih hread hcut (by rw [List.append_nil]; exact hfit)
            (by rw [List.append_nil]; exact hcr) (by rw [List.append_nil]; exact hdone)
          rwa [List.append_nil] at this

/-- **What the tailer delivers**: the lines written, if no read comes inside of a line except right
before its newline; of a text without carriage returns, only then. -/
theorem tailer_delivers_lines (path : GoString) (tags : StringMap) (old : GoString)
    (events : List TailEvent) (clock : ℕ → DateTime) (stopped : ℕ)
    (hfit : LinesFit (appended events)) :
    (CutsAtLineEnds [] (events ++ [.read clock stopped]) →
      (Tail.run (events ++ [.read clock stopped]) (.start path tags old)).pushed.map (·.message) =
        writtenLines (appended events)) ∧
    (carriageReturn ∉ appended events →
      (Tail.run (events ++ [.read clock stopped]) (.start path tags old)).pushed.map (·.message) =
        writtenLines (appended events) →
      CutsAtLineEnds [] (events ++ [.read clock stopped])) := by
  have hstart := aligned_start path tags old
  have happended : appended (events ++ [.read clock stopped]) = appended events := by
    unfold appended
    rw [List.flatMap_append]
    exact List.append_nil _
  constructor
  · intro hcuts
    obtain ⟨hcuts, hrest⟩ := cutsAtLineEnds_concat_read.mp hcuts
    obtain ⟨seen, unread, htext, haligned, hjoin⟩ := aligned_run hstart (Or.inl rfl) hfit hcuts
    have hunread : LinesFit unread := hfit.infix ⟨seen, [], by rw [List.append_nil]; exact htext⟩
    have hread := haligned.read (hjoin.imp id Or.inr) hunread clock stopped
    have hfinal := hread.pushed
    rw [htext] at hfinal
    unfold Tail.run at hfinal ⊢
    rw [List.foldl_append]
    exact hfinal.trans (tokens_of_rest hrest)
  · intro hcr hdone
    refine cuts_of_delivered hstart (Or.inl rfl) ?_ ?_ ?_
    · rw [happended]
      exact hfit
    · rw [happended]
      exact hcr
    · rw [happended]
      exact hdone

theorem LinesFit.of_length {text : GoString} (h : text.length < maxScanTokenSize) : LinesFit text :=
  fun _ hpart _ => hpart.length_le.trans_lt h

def sampleClock : ℕ → DateTime := fun _ => .ofSeconds 1767225600

theorem wholeLines_delivered :
    (Tail.run [.append (.ofString "up\ndown\n"), .read sampleClock 0]
      (.start (.ofString "/var/log/app.log") ⟨[], List.nodup_nil⟩ [])).pushed.map (·.message) =
        [.ofString "up", .ofString "down"] :=
  ((tailer_delivers_lines (.ofString "/var/log/app.log") ⟨[], List.nodup_nil⟩ []
    [.append (.ofString "up\ndown\n")] sampleClock 0 (.of_length (by decide))).1
    ⟨Or.inl (by decide), trivial⟩).trans (by decide)

/-- A line written in two chunks, with a read between them. -/
def halvedLine : List TailEvent :=
  [.append (.ofString "log"), .read sampleClock 0, .append (.ofString "in\n"), .read sampleClock 0]

theorem halvedLine_not_delivered :
    (Tail.run halvedLine (.start (.ofString "/var/log/app.log") ⟨[], List.nodup_nil⟩ [])).pushed.map
        (·.message) = [.ofString "log", .ofString "in"] ∧
      writtenLines (appended halvedLine) = [.ofString "login"] := by
  decide

end MiniSiem

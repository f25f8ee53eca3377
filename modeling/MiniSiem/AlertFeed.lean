import MiniSiem.AlertNotifications
import MiniSiem.CounterPrograms
import MiniSiem.Lib.Broadcast
import MiniSiem.WsTickets

/-! # The live feed of alerts and statistics

The broadcast channels of `main` and their readers: the sessions that `ws_alerts` spawns, and the task
`alert_handler`, which passes alerts on to Slack.

* **Channels.**  A channel keeps as many values as its capacity, rounded up to a power of two.  Its senders
  live as long as the process, so that no reader finds it closed.
* **Sessions.**  A session reads both channels and sends what is of its tenant to the client; it ends when
  the client closes, or when a frame cannot be sent.
* **Delivery.**  `feed_delivers`: in every run a client gets values of its tenant only, in the order in which
  they were published since it connected, none twice, and misses only what was overwritten before the
  session read it.  `handler_forwards_prefix`: Slack gets the first alerts, up to where the task first
  falls behind by more than the channel keeps, and none after that. -/

namespace MiniSiem

open Broadcast

/-- `DashboardStats`. -/
structure DashboardStats extends StatsRow where
  tenantId : String

/-- The channel of the statistics, made for 100 and rounded up. -/
def statsCapacity : ℕ := 128

inductive Frame
  | alert (alert : Alert)
  | stats (stats : DashboardStats)

def Frame.alert? : Frame → Option Alert
  | alert a => some a
  | stats _ => none

def Frame.stats? : Frame → Option DashboardStats
  | alert _ => none
  | stats s => some s

/-! ### Sessions -/

/-- What the client sends, or the end of its stream. -/
inductive ClientMessage
  | ping
  | text
  | close
  | failed
  | ended
  | other

structure Session where
  claims : Claims
  alerts : Reader Alert
  stats : Reader DashboardStats
  frames : List Frame := []
  live : Bool := true

namespace Session

/-- A session that subscribes now. -/
def connect (claims : Claims) (alerts : List Alert) (stats : List DashboardStats) : Session where
  claims := claims
  alerts := .join alerts
  stats := .join stats

/-- The branch of the alerts; `texts` says whether a frame can be sent. -/
def alertTurn (published : List Alert) (texts : Bool) (s : Session) : Session :=
  if s.live then
    let s' := { s with alerts := s.alerts.turn alertCapacity published }
    match (recv alertCapacity published s.alerts.next).1 with
    | .value alert =>
        if alert.tenantId ≠ s.claims.tenantId then s'
        else if texts then { s' with frames := s'.frames ++ [.alert alert] }
        else { s' with live := false }
    | .lagged _ | .waits => s'
  else s

/-- The branch of the statistics. -/
def statsTurn (published : List DashboardStats) (texts : Bool) (s : Session) : Session :=
  if s.live then
    let s' := { s with stats := s.stats.turn statsCapacity published }
    match (recv statsCapacity published s.stats.next).1 with
    | .value stats =>
        if stats.tenantId ≠ s.claims.tenantId then s'
        else if texts then { s' with frames := s'.frames ++ [.stats stats] }
        else { s' with live := false }
    | .lagged _ | .waits => s'
  else s

/-- The branch of the client; `pongs` says whether a ping can be answered. -/
def messageTurn (message : ClientMessage) (pongs : Bool) (s : Session) : Session :=
  match message with
  | .ping => if pongs then s else { s with live := false }
  | .close | .failed | .ended => { s with live := false }
  | .text | .other => s

end Session

/-! ### The handler of the alerts -/

structure AlertHandler where
  reader : Reader Alert
  listening : Bool := true
  slack : List Alert := []

/-- One receive; a lag disables the branch of the alerts for good. -/
def AlertHandler.turn (published : List Alert) (h : AlertHandler) : AlertHandler :=
  if h.listening then
    match (recv alertCapacity published h.reader.next).1 with
    | .value a => { h with reader := h.reader.turn alertCapacity published, slack := h.slack ++ [a] }
    | .lagged _ => { h with reader := h.reader.turn alertCapacity published, listening := false }
    | .waits => h
  else h

/-! ### Runs -/

/-- Everything published, with the sessions and the handler. -/
structure Feed (ι : Type) where
  alerts : List Alert := []
  stats : List DashboardStats := []
  sessions : ι → Option Session := fun _ => none
  handler : AlertHandler := { reader := .join [] }

inductive FeedEvent (ι : Type)
  | alert (alert : Alert)
  | stats (stats : DashboardStats)
  | connect (i : ι) (claims : Claims)
  | alertTurn (i : ι) (texts : Bool)
  | statsTurn (i : ι) (texts : Bool)
  | messageTurn (i : ι) (message : ClientMessage) (pongs : Bool)
  | handlerTurn

namespace Feed

variable {ι : Type} [DecidableEq ι]

def onSession (feed : Feed ι) (i : ι) (f : Session → Session) : Feed ι :=
  { feed with sessions := Function.update feed.sessions i ((feed.sessions i).map f) }

def step (feed : Feed ι) : FeedEvent ι → Feed ι
  | .alert alert => { feed with alerts := feed.alerts ++ [alert] }
  | .stats stats => { feed with stats := feed.stats ++ [stats] }
  | .connect i claims =>
      { feed with
        sessions := Function.update feed.sessions i
          (some ((feed.sessions i).getD (.connect claims feed.alerts feed.stats))) }
  | .alertTurn i texts => feed.onSession i (·.alertTurn feed.alerts texts)
  | .statsTurn i texts => feed.onSession i (·.statsTurn feed.stats texts)
  | .messageTurn i message pongs => feed.onSession i (·.messageTurn message pongs)
  | .handlerTurn => { feed with handler := feed.handler.turn feed.alerts }

def run (feed : Feed ι) (events : List (FeedEvent ι)) : Feed ι := events.foldl step feed

end Feed

/-! ### What a client gets -/

section delivery

variable {α : Type} {capacity : ℕ} {own : α → Bool} {published : List α} {reader : Reader α} {live : Bool}
  {frames : List α}

/-- What a client got of a channel. -/
structure Delivered (capacity : ℕ) (own : α → Bool) (published : List α) (reader : Reader α) (live : Bool)
    (frames : List α) : Prop where
  ordered : frames.Sublist ((published.drop reader.joined).filter own)
  reached : live = true → ∀ p a, reader.joined ≤ p → p < reader.next → published.length ≤ p + capacity →
    published[p]? = some a → own a = true → a ∈ frames
  complete : live = true → reader.missed = 0 → frames = (reader.passed published).filter own

/-- The frames of a channel are the values of the tenant that its reader got, except the one that could not
be sent. -/
structure Framed (capacity : ℕ) (own : α → Bool) (published : List α) (reader : Reader α) (live : Bool)
    (frames : List α) : Prop where
  follows : Broadcast.Follows capacity published reader
  sublist : frames.Sublist (reader.values.filter own)
  equal : live = true → frames = reader.values.filter own

theorem Framed.delivered (h : Framed capacity own published reader live frames) :
    Delivered capacity own published reader live frames where
  ordered := h.sublist.trans
    ((h.follows.sublist.trans (List.take_sublist _ _)).filter own)
  reached hlive p a hjoined hnext hkept hget hown := by
    obtain ⟨⟨p', b⟩, hgot, rfl⟩ := List.mem_map.mp (h.follows.got_of_kept hjoined hnext hkept)
    obtain ⟨-, -, hsent⟩ := h.follows.got_sent _ hgot
    obtain rfl : b = a := Option.some.inj (hsent.symm.trans hget)
    rw [h.equal hlive]
    exact List.mem_filter.mpr ⟨List.mem_map.mpr ⟨_, hgot, rfl⟩, hown⟩
  complete hlive hmissed := by
    rw [h.equal hlive, h.follows.complete hmissed]

theorem framed_join (capacity : ℕ) (own : α → Bool) (published : List α) (live : Bool) :
    Framed capacity own published (Reader.join published) live [] where
  follows := follows_join capacity published
  sublist := List.nil_sublist _
  equal _ := rfl

theorem Framed.send (h : Framed capacity own published reader live frames) (a : α) :
    Framed capacity own (published ++ [a]) reader live frames :=
  ⟨h.follows.send a, h.sublist, h.equal⟩

/-- A session that has ended. -/
theorem Framed.ended (h : Framed capacity own published reader live frames) :
    Framed capacity own published reader false frames :=
  ⟨h.follows, h.sublist, nofun⟩

/-- The values of a reader after a turn. -/
theorem values_turn (capacity : ℕ) (published : List α) (reader : Reader α) :
    (reader.turn capacity published).values = reader.values ++
      match (recv capacity published reader.next).1 with
      | .value a => [a]
      | .lagged _ | .waits => [] := by
  unfold Reader.turn
  rcases recv_cases capacity published reader.next with ⟨-, hrecv⟩ | ⟨-, a, -, hrecv⟩ | ⟨-, hrecv⟩
  · rw [hrecv]
    exact (List.append_nil _).symm
  · rw [hrecv]
    exact List.map_append
  · rw [hrecv]
    exact (List.append_nil _).symm

/-- A turn that receives nothing of the tenant. -/
theorem Framed.turn_skip (h : Framed capacity own published reader live frames)
    (hskip : ∀ a, (recv capacity published reader.next).1 = .value a → own a = false) :
    Framed capacity own published (reader.turn capacity published) live frames := by
  have hvalues : (reader.turn capacity published).values.filter own = reader.values.filter own := by
    rw [values_turn, List.filter_append]
    cases hreply : (recv capacity published reader.next).1 with
    | value a => simp [hskip a hreply]
    | lagged missed => simp
    | waits => simp
  refine ⟨h.follows.turn, ?_, fun hlive => ?_⟩
  · rw [hvalues]
    exact h.sublist
  · rw [hvalues]
    exact h.equal hlive

/-- A turn that receives a value of the tenant, while the session is live. -/
theorem Framed.turn_own (h : Framed capacity own published reader true frames) {a : α}
    (hreply : (recv capacity published reader.next).1 = .value a) (hown : own a = true) :
    Framed capacity own published (reader.turn capacity published) true (frames ++ [a]) ∧
    Framed capacity own published (reader.turn capacity published) false frames := by
  have hvalues : (reader.turn capacity published).values.filter own = frames ++ [a] := by
    rw [values_turn, List.filter_append, hreply, h.equal rfl]
    simp [hown]
  refine ⟨⟨h.follows.turn, ?_, fun _ => hvalues.symm⟩, ⟨h.follows.turn, ?_, nofun⟩⟩
  · rw [hvalues]
  · rw [hvalues]
    exact List.sublist_append_left _ _

end delivery

/-! ### Sessions in a run -/

section sessions

/-- What a session has sent of the two channels. -/
structure Fed (alerts : List Alert) (stats : List DashboardStats) (s : Session) : Prop where
  alerts : Framed alertCapacity (fun a => a.tenantId = s.claims.tenantId) alerts s.alerts s.live
    (s.frames.filterMap Frame.alert?)
  stats : Framed statsCapacity (fun t => t.tenantId = s.claims.tenantId) stats s.stats s.live
    (s.frames.filterMap Frame.stats?)

variable {alerts : List Alert} {stats : List DashboardStats} {s : Session}

theorem frames_alerts (frames : List Frame) (frame : Frame) :
    (frames ++ [frame]).filterMap Frame.alert? = frames.filterMap Frame.alert? ++ frame.alert?.toList := by
  rw [List.filterMap_append]
  cases frame <;> rfl

theorem frames_stats (frames : List Frame) (frame : Frame) :
    (frames ++ [frame]).filterMap Frame.stats? = frames.filterMap Frame.stats? ++ frame.stats?.toList := by
  rw [List.filterMap_append]
  cases frame <;> rfl

theorem fed_connect (claims : Claims) : Fed alerts stats (.connect claims alerts stats) :=
  ⟨framed_join _ _ _ _, framed_join _ _ _ _⟩

theorem Fed.ended (h : Fed alerts stats s) : Fed alerts stats { s with live := false } :=
  ⟨h.alerts.ended, h.stats.ended⟩

theorem Fed.alertTurn (h : Fed alerts stats s) (texts : Bool) :
    Fed alerts stats (s.alertTurn alerts texts) := by
  unfold Session.alertTurn
  split
  · rename_i hlive
    cases hreply : (recv alertCapacity alerts s.alerts.next).1 with
    | lagged missed => exact ⟨h.alerts.turn_skip fun a ha => (nomatch hreply.symm.trans ha), h.stats⟩
    | waits => exact ⟨h.alerts.turn_skip fun a ha => (nomatch hreply.symm.trans ha), h.stats⟩
    | value alert =>
        dsimp only
        split
        · rename_i hother
          refine ⟨h.alerts.turn_skip fun a ha => ?_, h.stats⟩
          obtain rfl := Reply.value.inj (hreply.symm.trans ha)
          exact decide_eq_false hother
        · rename_i hown
          have hlived := h.alerts
          rw [hlive] at hlived
          obtain ⟨hframed, hbroken⟩ := hlived.turn_own hreply (decide_eq_true (not_not.mp hown))
          split
          · refine ⟨?_, ?_⟩
            · rw [← hlive] at hframed
              rw [frames_alerts]
              exact hframed
            · rw [frames_stats]
              exact (List.append_nil _).symm ▸ h.stats
          · exact ⟨hbroken, h.stats.ended⟩
  · exact h

theorem Fed.statsTurn (h : Fed alerts stats s) (texts : Bool) :
    Fed alerts stats (s.statsTurn stats texts) := by
  unfold Session.statsTurn
  split
  · rename_i hlive
    cases hreply : (recv statsCapacity stats s.stats.next).1 with
    | lagged missed => exact ⟨h.alerts, h.stats.turn_skip fun a ha => (nomatch hreply.symm.trans ha)⟩
    | waits => exact ⟨h.alerts, h.stats.turn_skip fun a ha => (nomatch hreply.symm.trans ha)⟩
    | value snapshot =>
        dsimp only
        split
        · rename_i hother
          refine ⟨h.alerts, h.stats.turn_skip fun a ha => ?_⟩
          obtain rfl := Reply.value.inj (hreply.symm.trans ha)
          exact decide_eq_false hother
        · rename_i hown
          have hlived := h.stats
          rw [hlive] at hlived
          obtain ⟨hframed, hbroken⟩ := hlived.turn_own hreply (decide_eq_true (not_not.mp hown))
          split
          · refine ⟨?_, ?_⟩
            · rw [frames_alerts]
              exact (List.append_nil _).symm ▸ h.alerts
            · rw [← hlive] at hframed
              rw [frames_stats]
              exact hframed
          · exact ⟨h.alerts.ended, hbroken⟩
  · exact h

theorem Fed.messageTurn (h : Fed alerts stats s) (message : ClientMessage) (pongs : Bool) :
    Fed alerts stats (s.messageTurn message pongs) := by
  unfold Session.messageTurn
  cases message with
  | ping =>
      dsimp only
      split
      · exact h
      · exact h.ended
  | close | failed | ended => exact h.ended
  | text | other => exact h

end sessions

/-! ### Runs -/

section runs

variable {ι : Type} [DecidableEq ι] {feed : Feed ι}

/-- What every session has sent. -/
def AllFed (feed : Feed ι) : Prop := ∀ i s, feed.sessions i = some s → Fed feed.alerts feed.stats s

theorem AllFed.onSession (h : AllFed feed) (i : ι) {f : Session → Session}
    (hf : ∀ s, Fed feed.alerts feed.stats s → Fed feed.alerts feed.stats (f s)) :
    AllFed (feed.onSession i f) := by
  intro j s hs
  have hs' : Function.update feed.sessions i ((feed.sessions i).map f) j = some s := hs
  by_cases hji : j = i
  · subst hji
    rw [Function.update_self] at hs'
    obtain ⟨before, hbefore, rfl⟩ := Option.map_eq_some_iff.mp hs'
    exact hf before (h j before hbefore)
  · rw [Function.update_of_ne hji] at hs'
    exact h j s hs'

theorem AllFed.step (h : AllFed feed) (event : FeedEvent ι) : AllFed (feed.step event) := by
  cases event with
  | alert alert => exact fun i s hs => ⟨(h i s hs).alerts.send alert, (h i s hs).stats⟩
  | stats stats => exact fun i s hs => ⟨(h i s hs).alerts, (h i s hs).stats.send stats⟩
  | connect i claims =>
      intro j s hs
      have hs' : Function.update feed.sessions i
          (some ((feed.sessions i).getD (.connect claims feed.alerts feed.stats))) j = some s := hs
      by_cases hji : j = i
      · subst hji
        rw [Function.update_self] at hs'
        obtain rfl := Option.some.inj hs'
        cases hbefore : feed.sessions j with
        | none => exact fed_connect claims
        | some before => exact h j before hbefore
      · rw [Function.update_of_ne hji] at hs'
        exact h j s hs'
  | alertTurn i texts => exact h.onSession i fun s hs => hs.alertTurn texts
  | statsTurn i texts => exact h.onSession i fun s hs => hs.statsTurn texts
  | messageTurn i message pongs => exact h.onSession i fun s hs => hs.messageTurn message pongs
  | handlerTurn => exact h

theorem AllFed.run (h : AllFed feed) (events : List (FeedEvent ι)) : AllFed (feed.run events) := by
  induction events generalizing feed with
  | nil => exact h
  | cons event events ih => exact ih (h.step event)

/-- **What a client gets**: in every run its alerts are those of its tenant, in the order in which they were
published since it connected, none twice; as long as the session lives, it got every one that the
channel still keeps of those it has passed, and all of them if it never fell behind.  The same
holds of the statistics. -/
theorem feed_delivers (events : List (FeedEvent ι)) (i : ι) (s : Session)
    (hs : (Feed.run {} events).sessions i = some s) :
    Delivered alertCapacity (fun a => a.tenantId = s.claims.tenantId) (Feed.run {} events : Feed ι).alerts
      s.alerts s.live (s.frames.filterMap Frame.alert?) ∧
    Delivered statsCapacity (fun t => t.tenantId = s.claims.tenantId) (Feed.run {} events : Feed ι).stats
      s.stats s.live (s.frames.filterMap Frame.stats?) := by
  have hempty : AllFed ({} : Feed ι) := nofun
  have hfed := hempty.run events i s hs
  exact ⟨hfed.alerts.delivered, hfed.stats.delivered⟩

/-! ### What Slack gets -/

/-- What the handler has passed on. -/
structure Forwarding (published : List Alert) (h : AlertHandler) : Prop where
  next_le : h.listening = true → h.reader.next ≤ published.length
  current : h.listening = true → h.slack = published.take h.reader.next
  first : h.slack <+: published
  stopped : h.listening = false → h.slack.length + alertCapacity < published.length

variable {published : List Alert} {h : AlertHandler}

theorem Forwarding.send (hf : Forwarding published h) (a : Alert) : Forwarding (published ++ [a]) h where
  next_le hlistening := (hf.next_le hlistening).trans (by simp)
  current hlistening := by
    rw [List.take_append_of_le_length (hf.next_le hlistening)]
    exact hf.current hlistening
  first := hf.first.trans (List.prefix_append _ _)
  stopped hstopped := (hf.stopped hstopped).trans_le (by simp)

theorem Forwarding.turn (hf : Forwarding published h) : Forwarding published (h.turn published) := by
  unfold AlertHandler.turn
  split
  · rename_i hlistening
    have hnext := hf.next_le hlistening
    have hcurrent := hf.current hlistening
    have hlength : h.slack.length = h.reader.next := by
      rw [hcurrent, List.length_take, Nat.min_eq_left hnext]
    rcases recv_cases alertCapacity published h.reader.next with
      ⟨hlag, hrecv⟩ | ⟨-, a, hget, hrecv⟩ | ⟨-, hrecv⟩
    · rw [hrecv]
      exact ⟨nofun, nofun, hf.first, fun _ => by rw [hlength]; exact hlag⟩
    · rw [hrecv]
      have hturn : (h.reader.turn alertCapacity published).next = h.reader.next + 1 := by
        unfold Reader.turn
        rw [hrecv]
      have hslack : h.slack ++ [a] = published.take (h.reader.next + 1) := by
        rw [hcurrent, List.take_add_one, hget]
        rfl
      refine ⟨fun _ => ?_, fun _ => ?_, ?_, fun hstopped => ?_⟩
      · rw [hturn]
        exact (List.getElem?_eq_some_iff.mp hget).1
      · rw [hturn]
        exact hslack
      · show h.slack ++ [a] <+: published
        rw [hslack]
        exact List.take_prefix _ _
      · exact absurd (hlistening.symm.trans hstopped) (by decide)
    · rw [hrecv]
      exact hf
  · exact hf

theorem Forwarding.run (hf : Forwarding feed.alerts feed.handler) (events : List (FeedEvent ι)) :
    Forwarding (feed.run events).alerts (feed.run events).handler := by
  induction events generalizing feed with
  | nil => exact hf
  | cons event events ih =>
      refine ih ?_
      cases event with
      | alert alert => exact hf.send alert
      | handlerTurn => exact hf.turn
      | _ => exact hf

/-- A handler that has stopped passes nothing on. -/
theorem handler_stopped (hstopped : feed.handler.listening = false) (events : List (FeedEvent ι)) :
    (feed.run events).handler = feed.handler := by
  induction events generalizing feed with
  | nil => rfl
  | cons event events ih =>
      have hstep : (feed.step event).handler = feed.handler := by
        cases event with
        | handlerTurn =>
            show feed.handler.turn feed.alerts = feed.handler
            unfold AlertHandler.turn
            rw [hstopped]
            rfl
        | _ => rfl
      exact (ih (by rw [hstep]; exact hstopped)).trans hstep

/-- **What Slack gets**: in every run the alerts that were published first.  Once the handler has fallen
behind by more than the channel keeps, it passes on no alert of the rest of the run. -/
theorem handler_forwards_prefix (events later : List (FeedEvent ι)) :
    (Feed.run {} events : Feed ι).handler.slack <+: (Feed.run {} events : Feed ι).alerts ∧
    ((Feed.run {} events : Feed ι).handler.listening = false →
      (Feed.run {} events : Feed ι).handler.slack.length + alertCapacity <
        (Feed.run {} events : Feed ι).alerts.length ∧
      ((Feed.run {} events).run later : Feed ι).handler.slack =
        (Feed.run {} events : Feed ι).handler.slack) := by
  have hempty : Forwarding ({} : Feed ι).alerts ({} : Feed ι).handler :=
    ⟨fun _ => le_refl _, fun _ => rfl, List.nil_prefix, nofun⟩
  have hf := hempty.run events
  exact ⟨hf.first, fun hstopped => ⟨hf.stopped hstopped, by rw [handler_stopped hstopped]⟩⟩

end runs

/-! ### A client among two tenants -/

def scanOf (tenantId : String) : Alert :=
  .new "a1" (.ofSeconds 0) tenantId "r1" "rule" .low "port scan" "10.0.0.1" []

/-- A client of `acme` connects before an alert of each tenant, and its session reads both. -/
def twoAlerts : List (FeedEvent Unit) :=
  [.connect () ⟨"u1", "acme", "analyst@acme.test", ["analyst"], none⟩, .alert (scanOf "acme"),
    .alert (scanOf "globex"), .alertTurn () true, .alertTurn () true]

theorem twoAlerts_delivered : ∃ s, (Feed.run {} twoAlerts).sessions () = some s ∧
    s.frames.filterMap Frame.alert? = [scanOf "acme"] := by
  refine ⟨_, rfl, ?_⟩
  rw [(feed_delivers twoAlerts () _ rfl).1.complete rfl rfl]
  rfl

end MiniSiem

/-
Where the entries of a status log go. Each is kept in the history until
newer ones push it out or the history is cleared, is echoed if its level is
specific enough, and is offered to everybody who has subscribed.

# History

A full history gives up its oldest entry for a new one, so it is always
the end of what was logged since it was last cleared (`history_run`).

# Subscribers

What happens to a subscriber is told by its queue. An operation hands out
a piece of the queue's front and puts at most the new entry behind it
(`gives_leaves`), so over a run what was received and what still waits make
up what was admitted (`received_waiting`). No clearing, and nothing that
other subscribers do, touches the queue (`queue?_step`).
-/
import Mathlib.Data.List.DropRight
import LogPipeline.Status

namespace LogPipeline

-- =============================================================== runs

/-- What is done at a status log. -/
inductive StatusOp where
  | log (entry : StatusEntry)
  | clear
  | subscribe
  /-- A subscriber takes all that waits for it. -/
  | receive (subscriber : Nat)
  /-- A subscriber takes the oldest entry that waits for it. -/
  | receiveNext (subscriber : Nat)
  | unsubscribe (subscriber : Nat)
  deriving DecidableEq

/-- The entry that an operation logs. -/
def StatusOp.entry? : StatusOp → Option StatusEntry
  | .log entry => some entry
  | _ => none

/-- The entries that are logged. -/
def loggedBy (ops : List StatusOp) : List StatusEntry := ops.filterMap StatusOp.entry?

/-- The entries that are logged after the history was last cleared. -/
def loggedSinceClear (ops : List StatusOp) : List StatusEntry :=
  loggedBy (ops.rtakeWhile (· != .clear))

/-- An operation adds the entry that it logs, if it logs one. -/
theorem loggedBy_concat (ops : List StatusOp) (op : StatusOp) :
    loggedBy (ops ++ [op]) = loggedBy ops ++ op.entry?.toList := by
  unfold loggedBy
  rw [List.filterMap_append]
  cases h : op.entry? <;> simp [h]

theorem loggedSinceClear_concat (ops : List StatusOp) (op : StatusOp) :
    loggedSinceClear (ops ++ [op])
      = if op = .clear then [] else loggedSinceClear ops ++ op.entry?.toList := by
  unfold loggedSinceClear
  rw [List.rtakeWhile_concat]
  by_cases hop : op = .clear
  · simp [hop, loggedBy]
  · rw [if_pos (bne_iff_ne.2 hop), if_neg hop, loggedBy_concat]

namespace StatusOp

variable {id : Nat} {queue : List StatusEntry}

/-- What an operation hands out of a subscriber's queue. -/
def gives (id : Nat) (queue : List StatusEntry) : StatusOp → List StatusEntry
  | receive i => if i = id then queue else []
  | receiveNext i => if i = id then queue.take 1 else []
  | _ => []

/-- What it lets into the queue. -/
def admits (queue : List StatusEntry) : StatusOp → List StatusEntry
  | log e => if queue.length < 1024 then [e] else []
  | _ => []

/-- What it leaves in the queue, if there is a queue any more. -/
def leaves (id : Nat) (queue : List StatusEntry) : StatusOp → Option (List StatusEntry)
  | log e => some (StatusLog.offer e queue)
  | receive i => some (if i = id then [] else queue)
  | receiveNext i => some (if i = id then queue.tail else queue)
  | unsubscribe i => if i = id then none else some queue
  | _ => some queue

/-- The operation is one of the subscriber's, or logs something. -/
def concerns (id : Nat) : StatusOp → Bool
  | log _ => true
  | receive i | receiveNext i | unsubscribe i => i == id
  | clear | subscribe => false

/-- What is handed out comes from the front, and what is let in stands at
the end. -/
theorem gives_leaves {op : StatusOp} (hop : op ≠ unsubscribe id) :
    ∃ rest, op.leaves id queue = some rest
      ∧ op.gives id queue ++ rest = queue ++ op.admits queue := by
  cases op with
  | log e =>
      refine ⟨_, rfl, ?_⟩
      show StatusLog.offer e queue = queue ++ if queue.length < 1024 then [e] else []
      unfold StatusLog.offer StatusLog.subscriberCapacity
      split <;> simp
  | clear | subscribe => exact ⟨queue, rfl, (List.append_nil _).symm⟩
  | receive i => by_cases hi : i = id <;> simp [gives, leaves, admits, hi]
  | receiveNext i =>
      refine ⟨_, rfl, ?_⟩
      by_cases hi : i = id
      · cases queue <;> simp [gives, admits, hi]
      · simp [gives, admits, hi]
  | unsubscribe i =>
      have hi : i ≠ id := fun h => hop (h ▸ rfl)
      exact ⟨queue, if_neg hi, (List.append_nil _).symm⟩

theorem gives_nil (id : Nat) (op : StatusOp) : op.gives id [] = [] := by
  cases op <;> simp [gives]

/-- What does not concern a subscriber does nothing to its queue. -/
theorem leaves_of_not_concerns {op : StatusOp} (hop : op.concerns id = false) :
    op.leaves id queue = some queue ∧ op.gives id queue = [] := by
  cases op with
  | log e => cases hop
  | clear | subscribe => exact ⟨rfl, rfl⟩
  | receive i | receiveNext i | unsubscribe i =>
      have hi : i ≠ id := by simpa [concerns] using hop
      simp [leaves, gives, hi]

end StatusOp

namespace StatusLog

/-- The entries that wait for a subscriber, if it is one. -/
def queue? (s : StatusLog) (id : Nat) : Option (List StatusEntry) := s.queues.lookup id

def waiting (s : StatusLog) (id : Nat) : List StatusEntry := (s.queue? id).getD []

/-- The oldest entry that waits for a subscriber, taken out. -/
def receiveNext (s : StatusLog) (id : Nat) : Option StatusEntry × StatusLog :=
  ((s.waiting id).head?,
    { s with queues := s.queues.map fun (i, queue) => (i, if i = id then queue.tail else queue) })

def step (s : StatusLog) : StatusOp → StatusLog
  | .log e => s.log e.level e.component e.message
  | .clear => s.clear
  | .subscribe => s.subscribe.2
  | .receive id => (s.receive id).2
  | .receiveNext id => (s.receiveNext id).2
  | .unsubscribe id => s.unsubscribe id

def run (s : StatusLog) (ops : List StatusOp) : StatusLog := ops.foldl step s

/-- What an operation hands out to a subscriber. -/
def handed (s : StatusLog) (id : Nat) : StatusOp → List StatusEntry
  | .receive i => if i = id then (s.receive i).1 else []
  | .receiveNext i => if i = id then (s.receiveNext i).1.toList else []
  | _ => []

/-- What a subscriber receives in a run. -/
def received (id : Nat) : StatusLog → List StatusOp → List StatusEntry
  | _, [] => []
  | s, op :: ops => s.handed id op ++ received id (s.step op) ops

/-- The entries that are logged in a run while fewer than 1024 entries wait
for a subscriber. -/
def admitted (id : Nat) : StatusLog → List StatusOp → List StatusEntry
  | _, [] => []
  | s, op :: ops => op.admits (s.waiting id) ++ admitted id (s.step op) ops

variable {s : StatusLog} {id : Nat} {op : StatusOp} {queue : List StatusEntry}

theorem run_append (s : StatusLog) (a b : List StatusOp) : s.run (a ++ b) = (s.run a).run b :=
  List.foldl_append

theorem run_concat (s : StatusLog) (ops : List StatusOp) (op : StatusOp) :
    s.run (ops ++ [op]) = (s.run ops).step op :=
  run_append s ops [op]

/-- What a subscriber gets in two stretches of a run it gets one after the
other. -/
theorem received_append (id : Nat) (s : StatusLog) (a b : List StatusOp) :
    received id s (a ++ b) = received id s a ++ received id (s.run a) b := by
  induction a generalizing s with
  | nil => rfl
  | cons op a ih => rw [List.cons_append, received, received, ih, List.append_assoc]; rfl

-- ============================================================ history

/-- Keeping one entry more keeps the last ones. -/
theorem keep_rtake {capacity : Nat} (hpos : 0 < capacity) (l : List StatusEntry)
    (e : StatusEntry) : keep capacity (l.rtake capacity) e = (l ++ [e]).rtake capacity := by
  obtain ⟨n, rfl⟩ := Nat.exists_eq_succ_of_ne_zero (Nat.ne_of_gt hpos)
  rw [List.rtake_concat_succ]
  unfold keep List.rtake
  split
  · next hfull =>
    rw [List.length_drop] at hfull
    rw [List.drop_drop]
    congr 2
    omega
  · next hroom =>
    rw [List.length_drop] at hroom
    congr 1
    rw [show l.length - (n + 1) = 0 by omega, show l.length - n = 0 by omega]

/-- The history is the end of what was logged since it was cleared. -/
theorem history_run (h : Nat) (echo : Level) (ops : List StatusOp) :
    ((withSettings h echo).run ops).capacity = max 1 h
      ∧ ((withSettings h echo).run ops).history = (loggedSinceClear ops).rtake (max 1 h) := by
  induction ops using List.reverseRecOn with
  | nil => exact ⟨rfl, (List.drop_nil ..).symm⟩
  | append_singleton ops op ih =>
      obtain ⟨hcapacity, hhistory⟩ := ih
      rw [run_concat, loggedSinceClear_concat]
      refine ⟨by cases op <;> exact hcapacity, ?_⟩
      cases op with
      | log e =>
          show keep _ _ e = _
          rw [hcapacity, hhistory, keep_rtake (by omega)]
          rfl
      | clear => exact (List.drop_nil ..).symm
      | subscribe | receive id | receiveNext id | unsubscribe id =>
          rw [if_neg (by simp)]
          exact hhistory.trans (congrArg (List.rtake · _) (List.append_nil _).symm)

-- =============================================================== echo

/-- The lines echoed are those of the entries that are specific enough. -/
theorem echoed_run (s : StatusLog) (ops : List StatusOp) :
    (s.run ops).echoed
      = s.echoed ++ ((loggedBy ops).filter (s.isEchoed ·.level)).map StatusEntry.display := by
  induction ops generalizing s with
  | nil => simp [run, loggedBy]
  | cons op ops ih =>
      show ((s.step op).run ops).echoed = _
      rw [ih]
      cases op with
      | log e =>
          have hsame : (s.step (.log e)).isEchoed = s.isEchoed := rfl
          have hline : (s.step (.log e)).echoed
              = if s.isEchoed e.level then s.echoed ++ [e.display] else s.echoed := rfl
          rw [hsame, hline]
          by_cases he : s.isEchoed e.level = true <;> simp [loggedBy, StatusOp.entry?, he]
      | clear => rfl
      | subscribe => rfl
      | receive id => rfl
      | receiveNext id => rfl
      | unsubscribe id => rfl

-- ======================================================== subscribers

/-- A change to each queue, seen at one of them. -/
theorem lookup_map_queues (queues : List (Nat × List StatusEntry))
    (f : Nat → List StatusEntry → List StatusEntry) (id : Nat) :
    (queues.map fun (i, queue) => (i, f i queue)).lookup id = (queues.lookup id).map (f id) := by
  induction queues with
  | nil => rfl
  | cons entry queues ih =>
      obtain ⟨i, queue⟩ := entry
      rw [List.map_cons, List.lookup_cons, List.lookup_cons, ih]
      by_cases hi : id = i
      · simp [hi]
      · simp [beq_eq_false_iff_ne.2 hi]

/-- Without a subscriber's queue nothing is found for it, and the others are
as before. -/
theorem lookup_filter_queues (queues : List (Nat × List StatusEntry)) (id i : Nat) :
    (queues.filter (·.1 ≠ i)).lookup id = if id = i then none else queues.lookup id := by
  induction queues with
  | nil => simp
  | cons entry queues ih =>
      obtain ⟨j, queue⟩ := entry
      rw [List.filter_cons, List.lookup_cons]
      by_cases hid : id = j
      · subst hid
        by_cases hi : id = i
        · simpa [hi] using ih
        · simp [hi]
      · have hother : (id == j) = false := beq_eq_false_iff_ne.2 hid
        by_cases hj : j = i
        · subst hj
          simpa [hid, hother] using ih
        · simpa [hj, hother, List.lookup_cons] using ih

/-- What an operation does to a queue, unless it makes the queue. -/
theorem queue?_step (op : StatusOp) (h : op = .subscribe → id ≠ s.nextSubscriber) :
    (s.step op).queue? id = (s.queue? id).bind fun queue => op.leaves id queue := by
  have hmap : ∀ f : Nat → List StatusEntry → List StatusEntry,
      (s.queues.map fun (i, queue) => (i, f i queue)).lookup id
        = (s.queue? id).bind fun queue => some (f id queue) := fun f =>
    (lookup_map_queues s.queues f id).trans Option.map_eq_bind
  cases op with
  | log e => exact hmap fun _ queue => offer _ queue
  | clear =>
      show s.queue? id = (s.queue? id).bind some
      cases s.queue? id <;> rfl
  | subscribe =>
      show (s.queues ++ [(s.nextSubscriber, [])]).lookup id = _
      rw [List.lookup_append, List.lookup_cons, beq_eq_false_iff_ne.2 (h rfl)]
      simp [queue?, StatusOp.leaves]
  | receive i =>
      refine (hmap fun j queue => if j = i then [] else queue).trans ?_
      simp only [StatusOp.leaves, eq_comm]
  | receiveNext i =>
      refine (hmap fun j queue => if j = i then queue.tail else queue).trans ?_
      simp only [StatusOp.leaves, eq_comm]
  | unsubscribe i =>
      refine (lookup_filter_queues s.queues id i).trans ?_
      by_cases hi : id = i
      · simp [StatusOp.leaves, hi]
      · simp [StatusOp.leaves, hi, Ne.symm hi, queue?]

/-- What a subscriber is handed is given from what waits for it. -/
theorem handed_eq (s : StatusLog) (id : Nat) (op : StatusOp) :
    s.handed id op = op.gives id (s.waiting id) := by
  cases op with
  | receive i =>
      by_cases hi : i = id
      · subst hi
        rfl
      · simp [handed, StatusOp.gives, hi]
  | receiveNext i =>
      by_cases hi : i = id
      · subst hi
        simp [handed, StatusOp.gives, receiveNext, List.take_one]
      · simp [handed, StatusOp.gives, hi]
  | log e | clear | subscribe | unsubscribe i => rfl

theorem nextSubscriber_step (s : StatusLog) (op : StatusOp) :
    s.nextSubscriber ≤ (s.step op).nextSubscriber := by
  cases op with
  | subscribe => exact Nat.le_succ _
  | log e | clear | receive i | receiveNext i | unsubscribe i => exact Nat.le_refl _

/-- Numbers of subscribers only go up. -/
theorem nextSubscriber_run (s : StatusLog) (ops : List StatusOp) :
    s.nextSubscriber ≤ (s.run ops).nextSubscriber := by
  induction ops generalizing s with
  | nil => exact Nat.le_refl _
  | cons op ops ih => exact (nextSubscriber_step s op).trans (ih _)

/-- Who has left, or has not come yet, receives nothing. -/
theorem received_out {ops : List StatusOp} (h : s.queue? id = none)
    (hid : id < s.nextSubscriber ∨ (s.run ops).nextSubscriber ≤ id) :
    received id s ops = [] ∧ (s.run ops).queue? id = none := by
  induction ops generalizing s with
  | nil => exact ⟨rfl, h⟩
  | cons op ops ih =>
      have hnew : op = .subscribe → id ≠ s.nextSubscriber := by
        rintro rfl heq
        have hrun : s.nextSubscriber + 1 ≤ (s.run (.subscribe :: ops)).nextSubscriber :=
          nextSubscriber_run (s.step .subscribe) ops
        omega
      have hstep : (s.step op).queue? id = none := by
        rw [queue?_step op hnew, h]
        rfl
      obtain ⟨hreceived, hrun⟩ :=
        ih hstep (hid.imp (fun hlt => hlt.trans_le (nextSubscriber_step s op)) fun hle => hle)
      refine ⟨?_, hrun⟩
      rw [received, handed_eq, hreceived, waiting, h, List.append_nil]
      exact StatusOp.gives_nil ..

/-- A new subscriber has nothing waiting. -/
theorem queue?_subscribe (h : s.queue? s.nextSubscriber = none) :
    (s.step .subscribe).queue? s.nextSubscriber = some [] := by
  show (s.queues ++ [(s.nextSubscriber, [])]).lookup s.nextSubscriber = _
  rw [List.lookup_append, show List.lookup s.nextSubscriber s.queues = none from h]
  simp

/-- A subscriber that leaves receives nothing more. -/
theorem received_left (hid : id < s.nextSubscriber) (soFar rest : List StatusOp) :
    received id s (soFar ++ .unsubscribe id :: rest) = received id s soFar := by
  have hlater : id < (s.run soFar).nextSubscriber := hid.trans_le (nextSubscriber_run s soFar)
  have hgone : ((s.run soFar).step (.unsubscribe id)).queue? id = none :=
    (lookup_filter_queues _ id id).trans (if_pos rfl)
  have hnothing : received id ((s.run soFar).step (.unsubscribe id)) rest = [] :=
    (received_out hgone (.inl hlater)).1
  rw [received_append, received, hnothing]
  exact List.append_nil _

/-- What a subscriber received in a run and what still waits for it are
what waited before and what was admitted. -/
theorem received_waiting (hqueue : s.queue? id = some queue) (hid : id < s.nextSubscriber)
    (ops : List StatusOp) (hops : .unsubscribe id ∉ ops) :
    received id s ops ++ (s.run ops).waiting id = queue ++ admitted id s ops := by
  induction ops generalizing s queue with
  | nil => simp [received, admitted, run, waiting, hqueue]
  | cons op ops ih =>
      have hop : op ≠ .unsubscribe id := fun h => hops (h ▸ List.mem_cons_self)
      obtain ⟨rest, hrest, hbalance⟩ : ∃ rest, op.leaves id queue = some rest
          ∧ op.gives id queue ++ rest = queue ++ op.admits queue := StatusOp.gives_leaves hop
      have hstep : (s.step op).queue? id = some rest := by
        rw [queue?_step op fun _ => Nat.ne_of_lt hid, hqueue]
        exact hrest
      have hwaiting : s.waiting id = queue := by rw [waiting, hqueue]; rfl
      calc received id s (op :: ops) ++ (s.run (op :: ops)).waiting id
          = op.gives id queue
              ++ (received id (s.step op) ops ++ ((s.step op).run ops).waiting id) := by
            rw [received, handed_eq, hwaiting, List.append_assoc]
            rfl
        _ = op.gives id queue ++ rest ++ admitted id (s.step op) ops := by
            rw [ih hstep (Nat.lt_of_lt_of_le hid (nextSubscriber_step s op))
              fun h => hops (List.mem_cons_of_mem _ h), List.append_assoc]
        _ = queue ++ admitted id s (op :: ops) := by
            rw [hbalance, admitted, hwaiting, List.append_assoc]

/-- What comes to a subscriber was logged, in that order. -/
theorem admitted_sublist (id : Nat) (s : StatusLog) (ops : List StatusOp) :
    (admitted id s ops).Sublist (loggedBy ops) := by
  induction ops generalizing s with
  | nil => exact List.Sublist.refl _
  | cons op ops ih =>
      show (op.admits _ ++ admitted id _ ops).Sublist (List.filterMap StatusOp.entry? ([op] ++ ops))
      rw [List.filterMap_append]
      refine List.Sublist.append ?_ (ih _)
      cases op with
      | log e =>
          show (if _ then [e] else []).Sublist [e]
          split <;> simp
      | clear | subscribe | receive i | receiveNext i | unsubscribe i => exact List.Sublist.refl _

/-- What a subscriber receives is decided by what is logged and by what it
does itself. -/
theorem received_filter {s s' : StatusLog} (hqueue : s.queue? id = s'.queue? id)
    (hid : id < s.nextSubscriber) (hid' : id < s'.nextSubscriber) (ops : List StatusOp) :
    received id s' (ops.filter (·.concerns id)) = received id s ops := by
  induction ops generalizing s s' with
  | nil => rfl
  | cons op ops ih =>
      have hlt : id < (s.step op).nextSubscriber := hid.trans_le (nextSubscriber_step s op)
      have hstep := queue?_step op fun _ => Nat.ne_of_lt hid
      by_cases hop : op.concerns id = true
      · rw [List.filter_cons_of_pos hop, received, received, handed_eq, handed_eq]
        have hstep' := queue?_step op fun _ => Nat.ne_of_lt hid'
        rw [ih (hstep.trans (hqueue ▸ hstep'.symm)) hlt (hid'.trans_le (nextSubscriber_step s' op))]
        unfold waiting
        rw [hqueue]
      · have hop' : op.concerns id = false := Bool.eq_false_iff.2 hop
        have hsame : (s.step op).queue? id = s.queue? id := by
          rw [hstep]
          cases hq : s.queue? id with
          | none => rfl
          | some queue => exact (StatusOp.leaves_of_not_concerns hop').1
        rw [List.filter_cons_of_neg hop, received, handed_eq,
          (StatusOp.leaves_of_not_concerns hop').2, List.nil_append]
        exact ih (hsame.trans hqueue) hlt hid'

-- ============================================================= result

/-- Over any run of a status log with a limit of `h` entries: the history
is the last `max 1 h` of what was logged since it was cleared, or all of it
if that is less, and the lines echoed are those of the entries at least as
specific as the echo level, or none if that is `off`.

A subscriber, from when it subscribes until it leaves, receives what is
logged, except what is logged while 1024 entries wait for it: what it
received and what still waits for it are together what was admitted, in
that order. It receives nothing before and nothing after, and the same if
nothing is cleared and there is no other subscriber. -/
theorem reports_delivered (h : Nat) (echo : Level) (ops : List StatusOp) :
    let start := withSettings h echo
    let recent := loggedSinceClear ops
    (start.run ops).history = recent.rtake (min recent.length (max 1 h))
      ∧ (start.run ops).echoed
          = (if echo = .off then []
            else ((loggedBy ops).filter (·.level.isAtLeastAsSpecificAs echo)).map
              StatusEntry.display)
      ∧ ∀ before after, ops = before ++ .subscribe :: after →
        let id := (start.run before).nextSubscriber
        let s := (start.run before).step .subscribe
        received id start ops = received id s after
          ∧ (admitted id s after).Sublist (loggedBy after)
          ∧ (.unsubscribe id ∉ after →
              received id s after ++ (s.run after).waiting id = admitted id s after)
          ∧ (∀ soFar rest, after = soFar ++ .unsubscribe id :: rest →
              received id s after = received id s soFar)
          ∧ received id s (after.filter (·.concerns id)) = received id s after := by
  intro start recent
  refine ⟨?_, ?_, ?_⟩
  · rw [(history_run h echo ops).2]
    show recent.rtake _ = _
    unfold List.rtake
    congr 1
    omega
  · rw [echoed_run]
    by_cases hoff : echo = .off
    · simp [hoff, start, withSettings, isEchoed]
    · simp [hoff, start, withSettings, isEchoed]
  · rintro before after rfl id s
    -- nobody has the number before it is given out
    have hbefore : received id start before = [] ∧ (start.run before).queue? id = none :=
      received_out rfl (.inr (Nat.le_refl _))
    have hid : id < s.nextSubscriber := Nat.lt_succ_self _
    have hqueue : s.queue? id = some [] := queue?_subscribe hbefore.2
    refine ⟨?_, admitted_sublist id s after, received_waiting hqueue hid after, ?_,
      received_filter rfl hid hid after⟩
    · rw [received_append, hbefore.1]
      rfl
    · rintro soFar rest rfl
      exact received_left hid soFar rest

namespace Sample

def told (level : Level) (message : String) : StatusEntry := ⟨level, "FileSink", message⟩

/-- While the first subscriber stays, the second one comes and goes. -/
def early : List StatusOp := [.log (told .info "opened")]

def shared : List StatusOp :=
  [.log (told .warn "slow"), .clear, .log (told .error "full"), .receiveNext 0]

def late : List StatusOp :=
  [.log (told .info "retried"), .receive 1, .unsubscribe 1, .log (told .fatal "lost")]

def ops : List StatusOp := early ++ .subscribe :: (shared ++ .subscribe :: late)

end Sample

open LogPipeline.StatusLog.Sample in
theorem reports_delivered_sample :
    let start := withSettings 2 .warn
    (start.run ops).history = [told .info "retried", told .fatal "lost"]
      ∧ (start.run ops).echoed
          = ["[LOGGER WARNING] FileSink: slow", "[LOGGER ERROR] FileSink: full",
            "[LOGGER ERROR] FileSink: lost"]
      ∧ .unsubscribe 0 ∉ shared ++ .subscribe :: late
      ∧ received 0 start ops = [told .warn "slow"]
      ∧ received 0 start ops ++ (start.run ops).waiting 0
          = [told .warn "slow", told .error "full", told .info "retried", told .fatal "lost"]
      ∧ received 1 start ops = [told .info "retried"] := by
  intro start
  obtain ⟨hhistory, hechoed, hsubscribers⟩ := reports_delivered 2 .warn ops
  obtain ⟨hfirst, -, hwhole, -, -⟩ := hsubscribers early (shared ++ .subscribe :: late) rfl
  obtain ⟨hsecond, -, -, hleft, -⟩ :=
    hsubscribers (early ++ .subscribe :: shared) late (by simp [ops])
  have hstays : .unsubscribe 0 ∉ shared ++ .subscribe :: late := by decide
  refine ⟨hhistory.trans rfl, hechoed.trans rfl, hstays, hfirst.trans rfl, ?_, ?_⟩
  · exact (congrArg (· ++ (start.run ops).waiting 0) hfirst).trans ((hwhole hstays).trans rfl)
  · exact (hsecond.trans (hleft [.log (told .info "retried"), .receive 1]
      [.log (told .fatal "lost")] rfl)).trans rfl

end StatusLog

end LogPipeline

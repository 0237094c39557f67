import RpcContract.Streaming.Channel

/-!
# Histories of a channel

Any number of senders and one consumer work on a channel, one operation after another.  A history
lists what has been done, by whom, and what was answered.  All that a channel promises is said of
histories alone: which items were taken, which were handed out, and when the channel was closed.
-/

namespace RpcContract.Channel

/-! ## Operations -/

/-- What can be done with a channel.  Senders are told apart by their numbers. -/
inductive Operation where
  | send (sender : Nat) (value : Json)
  | throw (sender : Nat) (e : HttpError)
  | close (sender : Nat)
  | clone (sender : Nat)
  | dropSender (sender : Nat)
  | poll
  | dropConsumer
deriving DecidableEq, Repr

inductive Answer where
  | nothing
  | pushed (accepted : Bool)
  | polled (answer : Poll Item)

namespace Operation

/-- Only senders and consumers that are still there can do anything. -/
def Allowed (channel : Channel) : Operation → Prop
  | .send sender _ | .throw sender _ | .close sender | .clone sender | .dropSender sender =>
      sender < channel.senders
  | .poll | .dropConsumer => channel.hasConsumer = true

instance (channel : Channel) : (operation : Operation) → Decidable (operation.Allowed channel)
  | .send sender _ | .throw sender _ | .close sender | .clone sender | .dropSender sender =>
      inferInstanceAs (Decidable (sender < channel.senders))
  | .poll | .dropConsumer => inferInstanceAs (Decidable (channel.hasConsumer = true))

def item? : Operation → Option Item
  | .send _ value => some (.ok value)
  | .throw _ e => some (.error e)
  | _ => none

/-- Operations after which a channel is closed, whatever it was before. -/
def closes : Operation → Bool
  | .throw _ _ | .close _ | .dropConsumer => true
  | _ => false

def isClone : Operation → Bool
  | .clone _ => true
  | _ => false

def isDropSender : Operation → Bool
  | .dropSender _ => true
  | _ => false

end Operation

def perform (channel : Channel) : Operation → Answer × Channel
  | .send _ value => (.pushed (channel.send value).1, (channel.send value).2)
  | .throw _ e => (.pushed (channel.throw e).1, (channel.throw e).2)
  | .close _ => (.nothing, channel.close)
  | .clone _ => (.nothing, channel.cloneSender)
  | .dropSender _ => (.nothing, channel.dropSender)
  | .poll => (.polled channel.poll.1, channel.poll.2)
  | .dropConsumer => (.nothing, channel.dropConsumer)

/-! ## Histories -/

abbrev Entry := Operation × Answer

namespace Entry

def accepted? : Entry → Option Item
  | (operation, .pushed true) => operation.item?
  | _ => none

def received? : Entry → Option Item
  | (_, .polled (.ready item)) => some item
  | _ => none

end Entry

abbrev History := List Entry

namespace History

def accepted (history : History) : List Item := history.filterMap Entry.accepted?

def received (history : History) : List Item := history.filterMap Entry.received?

def clones (history : History) : Nat := history.countP (·.1.isClone)

def drops (history : History) : Nat := history.countP (·.1.isDropSender)

/-- Somebody has closed the channel, or the consumer or the last sender is gone. -/
def Closed (history : History) : Prop :=
  (∃ entry ∈ history, entry.1.closes = true) ∨ history.drops = history.clones + 1

end History

inductive Runs : Channel → History → Channel → Prop
  | done (channel : Channel) : Runs channel [] channel
  | step {channel last : Channel} {operation : Operation} {later : History} :
      operation.Allowed channel → Runs (channel.perform operation).2 later last →
      Runs channel ((operation, (channel.perform operation).1) :: later) last

/-! ## One operation -/

theorem push_eq (channel : Channel) (item : Item) :
    channel.push item = (channel.isOpen,
      { channel with queue := channel.queue ++ if channel.isOpen then [item] else [] }) := by
  cases h : channel.isOpen <;> simp [push, h]
  rw [← h]

theorem dropSender_eq (channel : Channel) :
    channel.dropSender = { channel with
      senders := channel.senders - 1
      isOpen := channel.isOpen && decide (1 < channel.senders) } := by
  by_cases h : channel.senders - 1 = 0
  · simp [dropSender, close, h, show ¬ 1 < channel.senders by omega]
  · simp [dropSender, h, show 1 < channel.senders by omega]

theorem poll_snd (channel : Channel) :
    channel.poll.2 = { channel with queue := channel.queue.tail } := by
  obtain ⟨queue, _, _, _⟩ := channel
  cases queue <;> rfl

section Perform

variable (channel : Channel) (operation : Operation)

theorem perform_fst_of_item {operation : Operation} (h : operation.item?.isSome) :
    (channel.perform operation).1 = .pushed channel.isOpen := by
  cases operation with
  | send | throw => simp [perform, send, throw, push_eq]
  | _ => cases h

theorem accepted?_perform :
    Entry.accepted? (operation, (channel.perform operation).1) =
      if channel.isOpen then operation.item? else none := by
  cases h : channel.isOpen <;> cases operation <;>
    simp [perform, send, throw, push_eq, h, Entry.accepted?, Operation.item?]

theorem received?_perform :
    Entry.received? (operation, (channel.perform operation).1) =
      if operation = .poll then channel.queue.head? else none := by
  cases operation with
  | poll =>
      cases h : channel.queue with
      | nil => cases hopen : channel.isOpen <;> simp [perform, poll, h, hopen, Entry.received?]
      | cons item rest => simp [perform, poll, h, Entry.received?]
  | _ => rfl

theorem perform_senders (hallowed : operation.Allowed channel) :
    (channel.perform operation).2.senders + operation.isDropSender.toNat =
      channel.senders + operation.isClone.toNat := by
  cases operation with
  | dropSender sender =>
      have hpresent : sender < channel.senders := hallowed
      simp only [perform, dropSender_eq, Operation.isDropSender, Operation.isClone,
        Bool.toNat_true, Bool.toNat_false]
      omega
  | _ =>
      simp [perform, send, throw, push_eq, poll_snd, close, cloneSender, dropConsumer,
        Operation.isDropSender, Operation.isClone]

theorem perform_hasConsumer :
    (channel.perform operation).2.hasConsumer = true ↔
      channel.hasConsumer = true ∧ operation ≠ .dropConsumer := by
  cases operation <;>
    simp [perform, send, throw, push_eq, poll_snd, dropSender_eq, close, cloneSender, dropConsumer]

theorem perform_isOpen :
    (channel.perform operation).2.isOpen = false ↔ channel.isOpen = false ∨
      operation.closes = true ∨ (operation.isDropSender = true ∧ channel.senders ≤ 1) := by
  cases operation <;> cases hopen : channel.isOpen <;>
    simp [perform, send, throw, push_eq, poll_snd, dropSender_eq, close, cloneSender,
      dropConsumer, hopen, Operation.closes, Operation.isDropSender]

/-- What is handed out leaves at the front, and what is taken joins at the end. -/
theorem perform_queue (h : operation ≠ .dropConsumer) :
    (Entry.received? (operation, (channel.perform operation).1)).toList ++
        (channel.perform operation).2.queue =
      channel.queue ++ (Entry.accepted? (operation, (channel.perform operation).1)).toList := by
  rw [accepted?_perform, received?_perform]
  cases operation with
  | dropConsumer => exact absurd rfl h
  | send | throw =>
      cases hopen : channel.isOpen <;>
        simp [perform, send, throw, push_eq, close, hopen, Operation.item?]
  | poll => cases hqueue : channel.queue <;> simp [perform, poll_snd, hqueue, Operation.item?]
  | _ => simp [perform, dropSender_eq, close, cloneSender, Operation.item?]

end Perform

/-! ## What a history says about a channel -/

namespace History

variable (past : History) (entry : Entry)

theorem accepted_append (past later : History) :
    accepted (past ++ later) = past.accepted ++ later.accepted := List.filterMap_append

theorem accepted_append_singleton :
    accepted (past ++ [entry]) = past.accepted ++ entry.accepted?.toList := by
  cases h : entry.accepted? <;> simp [accepted, h]

theorem received_append_singleton :
    received (past ++ [entry]) = past.received ++ entry.received?.toList := by
  cases h : entry.received? <;> simp [received, h]

theorem clones_append_singleton :
    clones (past ++ [entry]) = past.clones + entry.1.isClone.toNat := by
  cases h : entry.1.isClone <;> simp [clones, h]

theorem drops_append_singleton :
    drops (past ++ [entry]) = past.drops + entry.1.isDropSender.toNat := by
  cases h : entry.1.isDropSender <;> simp [drops, h]

theorem closed_append_singleton :
    Closed (past ++ [entry]) ↔ (∃ old ∈ past, old.1.closes = true) ∨ entry.1.closes = true ∨
      past.drops + entry.1.isDropSender.toNat = past.clones + entry.1.isClone.toNat + 1 := by
  rw [Closed, clones_append_singleton, drops_append_singleton]
  simp only [List.mem_append, List.mem_singleton, or_and_right, exists_or, exists_eq_left,
    or_assoc]

end History

/-- A channel is in the state that its history has brought it to. -/
structure Tracks (past : History) (channel : Channel) : Prop where
  senders : channel.senders + past.drops = past.clones + 1
  closed : channel.isOpen = false ↔ past.Closed
  consumer : channel.hasConsumer = true ↔ ∀ entry ∈ past, entry.1 ≠ .dropConsumer
  waiting : channel.hasConsumer = true → past.received ++ channel.queue = past.accepted
  received : past.received <+: past.accepted

theorem tracks_fresh : Tracks [] {} where
  senders := rfl
  closed := by simp [History.Closed, History.drops, History.clones]
  consumer := by simp
  waiting := by simp [History.received, History.accepted]
  received := by simp [History.received, History.accepted]

namespace Tracks

variable {past later : History} {channel last : Channel} {operation : Operation}

theorem next (h : Tracks past channel) (hallowed : operation.Allowed channel) :
    Tracks (past ++ [(operation, (channel.perform operation).1)])
      (channel.perform operation).2 := by
  have hsenders := h.senders
  have hnext := perform_senders channel operation hallowed
  have hwaiting (hthere : (channel.perform operation).2.hasConsumer = true) :
      History.received (past ++ [(operation, (channel.perform operation).1)]) ++
        (channel.perform operation).2.queue =
      History.accepted (past ++ [(operation, (channel.perform operation).1)]) := by
    obtain ⟨hbefore, hkept⟩ := (perform_hasConsumer channel operation).mp hthere
    rw [History.received_append_singleton, History.accepted_append_singleton, List.append_assoc,
      perform_queue channel operation hkept, ← List.append_assoc, h.waiting hbefore]
  refine ⟨?_, ?_, ?_, ?_, ?_⟩
  · simp only [History.drops_append_singleton, History.clones_append_singleton]
    omega
  · rw [perform_isOpen, h.closed, History.closed_append_singleton, History.Closed]
    by_cases hclosing : ∃ entry ∈ past, entry.1.closes = true
    · simp only [hclosing, true_or]
    simp only [hclosing, false_or]
    -- Nobody has closed the channel yet, so that all depends on the number of senders.
    cases operation with
    | clone | dropSender =>
        have hpresent : 0 < channel.senders := Nat.zero_lt_of_lt hallowed
        simp [Operation.closes, Operation.isDropSender, Operation.isClone]
        omega
    | _ => simp [Operation.closes, Operation.isDropSender, Operation.isClone]
  · rw [perform_hasConsumer, h.consumer]
    simp [or_imp, forall_and]
  · exact hwaiting
  · by_cases hpoll : operation = .poll
    · subst hpoll
      have hthere : (channel.perform .poll).2.hasConsumer = true :=
        (perform_hasConsumer channel .poll).mpr ⟨hallowed, nofun⟩
      exact ⟨_, hwaiting hthere⟩
    · rw [History.received_append_singleton, History.accepted_append_singleton, received?_perform,
        if_neg hpoll, Option.toList_none, List.append_nil]
      exact h.received.trans (List.prefix_append _ _)

theorem runs (h : Tracks past channel) (hruns : Runs channel later last) :
    Tracks (past ++ later) last := by
  induction hruns generalizing past with
  | done => simpa using h
  | step hallowed _ ih => simpa using ih (h.next hallowed)

end Tracks

/-! ## Whole runs -/

namespace Runs

variable {channel last : Channel} {before after history : History}

theorem split (h : Runs channel (before ++ after) last) :
    ∃ middle, Runs channel before middle ∧ Runs middle after last := by
  induction before generalizing channel with
  | nil => exact ⟨channel, .done channel, h⟩
  | cons entry rest ih =>
      cases h with
      | step hallowed hrest =>
          obtain ⟨middle, hbefore, hafter⟩ := ih hrest
          exact ⟨middle, .step hallowed hbefore, hafter⟩

/-- A closed channel stays closed and takes nothing any more. -/
theorem of_closed (h : Runs channel history last) (hclosed : channel.isOpen = false) :
    last.isOpen = false ∧ history.accepted = [] := by
  induction h with
  | done => exact ⟨hclosed, rfl⟩
  | @step channel _ operation later _ _ ih =>
      obtain ⟨hlast, hnone⟩ := ih ((perform_isOpen channel operation).mpr (.inl hclosed))
      refine ⟨hlast, ?_⟩
      rw [History.accepted, List.filterMap_cons, accepted?_perform, hclosed]
      exact hnone

end Runs

theorem poll_fst (channel : Channel) :
    channel.poll.1 = match channel.queue with
      | item :: _ => .ready item
      | [] => if channel.isOpen then .pending else .finished := by
  unfold poll
  cases channel.queue <;> rfl

/-- What a channel promises to those that use it. -/
structure Lawful (history : History) (channel : Channel) : Prop where
  /-- An item is accepted if nobody has closed the channel and the consumer is there. -/
  pushed : ∀ (before : History) operation answer (after : History),
    history = before ++ (operation, answer) :: after → operation.item?.isSome →
    ∃ accepted, answer = .pushed accepted ∧ (accepted = true ↔ ¬ before.Closed)
  /-- What has been accepted is handed out or waits, in the order in which it came. -/
  kept : channel.hasConsumer = true → history.received ++ channel.queue = history.accepted
  closed : ∀ before after : History, history = before ++ after → before.Closed →
    channel.isOpen = false ∧ history.Closed ∧ after.accepted = []
  polled : ∀ (before : History) answer (after : History),
    history = before ++ (.poll, answer) :: after →
    (∃ item rest, answer = .polled (.ready item) ∧
      before.accepted = before.received ++ item :: rest) ∨
    (answer = .polled .finished ∧ before.received = before.accepted ∧ before.Closed) ∨
    (answer = .polled .pending ∧ before.received = before.accepted ∧ ¬ before.Closed)
  /-- An error that is thrown and accepted is the last item. -/
  thrown : ∀ (before : History) sender e (after : History),
    history = before ++ (.throw sender e, .pushed true) :: after →
    history.accepted = before.accepted ++ [.error e] ∧
      history.received <+: before.accepted ++ [.error e]

theorem Runs.tracks {history : History} {channel : Channel} (h : Runs {} history channel) :
    Tracks history channel := tracks_fresh.runs h

/-- Before an entry of a history the channel is in the state that the entries before it have
brought about, and the entry holds what is answered there. -/
theorem Runs.at_entry {before after : History} {operation : Operation} {answer : Answer}
    {channel : Channel} (h : Runs {} (before ++ (operation, answer) :: after) channel) :
    ∃ middle, Tracks before middle ∧ operation.Allowed middle ∧
      answer = (middle.perform operation).1 ∧ Runs (middle.perform operation).2 after channel := by
  obtain ⟨middle, hbefore, hrest⟩ := h.split
  cases hrest with
  | step hallowed hafter => exact ⟨middle, hbefore.tracks, hallowed, rfl, hafter⟩

/-- Whatever any number of senders and a consumer do with a channel, it keeps its promises. -/
theorem runs_lawful {history : History} {channel : Channel} (h : Runs {} history channel) :
    Lawful history channel where
  pushed before operation answer after hhistory hitem := by
    subst hhistory
    obtain ⟨middle, htracks, -, rfl, -⟩ := h.at_entry
    refine ⟨middle.isOpen, perform_fst_of_item middle hitem, ?_⟩
    rw [← htracks.closed, Bool.not_eq_false]
  kept := h.tracks.waiting
  closed before after hhistory hclosed := by
    subst hhistory
    obtain ⟨middle, hbefore, hafter⟩ := h.split
    obtain ⟨hlast, hnone⟩ := hafter.of_closed (hbefore.tracks.closed.mpr hclosed)
    exact ⟨hlast, h.tracks.closed.mp hlast, hnone⟩
  polled before answer after hhistory := by
    subst hhistory
    obtain ⟨middle, htracks, hallowed, rfl, -⟩ := h.at_entry
    have hwaiting := htracks.waiting hallowed
    have hanswer : (middle.perform .poll).1 = .polled middle.poll.1 := rfl
    rw [hanswer, poll_fst]
    cases hqueue : middle.queue with
    | cons item rest => exact .inl ⟨item, rest, rfl, by rw [← hwaiting, hqueue]⟩
    | nil =>
        rw [hqueue, List.append_nil] at hwaiting
        cases hopen : middle.isOpen with
        | false => exact .inr (.inl ⟨rfl, hwaiting, htracks.closed.mp hopen⟩)
        | true =>
            refine .inr (.inr ⟨rfl, hwaiting, fun hclosed => ?_⟩)
            rw [htracks.closed.mpr hclosed] at hopen
            cases hopen
  thrown before sender e after hhistory := by
    subst hhistory
    obtain ⟨middle, htracks, -, hanswer, hafter⟩ := h.at_entry
    obtain ⟨-, hnone⟩ := hafter.of_closed ((perform_isOpen middle _).mpr (.inr (.inl rfl)))
    have haccepted : History.accepted (before ++ (.throw sender e, .pushed true) :: after) =
        before.accepted ++ [.error e] := by
      rw [List.append_cons, History.accepted_append, History.accepted_append_singleton, hnone,
        List.append_nil]
      rfl
    exact ⟨haccepted, haccepted ▸ h.tracks.received⟩

/-- One sender throws while another one goes on sending. -/
def thrownHistory : History :=
  [(.clone 0, .nothing), (.send 1 (.int 1), .pushed true),
    (.poll, .polled (.ready (.ok (.int 1)))), (.poll, .polled .pending),
    (.throw 0 (.client "off"), .pushed true), (.send 1 (.int 2), .pushed false),
    (.dropSender 0, .nothing), (.poll, .polled (.ready (.error (.client "off")))),
    (.poll, .polled .finished), (.dropConsumer, .nothing)]

theorem runs_lawful_thrown :
    Runs {} thrownHistory { isOpen := false, hasConsumer := false } ∧
      Lawful thrownHistory { isOpen := false, hasConsumer := false } := by
  have hruns : Runs {} thrownHistory { isOpen := false, hasConsumer := false } := by
    iterate 10 refine .step (by decide) ?_
    exact .done _
  exact ⟨hruns, runs_lawful hruns⟩

end RpcContract.Channel

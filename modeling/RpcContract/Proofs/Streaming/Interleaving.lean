import Mathlib.Logic.Function.Basic
import RpcContract.Streaming.Channel

/-!
# Interleaved senders

What a sender does is made of moves, and nothing comes between the parts of one move.  Throwing is
two of them: the error is queued, and then the channel is closed.  Other senders can move between
the two, so that items can follow the error.
-/

namespace RpcContract.Channel

/-! ## Moves -/

inductive Move where
  | push (item : Item)
  | close
deriving Repr

inductive Action where
  | send (value : Json)
  | throw (e : HttpError)
  | close
deriving DecidableEq, Repr

def Action.moves : Action → List Move
  | .send value => [.push (.ok value)]
  | .throw e => [.push (.error e), .close]
  | .close => [.close]

def move (channel : Channel) : Move → Channel
  | .push item => (channel.push item).2
  | .close => channel.close

def act (channel : Channel) : Action → Channel
  | .send value => (channel.send value).2
  | .throw e => (channel.throw e).2
  | .close => channel.close

/-- Undisturbed moves come to what is done at once. -/
theorem act_eq_moves (channel : Channel) (action : Action) :
    channel.act action = action.moves.foldl move channel := by
  cases action <;> rfl

theorem eq_close_of_throw {actions : List Action} {before after : List Move} {e : HttpError}
    {next : Move}
    (h : before ++ .push (.error e) :: next :: after <+: actions.flatMap Action.moves) :
    next = .close := by
  induction actions generalizing before with
  | nil => simp at h
  | cons action actions ih =>
      rw [List.flatMap_cons] at h
      cases action with
      | send value =>
          cases before with
          | nil => simp [Action.moves] at h
          | cons first before => exact ih (List.cons_prefix_cons.mp h).2
      | close =>
          cases before with
          | nil => simp [Action.moves] at h
          | cons first before => exact ih (List.cons_prefix_cons.mp h).2
      | throw other =>
          rcases before with _ | ⟨first, _ | ⟨second, before⟩⟩
          · exact (List.cons_prefix_cons.mp (List.cons_prefix_cons.mp h).2).1
          · simp [Action.moves, List.cons_prefix_cons] at h
          · exact ih (List.cons_prefix_cons.mp (List.cons_prefix_cons.mp h).2).2

/-! ## Events -/

inductive Event where
  | moved (sender : Nat) (move : Move)
  | polled (answer : Poll Item)

namespace Event

def pushed? : Event → Option Item
  | .moved _ (.push item) => some item
  | _ => none

def received? : Event → Option Item
  | .polled (.ready item) => some item
  | _ => none

def isClose : Event → Bool
  | .moved _ .close => true
  | _ => false

def moveOf? (sender : Nat) : Event → Option Move
  | .moved other move => if other = sender then some move else none
  | .polled _ => none

end Event

def pushed (events : List Event) : List Item := events.filterMap Event.pushed?

def received (events : List Event) : List Item := events.filterMap Event.received?

/-- Senders take turns in any order, each with the moves that are left to it, while the consumer
asks for items. -/
inductive Interleaves : (Nat → List Move) → Channel → List Event → Channel → Prop
  | done (left : Nat → List Move) (channel : Channel) : Interleaves left channel [] channel
  | moved {left : Nat → List Move} {channel last : Channel} {sender : Nat} {next : Move}
      {rest : List Move} {later : List Event} :
      sender < channel.senders → left sender = next :: rest →
      Interleaves (Function.update left sender rest) (channel.move next) later last →
      Interleaves left channel (.moved sender next :: later) last
  | polled {left : Nat → List Move} {channel last : Channel} {later : List Event} :
      Interleaves left channel.poll.2 later last →
      Interleaves left channel (.polled channel.poll.1 :: later) last

/-! ## Runs -/

/-- What is pushed before the channel is closed. -/
def taken (events : List Event) : List Item := pushed (events.takeWhile (!·.isClose))

theorem move_push_of_isOpen {channel : Channel} (h : channel.isOpen = true) (item : Item) :
    channel.move (.push item) = { channel with queue := channel.queue ++ [item] } := by
  rw [move, push, if_pos h]

theorem move_push_of_closed {channel : Channel} (h : channel.isOpen = false) (item : Item) :
    channel.move (.push item) = channel := by
  rw [move, push, if_neg (by simp [h])]

theorem poll_isOpen (channel : Channel) : channel.poll.2.isOpen = channel.isOpen := by
  unfold poll
  split <;> rfl

theorem received_poll (channel : Channel) :
    (Event.received? (.polled channel.poll.1)).toList ++ channel.poll.2.queue =
      channel.queue := by
  unfold poll
  split
  next item queue h => simp [Event.received?, h]
  next h => cases channel.isOpen <;> simp [Event.received?, h]

namespace Interleaves

variable {left : Nat → List Move} {channel last : Channel} {events : List Event}

/-- What was queued or is pushed while the channel is open is received or waits, in this order. -/
theorem received_append (h : Interleaves left channel events last) :
    received events ++ last.queue =
      channel.queue ++ if channel.isOpen then taken events else [] := by
  induction h with
  | done left channel => simp [received, taken, pushed]
  | @moved left channel last sender next rest later _ _ _ ih =>
      rw [received, List.filterMap_cons_none rfl, ← received, ih]
      cases next with
      | close => simp [move, close, taken, pushed, Event.isClose]
      | push item =>
          cases hopen : channel.isOpen with
          | true =>
              simp [move_push_of_isOpen hopen, hopen, taken, pushed, Event.isClose, Event.pushed?]
          | false => simp [move_push_of_closed hopen, hopen]
  | @polled left channel last later _ ih =>
      have htaken : taken (.polled channel.poll.1 :: later) = taken later := rfl
      have hpoll := received_poll channel
      rw [poll_isOpen] at ih
      rw [htaken, ← hpoll, List.append_assoc, ← ih, ← List.append_assoc]
      congr 1
      rw [received, List.filterMap_cons]
      cases Event.received? (.polled channel.poll.1) <;> rfl

theorem moves_prefix (h : Interleaves left channel events last) (sender : Nat) :
    events.filterMap (Event.moveOf? sender) <+: left sender := by
  induction h with
  | done left channel => exact List.nil_prefix
  | @moved left channel last other next rest later _ hleft _ ih =>
      by_cases hsame : other = sender
      · subst hsame
        rw [Function.update_self] at ih
        rw [hleft, List.filterMap_cons_some (b := next) (by simp [Event.moveOf?])]
        exact List.cons_prefix_cons.mpr ⟨rfl, ih⟩
      · rw [Function.update_of_ne (Ne.symm hsame)] at ih
        rwa [List.filterMap_cons_none (by simp [Event.moveOf?, hsame])]
  | polled _ ih => exact ih

end Interleaves

theorem exists_event_of_pushed {events : List Event} {item : Item} {items others : List Item}
    (h : pushed events = items ++ item :: others) :
    ∃ before sender after, events = before ++ .moved sender (.push item) :: after ∧
      pushed before = items ∧ pushed after = others := by
  obtain ⟨before, rest, rfl, hbefore, hrest⟩ := List.filterMap_eq_append_iff.mp h
  obtain ⟨skipped, event, after, rfl, hskipped, hevent, hafter⟩ :=
    List.filterMap_eq_cons_iff.mp hrest
  have hpush : ∃ sender, event = .moved sender (.push item) := by
    rcases event with ⟨sender, _ | _⟩ | _
    · exact ⟨sender, by simpa [Event.pushed?] using hevent⟩
    · cases hevent
    · cases hevent
  obtain ⟨sender, rfl⟩ := hpush
  refine ⟨before ++ skipped, sender, after, by simp, ?_, hafter⟩
  rw [pushed, List.filterMap_append, hbefore, List.filterMap_eq_nil_iff.mpr hskipped,
    List.append_nil]

theorem pushed_eq_nil_iff {events : List Event} :
    pushed events = [] ↔ ∀ sender item, .moved sender (.push item) ∉ events := by
  rw [pushed, List.filterMap_eq_nil_iff]
  constructor
  · intro hnone sender item hmem
    cases hnone _ hmem
  · rintro hnone (⟨sender, item | _⟩ | _) hmem
    · exact absurd hmem (hnone sender item)
    · rfl
    · rfl

/-- What is pushed before the channel is closed, at the move that pushes one of the items. -/
theorem exists_event_of_taken {events : List Event} {item : Item} {items others : List Item}
    (h : taken events = items ++ item :: others) :
    ∃ before sender between rest,
      events = before ++ .moved sender (.push item) :: (between ++ rest) ∧
      (∀ event ∈ before ++ between, event.isClose = false) ∧
      (∀ event ∈ rest.head?, event.isClose = true) ∧
      pushed before = items ∧ pushed between = others := by
  obtain ⟨before, sender, between, hopen, hbefore, hbetween⟩ := exists_event_of_pushed h
  refine ⟨before, sender, between, events.dropWhile (!·.isClose), ?split, ?noClose, ?rest,
    hbefore, hbetween⟩
  case split =>
    rw [← List.cons_append, ← List.append_assoc, ← hopen, List.takeWhile_append_dropWhile]
  case noClose =>
    intro event hevent
    have hmem : event ∈ events.takeWhile (!·.isClose) := by
      rw [hopen]
      rcases List.mem_append.mp hevent with hevent | hevent
      · exact List.mem_append_left _ hevent
      · exact List.mem_append_right _ (List.mem_cons_of_mem _ hevent)
    simpa using List.all_eq_true.mp List.all_takeWhile event hmem
  case rest =>
    intro event hevent
    have hhead := List.head?_dropWhile_not (fun event : Event => !event.isClose) events
    rw [Option.mem_def.mp hevent] at hhead
    simpa using hhead

/-- Who has queued an error makes no other move before the channel is closed. -/
theorem Interleaves.moved_notMem {actions : Nat → List Action} {channel last : Channel}
    {before between rest : List Event} {sender : Nat} {e : HttpError}
    (h : Interleaves (fun sender => (actions sender).flatMap Action.moves) channel
      (before ++ .moved sender (.push (.error e)) :: (between ++ rest)) last)
    (hopen : ∀ event ∈ between, event.isClose = false) (next : Move) :
    .moved sender next ∉ between := by
  intro hnext
  have hmoves := h.moves_prefix sender
  rw [List.filterMap_append, List.filterMap_cons_some (b := .push (.error e))
    (by simp [Event.moveOf?]), List.filterMap_append] at hmoves
  cases hown : between.filterMap (Event.moveOf? sender) with
  | nil =>
      have hnone := List.filterMap_eq_nil_iff.mp hown _ hnext
      simp [Event.moveOf?] at hnone
  | cons first others =>
      -- The next move of the sender closes the channel, and nothing in between does.
      rw [hown, List.cons_append] at hmoves
      obtain rfl := eq_close_of_throw hmoves
      obtain ⟨event, hevent, hmove⟩ := List.mem_filterMap.mp (hown ▸ List.mem_cons_self)
      have hopened := hopen event hevent
      rcases event with ⟨other, _ | _⟩ | _
      · simp [Event.moveOf?] at hmove
      · cases hopened
      · cases hmove

/-- What comes behind an error has been pushed by others between the two moves of its sender, before
anybody has closed the channel.  So nothing comes behind it just if nothing is pushed there. -/
theorem received_behind_error {actions : Nat → List Action} {senders : Nat} {events : List Event}
    {last : Channel} {seen late : List Item} {e : HttpError}
    (h : Interleaves (fun sender => (actions sender).flatMap Action.moves) { senders } events last)
    (hreceived : received events = seen ++ .error e :: late) :
    ∃ before sender between rest,
      events = before ++ .moved sender (.push (.error e)) :: (between ++ rest) ∧
      (∀ event ∈ before ++ between, event.isClose = false) ∧
      (∀ event ∈ rest.head?, event.isClose = true) ∧
      (∀ next, .moved sender next ∉ between) ∧
      pushed before = seen ∧ pushed between = late ++ last.queue ∧
      (late ++ last.queue = [] ↔ ∀ other item, .moved other (.push item) ∉ between) := by
  have htaken : taken events = seen ++ .error e :: (late ++ last.queue) := by
    have hall := h.received_append
    rw [hreceived] at hall
    simpa using hall.symm
  obtain ⟨before, sender, between, rest, rfl, hnoClose, hrest, hseen, hlate⟩ :=
    exists_event_of_taken htaken
  have hown := h.moved_notMem fun event hevent => hnoClose event (List.mem_append_right _ hevent)
  refine ⟨before, sender, between, rest, rfl, hnoClose, hrest, hown, hseen, hlate, ?_⟩
  rw [← hlate]
  exact pushed_eq_nil_iff

/-! One sender throws, and another one sends before the first has closed the channel. -/

def overtakingActions : Nat → List Action
  | 0 => [.throw (.client "off")]
  | 1 => [.send (.int 1)]
  | _ => []

def overtakingEvents : List Event :=
  [.moved 0 (.push (.error (.client "off"))), .moved 1 (.push (.ok (.int 1))), .moved 0 .close,
    .polled (.ready (.error (.client "off"))), .polled (.ready (.ok (.int 1))), .polled .finished]

theorem interleaves_overtaking :
    Interleaves (fun sender => (overtakingActions sender).flatMap Action.moves) { senders := 2 }
      overtakingEvents { senders := 2, isOpen := false } := by
  iterate 3 refine .moved (by decide) rfl ?_
  iterate 3 refine .polled ?_
  exact .done _ _

theorem received_behind_error_sent :
    received overtakingEvents = [.error (.client "off"), .ok (.int 1)] ∧
      ∃ before sender between rest,
        overtakingEvents =
          before ++ .moved sender (.push (.error (.client "off"))) :: (between ++ rest) ∧
        pushed between = [.ok (.int 1)] ∧ ∀ next, .moved sender next ∉ between := by
  have hreceived : received overtakingEvents = [] ++ .error (.client "off") :: [.ok (.int 1)] :=
    rfl
  obtain ⟨before, sender, between, rest, hevents, -, -, hown, -, hlate, -⟩ :=
    received_behind_error interleaves_overtaking hreceived
  exact ⟨hreceived, before, sender, between, rest, hevents, hlate, hown⟩

/-- An error need not be the last item. -/
theorem error_not_last :
    ¬ ∀ (actions : Nat → List Action) (senders : Nat) (events : List Event) (last : Channel)
        (seen late : List Item) (e : HttpError),
      Interleaves (fun sender => (actions sender).flatMap Action.moves) { senders } events last →
      received events = seen ++ .error e :: late → (∀ item ∈ seen, item.isOk) → late = [] := by
  intro hlast
  have hnone := hlast overtakingActions 2 overtakingEvents _ [] [.ok (.int 1)] _
    interleaves_overtaking rfl (by simp)
  cases hnone

end RpcContract.Channel

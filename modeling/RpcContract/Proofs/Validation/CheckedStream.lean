import RpcContract.Proofs.Validation.Observation

/-!
# Reading checked streams

Checked streams may stand around each other.  Every reading goes to the source first, and what it
gives is checked on the way out, by the innermost stream first.  Rules say what any number of
readings gives and what happens in each of them.
-/

namespace RpcContract

variable {σ : Type}

def ItemStream.nest (checks : List (ItemCheck σ)) (source : ItemStream σ) : ItemStream σ :=
  checks.foldr ItemStream.validate source

/-- One reading: what happens in it, and what it gives. -/
structure Pull where
  events : List Event
  answer : Option Item

/-- At most `count` readings, the last of which may find the end, and the state after them. -/
def ItemStream.pulls : Nat → ItemStream (Observed σ) → σ → List Pull × σ
  | 0, _, state => ([], state)
  | count + 1, stream, state =>
      match stream.next.run (.start state) with
      | ((none, _), observed) => ([⟨observed.events, none⟩], observed.state)
      | ((some item, stream), observed) =>
          let (rest, state) := pulls count stream observed.state
          (⟨observed.events, some item⟩ :: rest, state)

/-! ## The rules -/

namespace ItemCheck

def question (check : ItemCheck σ) (item : Json) : Question :=
  ⟨item, check.model, { part := .iteration, request := check.request, status := some 200 }⟩

def Due (check : ItemCheck σ) (index : Nat) : Prop := check.every = true ∨ index = 0

end ItemCheck

/-- Checks with the numbers that their events carry. -/
abbrev NumberedChecks (σ : Type) := List (ItemCheck σ × Nat)

abbrev NumberedChecks.observed (checks : NumberedChecks σ) : List (ItemCheck (Observed σ)) :=
  checks.map fun entry => entry.1.observed entry.2

/-- The item at a position goes through checks, through the last of them first.  A rejection ends
its way. -/
inductive Passes (index : Nat) (item : Json) (state : σ) :
    NumberedChecks σ → List Event → Except HttpError Unit → σ → Prop
  | unchecked : Passes index item state [] [] (.ok ()) state
  | stopped {check : ItemCheck σ} {number : Nat} {inner : NumberedChecks σ}
      {events : List Event} {e : HttpError} {state₁ : σ} :
      Passes index item state inner events (.error e) state₁ →
      Passes index item state ((check, number) :: inner) events (.error e) state₁
  | notDue {check : ItemCheck σ} {number : Nat} {inner : NumberedChecks σ}
      {events : List Event} {state₁ : σ} :
      Passes index item state inner events (.ok ()) state₁ → ¬ check.Due index →
      Passes index item state ((check, number) :: inner) events (.ok ()) state₁
  | rejected {check : ItemCheck σ} {number : Nat} {inner : NumberedChecks σ}
      {events : List Event} {e : HttpError} {state₁ state₂ : σ} :
      Passes index item state inner events (.ok ()) state₁ → check.Due index →
      (check.validator.ask (check.question item)).runFrom state₁ = (.error e, state₂) →
      Passes index item state ((check, number) :: inner)
        (events ++ [.asked number (check.question item) (.error e)]) (.error e) state₂
  | accepted {check : ItemCheck σ} {number : Nat} {inner : NumberedChecks σ}
      {events : List Event} {replacement : Option Json} {state₁ state₂ : σ} :
      Passes index item state inner events (.ok ()) state₁ → check.Due index →
      (check.validator.ask (check.question item)).runFrom state₁ = (.ok replacement, state₂) →
      Passes index item state ((check, number) :: inner)
        (events ++ [.asked number (check.question item) (.ok replacement)]) (.ok ()) state₂

/-- Readings after an error: the first finds the end, and nothing else happens. -/
def closed : Nat → List Pull
  | 0 => []
  | _ + 1 => [⟨[], none⟩]

theorem eq_of_mem_closed {count : Nat} {pull : Pull} (h : pull ∈ closed count) :
    pull = ⟨[], none⟩ := by
  cases count with
  | zero => cases h
  | succ count => exact List.mem_singleton.mp h

/-- What `count` readings give from a position on.  Each of them polls the source once; the first
item that is an error or is rejected is the last. -/
inductive Reads (checks : NumberedChecks σ) (poll : StateM σ (Option Item)) :
    Nat → Nat → σ → List Pull → σ → Prop
  | enough (index : Nat) (state : σ) : Reads checks poll index 0 state [] state
  | ended {index count : Nat} {state state₁ : σ} :
      poll.run state = (none, state₁) →
      Reads checks poll index (count + 1) state [⟨[.polled none], none⟩] state₁
  | broken {index count : Nat} {e : HttpError} {state state₁ : σ} :
      poll.run state = (some (.error e), state₁) →
      Reads checks poll index (count + 1) state
        (⟨[.polled (some (.error e))], some (.error e)⟩ :: closed count) state₁
  | rejected {index count : Nat} {item : Json} {events : List Event} {e : HttpError}
      {state state₁ state₂ : σ} :
      poll.run state = (some (.ok item), state₁) →
      Passes index item state₁ checks events (.error e) state₂ →
      Reads checks poll index (count + 1) state
        (⟨.polled (some (.ok item)) :: events, some (.error e)⟩ :: closed count) state₂
  | yielded {index count : Nat} {item : Json} {events : List Event} {rest : List Pull}
      {state state₁ state₂ state₃ : σ} :
      poll.run state = (some (.ok item), state₁) →
      Passes index item state₁ checks events (.ok ()) state₂ →
      Reads checks poll (index + 1) count state₂ rest state₃ →
      Reads checks poll index (count + 1) state
        (⟨.polled (some (.ok item)) :: events, some (.ok item)⟩ :: rest) state₃

/-! ## The rules cover every case -/

theorem Passes.exists (index : Nat) (item : Json) (state : σ) (checks : NumberedChecks σ) :
    ∃ events result state₁, Passes index item state checks events result state₁ := by
  induction checks with
  | nil => exact ⟨_, _, _, .unchecked⟩
  | cons entry inner ih =>
      obtain ⟨check, number⟩ := entry
      obtain ⟨events, result, state₁, hinner⟩ := ih
      cases result with
      | error e => exact ⟨_, _, _, .stopped hinner⟩
      | ok =>
          by_cases hdue : check.Due index
          · rcases h : (check.validator.ask (check.question item)).runFrom state₁
              with ⟨answer, state₂⟩
            cases answer with
            | error e => exact ⟨_, _, _, .rejected hinner hdue h⟩
            | ok replacement => exact ⟨_, _, _, .accepted hinner hdue h⟩
          · exact ⟨_, _, _, .notDue hinner hdue⟩

theorem Reads.exists (checks : NumberedChecks σ) (poll : StateM σ (Option Item))
    (index count : Nat) (state : σ) :
    ∃ pulls state₁, Reads checks poll index count state pulls state₁ := by
  induction count generalizing index state with
  | zero => exact ⟨_, _, .enough index state⟩
  | succ count ih =>
      rcases h : poll.run state with ⟨answer, state₁⟩
      rcases answer with _ | e | item
      · exact ⟨_, _, .ended h⟩
      · exact ⟨_, _, .broken h⟩
      obtain ⟨events, result, state₂, hpasses⟩ := Passes.exists index item state₁ checks
      cases result with
      | error e => exact ⟨_, _, .rejected h hpasses⟩
      | ok =>
          obtain ⟨rest, state₃, hrest⟩ := ih (index + 1) state₂
          exact ⟨_, _, .yielded h hpasses hrest⟩

/-! ## One reading -/

namespace ItemStream

/-- Checks around a source that has been read up to a position. -/
def around (checks : List (ItemCheck σ)) (poll : StateM σ (Option Item)) (index : Nat) :
    ItemStream σ :=
  checks.foldr (fun check inner => .checked check index false inner) (.source poll)

theorem nest_eq_around (checks : List (ItemCheck σ)) (poll : StateM σ (Option Item)) :
    nest checks (.source poll) = around checks poll 0 := rfl

/-- An item taken through checks, through the last of them first. -/
def verdicts (checks : List (ItemCheck σ)) (index : Nat) (item : Json) : StateM σ Item :=
  checks.foldr (fun check inner => do
    match ← inner with
    | .ok item => verdict check index item
    | .error e => return .error e) (return .ok item)

def IsDone (stream : ItemStream σ) : Prop :=
  ∃ check index inner, stream = .checked check index true inner

section Checked

variable {check : ItemCheck σ} {index : Nat} {item : Json} {e : HttpError}
  {item' : Json} {inner inner' : ItemStream σ} {state state₁ state₂ : σ}

theorem verdict_notDue (h : ¬ check.Due index) :
    (verdict check index item).run state = (.ok item, state) := by
  have hdue : ¬ (check.every || decide (index = 0)) = true := by simpa [ItemCheck.Due] using h
  rw [verdict, if_neg hdue]
  rfl

theorem verdict_due {answer : Except HttpError (Option Json)} (hdue : check.Due index)
    (h : (check.validator.ask (check.question item)).runFrom state = (answer, state₁)) :
    (verdict check index item).run state = (answer.map fun _ => item, state₁) := by
  have hdue : (check.every || decide (index = 0)) = true := by simpa [ItemCheck.Due] using hdue
  have hasked : StateT.run (ExceptT.run (check.validator item check.model
      { part := .iteration, request := check.request, status := itemStatus })) state =
      (answer, state₁) := h
  rw [verdict, if_pos hdue, StateT.run_bind, hasked]
  cases answer <;> rfl

theorem verdict_observed {answer : Except HttpError (Option Json)} (number : Nat)
    (before : List Event) (hdue : check.Due index)
    (h : (check.validator.ask (check.question item)).runFrom state = (answer, state₁)) :
    (verdict (check.observed number) index item).run ⟨state, before⟩ =
      (answer.map fun _ => item,
        ⟨state₁, before ++ [.asked number (check.question item) answer]⟩) := by
  have hdue : (check.observed number).Due index := hdue
  exact verdict_due hdue (Validator.runFrom_observed number h)

theorem next_checked_none (h : inner.next.run state = ((none, inner'), state₁)) :
    (checked check index false inner).next.run state =
      ((none, checked check index false inner'), state₁) := by
  rw [next, StateT.run_bind, h]
  rfl

theorem next_checked_error (h : inner.next.run state = ((some (.error e), inner'), state₁)) :
    (checked check index false inner).next.run state =
      ((some (.error e), checked check index true inner'), state₁) := by
  rw [next, StateT.run_bind, h]
  rfl

theorem next_checked_rejected (h : inner.next.run state = ((some (.ok item), inner'), state₁))
    (hverdict : (verdict check index item).run state₁ = (.error e, state₂)) :
    (checked check index false inner).next.run state =
      ((some (.error e), checked check (index + 1) true inner'), state₂) := by
  rw [next, StateT.run_bind, h]
  change StateT.run (verdict check index item >>= _) state₁ = _
  rw [StateT.run_bind, hverdict]
  rfl

theorem next_checked_accepted (h : inner.next.run state = ((some (.ok item), inner'), state₁))
    (hverdict : (verdict check index item).run state₁ = (.ok item', state₂)) :
    (checked check index false inner).next.run state =
      ((some (.ok item'), checked check (index + 1) false inner'), state₂) := by
  rw [next, StateT.run_bind, h]
  change StateT.run (verdict check index item >>= _) state₁ = _
  rw [StateT.run_bind, hverdict]
  rfl

end Checked

section Around

variable {check : ItemCheck σ} {checks : List (ItemCheck σ)} {poll : StateM σ (Option Item)}
  {index : Nat} {item item' : Json} {e : HttpError} {state state₁ state₂ : σ}

theorem verdicts_cons_error (h : (verdicts checks index item).run state = (.error e, state₁)) :
    (verdicts (check :: checks) index item).run state = (.error e, state₁) := by
  change StateT.run (verdicts checks index item >>= _) state = _
  rw [StateT.run_bind, h]
  rfl

theorem verdicts_cons_ok (h : (verdicts checks index item).run state = (.ok item', state₁)) :
    (verdicts (check :: checks) index item).run state =
      (verdict check index item').run state₁ := by
  change StateT.run (verdicts checks index item >>= _) state = _
  rw [StateT.run_bind, h]
  rfl

theorem next_source {answer : Option Item} (h : poll.run state = (answer, state₁)) :
    (source poll).next.run state = ((answer, source poll), state₁) := by
  rw [next, StateT.run_bind, h]
  rfl

theorem next_around_none (h : poll.run state = (none, state₁)) :
    (around checks poll index).next.run state = ((none, around checks poll index), state₁) := by
  induction checks with
  | nil => exact next_source h
  | cons check inner ih => exact next_checked_none ih

theorem next_around_error (checks : List (ItemCheck σ)) (index : Nat)
    (h : poll.run state = (some (.error e), state₁)) :
    ∃ stream, (around checks poll index).next.run state = ((some (.error e), stream), state₁) ∧
      (checks ≠ [] → stream.IsDone) := by
  induction checks with
  | nil => exact ⟨_, next_source h, fun hne => absurd rfl hne⟩
  | cons check inner ih =>
      obtain ⟨_, hinner, -⟩ := ih
      exact ⟨_, next_checked_error hinner, fun _ => ⟨_, _, _, rfl⟩⟩

theorem next_around_accepted (hpoll : poll.run state = (some (.ok item), state₁))
    (h : (verdicts checks index item).run state₁ = (.ok item', state₂)) :
    (around checks poll index).next.run state =
      ((some (.ok item'), around checks poll (index + 1)), state₂) := by
  induction checks generalizing item' state₂ with
  | nil =>
      cases h
      exact next_source hpoll
  | cons check inner ih =>
      rcases hinner : (verdicts inner index item).run state₁ with ⟨e | passed, state'⟩
      · rw [verdicts_cons_error hinner] at h
        cases h
      · rw [verdicts_cons_ok hinner] at h
        exact next_checked_accepted (ih hinner) h

theorem next_around_rejected (hpoll : poll.run state = (some (.ok item), state₁))
    (h : (verdicts checks index item).run state₁ = (.error e, state₂)) :
    ∃ stream, (around checks poll index).next.run state = ((some (.error e), stream), state₂) ∧
      stream.IsDone := by
  induction checks generalizing state₂ with
  | nil => cases h
  | cons check inner ih =>
      rcases hinner : (verdicts inner index item).run state₁ with ⟨e' | passed, state'⟩
      · rw [verdicts_cons_error hinner] at h
        cases h
        obtain ⟨_, hnext, -⟩ := ih hinner
        exact ⟨_, next_checked_error hnext, _, _, _, rfl⟩
      · rw [verdicts_cons_ok hinner] at h
        have hnext := next_around_accepted hpoll hinner
        exact ⟨_, next_checked_rejected hnext h, _, _, _, rfl⟩

end Around

end ItemStream

/-! Whether the questions are observed or not, an item goes through the checks by the rules. -/

section Passes

variable {index : Nat} {item : Json} {checks : NumberedChecks σ} {events : List Event}
  {result : Except HttpError Unit} {state state₁ : σ}

theorem Passes.verdicts (h : Passes index item state checks events result state₁) :
    (ItemStream.verdicts (checks.map Prod.fst) index item).run state =
      (result.map fun _ => item, state₁) := by
  induction h with
  | unchecked => rfl
  | stopped _ ih => exact ItemStream.verdicts_cons_error ih
  | notDue _ hdue ih =>
      exact (ItemStream.verdicts_cons_ok ih).trans (ItemStream.verdict_notDue hdue)
  | rejected _ hdue hask ih | accepted _ hdue hask ih =>
      exact (ItemStream.verdicts_cons_ok ih).trans (ItemStream.verdict_due hdue hask)

theorem Passes.verdicts_observed (before : List Event)
    (h : Passes index item state checks events result state₁) :
    (ItemStream.verdicts checks.observed index item).run ⟨state, before⟩ =
      (result.map fun _ => item, ⟨state₁, before ++ events⟩) := by
  induction h with
  | unchecked =>
      rw [List.append_nil]
      rfl
  | stopped _ ih => exact ItemStream.verdicts_cons_error ih
  | notDue _ hdue ih =>
      exact (ItemStream.verdicts_cons_ok ih).trans (ItemStream.verdict_notDue hdue)
  | @rejected _ number _ events _ _ _ _ hdue hask ih
  | @accepted _ number _ events _ _ _ _ hdue hask ih =>
      have hverdict := ItemStream.verdict_observed number (before ++ events) hdue hask
      rw [List.append_assoc] at hverdict
      exact (ItemStream.verdicts_cons_ok ih).trans hverdict

end Passes

/-! ## Any number of readings -/

namespace ItemStream

theorem run_polled {poll : StateM σ (Option Item)} {answer : Option Item} {state state₁ : σ}
    (h : poll.run state = (answer, state₁)) :
    (observe poll .polled).run (.start state) = (answer, ⟨state₁, [.polled answer]⟩) :=
  run_observe (.start state) Event.polled h

theorem pulls_done (check : ItemCheck (Observed σ)) (index count : Nat)
    (inner : ItemStream (Observed σ)) (state : σ) :
    pulls count (checked check index true inner) state = (closed count, state) := by
  cases count <;> rfl

section Pulls

variable {stream stream' : ItemStream (Observed σ)} {item : Item} {events : List Event}
  {state state₁ : σ}

theorem pulls_none (count : Nat)
    (h : stream.next.run (.start state) = ((none, stream'), ⟨state₁, events⟩)) :
    pulls (count + 1) stream state = ([⟨events, none⟩], state₁) := by
  simp [pulls, h]

theorem pulls_some (count : Nat)
    (h : stream.next.run (.start state) = ((some item, stream'), ⟨state₁, events⟩)) :
    pulls (count + 1) stream state =
      (⟨events, some item⟩ :: (pulls count stream' state₁).1, (pulls count stream' state₁).2) := by
  simp [pulls, h]

end Pulls

end ItemStream

theorem Reads.pulls {outermost : ItemCheck σ × Nat} {inner : NumberedChecks σ}
    {poll : StateM σ (Option Item)} {index count : Nat} {state state₁ : σ} {pulls : List Pull}
    (h : Reads (outermost :: inner) poll index count state pulls state₁) :
    ItemStream.pulls count (.around (NumberedChecks.observed (outermost :: inner))
      (observe poll .polled) index) state = (pulls, state₁) := by
  induction h with
  | enough => rfl
  | ended hpoll =>
      exact ItemStream.pulls_none _ (ItemStream.next_around_none (ItemStream.run_polled hpoll))
  | broken hpoll =>
      obtain ⟨_, hnext, hdone⟩ := ItemStream.next_around_error
        (NumberedChecks.observed (outermost :: inner)) _ (ItemStream.run_polled hpoll)
      obtain ⟨_, _, _, rfl⟩ := hdone (List.cons_ne_nil _ _)
      rw [ItemStream.pulls_some _ hnext, ItemStream.pulls_done]
  | rejected hpoll hpasses =>
      obtain ⟨_, hnext, _, _, _, rfl⟩ := ItemStream.next_around_rejected
        (ItemStream.run_polled hpoll) (hpasses.verdicts_observed _)
      rw [ItemStream.pulls_some _ hnext, ItemStream.pulls_done]
      rfl
  | yielded hpoll hpasses _ ih =>
      have hnext := ItemStream.next_around_accepted (ItemStream.run_polled hpoll)
        (hpasses.verdicts_observed _)
      rw [ItemStream.pulls_some _ hnext, ih]
      rfl

theorem Reads.of_pulls {outermost : ItemCheck σ × Nat} {inner : NumberedChecks σ}
    {poll : StateM σ (Option Item)} {index count : Nat} {state state₁ : σ} {pulls : List Pull}
    (h : ItemStream.pulls count (.around (NumberedChecks.observed (outermost :: inner))
      (observe poll .polled) index) state = (pulls, state₁)) :
    Reads (outermost :: inner) poll index count state pulls state₁ := by
  obtain ⟨pulls', state', hreads⟩ := Reads.exists (outermost :: inner) poll index count state
  rw [hreads.pulls] at h
  cases h
  exact hreads

/-! ## What happens in one reading -/

namespace Event

def isPolled : Event → Bool
  | .polled _ => true
  | _ => false

def isAsked (number : Nat) : Event → Bool
  | .asked layer _ _ => layer = number
  | _ => false

@[simp] theorem isPolled_asked (number : Nat) (question : Question)
    (answer : Except HttpError (Option Json)) :
    (Event.asked number question answer).isPolled = false := rfl

@[simp] theorem isPolled_polled (answer : Option Item) : (polled answer).isPolled = true := rfl

@[simp] theorem isAsked_asked (number layer : Nat) (question : Question)
    (answer : Except HttpError (Option Json)) :
    (Event.asked layer question answer).isAsked number = decide (layer = number) := rfl

@[simp] theorem isAsked_polled (number : Nat) (answer : Option Item) :
    (polled answer).isAsked number = false := rfl

end Event

theorem Passes.countP_isPolled {index : Nat} {item : Json} {state state₁ : σ}
    {checks : NumberedChecks σ} {events : List Event} {result : Except HttpError Unit}
    (h : Passes index item state checks events result state₁) :
    events.countP Event.isPolled = 0 := by
  induction h with
  | unchecked => rfl
  | stopped _ ih => exact ih
  | notDue _ _ ih => exact ih
  | rejected _ _ _ ih => simp [ih]
  | accepted _ _ _ ih => simp [ih]

theorem Passes.countP_isAsked {index : Nat} {item : Json} {state state₁ : σ}
    {checks : NumberedChecks σ} {events : List Event} {result : Except HttpError Unit}
    (h : Passes index item state checks events result state₁) (number : Nat) :
    events.countP (Event.isAsked number) ≤ (checks.map Prod.snd).count number := by
  induction h with
  | unchecked => simp
  | stopped _ ih => exact Nat.le_trans ih (List.Sublist.count_le _ (by simp))
  | notDue _ _ ih => exact Nat.le_trans ih (List.Sublist.count_le _ (by simp))
  | rejected _ _ _ ih => simpa [List.count_cons, List.countP_cons] using ih
  | accepted _ _ _ ih => simpa [List.count_cons, List.countP_cons] using ih

/-- A reading polls the source once, unless it is past an error, and asks every layer at most as
often as it stands in the nest. -/
theorem Reads.counts {checks : NumberedChecks σ} {poll : StateM σ (Option Item)}
    {index count : Nat} {state state₁ : σ} {pulls : List Pull}
    (h : Reads checks poll index count state pulls state₁) :
    ∀ pull ∈ pulls, (pull.events.countP Event.isPolled = 1 ∨ pull = ⟨[], none⟩) ∧
      ∀ number, pull.events.countP (Event.isAsked number) ≤
        (checks.map Prod.snd).count number := by
  induction h with
  | enough => simp
  | ended => simp
  | broken =>
      intro pull hpull
      rcases List.mem_cons.mp hpull with rfl | hrest
      · simp
      · simp [eq_of_mem_closed hrest]
  | rejected _ hpasses =>
      intro pull hpull
      rcases List.mem_cons.mp hpull with rfl | hrest
      · refine ⟨.inl ?_, fun number => ?_⟩
        · simp [List.countP_cons, hpasses.countP_isPolled]
        · simpa [List.countP_cons] using hpasses.countP_isAsked number
      · simp [eq_of_mem_closed hrest]
  | yielded _ hpasses _ ih =>
      intro pull hpull
      rcases List.mem_cons.mp hpull with rfl | hrest
      · refine ⟨.inl ?_, fun number => ?_⟩
        · simp [List.countP_cons, hpasses.countP_isPolled]
        · simpa [List.countP_cons] using hpasses.countP_isAsked number
      · exact ih pull hrest

/-- Readings of a source with one check or more around it go by the rules, and by no others: the
nest is one stream that takes every item through all its checks.  Each reading polls the source
once, unless it is past an error, and asks every layer at most once. -/
theorem nest_pulls_iff (outermost : ItemCheck σ) (inner : List (ItemCheck σ))
    (poll : StateM σ (Option Item)) (count : Nat) (state : σ) :
    let checks := (outermost :: inner).zipIdx
    let readings := ItemStream.pulls count (.nest (checks.map fun entry =>
      entry.1.observed entry.2) (.source (observe poll .polled))) state
    (∀ pulls state₁, readings = (pulls, state₁) ↔
      Reads checks poll 0 count state pulls state₁) ∧
    ∀ pull ∈ readings.1, (pull.events.countP Event.isPolled = 1 ∨ pull = ⟨[], none⟩) ∧
      ∀ number, pull.events.countP (Event.isAsked number) ≤ 1 := by
  intro checks readings
  have hreads : Reads checks poll 0 count state readings.1 readings.2 := .of_pulls rfl
  refine ⟨fun pulls state₁ => ⟨.of_pulls, Reads.pulls⟩, fun pull hpull => ?_⟩
  obtain ⟨hpolled, hasked⟩ := hreads.counts pull hpull
  have hnodup : (checks.map Prod.snd).Nodup := by
    rw [List.zipIdx_map_snd]
    exact List.nodup_range'
  exact ⟨hpolled, fun number =>
    Nat.le_trans (hasked number) (List.nodup_iff_count.mp hnodup number)⟩

end RpcContract

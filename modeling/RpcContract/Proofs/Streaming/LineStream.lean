import RpcContract.Proofs.Streaming.Lines
import RpcContract.Proofs.Validation.CheckedStream
import RpcContract.Streaming.LineStream

/-!
# Streams written as lines

What is written of a stream, checked or not, is the lines of what its readings give.  A queue shows
which readings there are: one for each line, and one more where no error has ended the lines.
-/

namespace RpcContract

variable {σ : Type}

/-! ## Lines one after another -/

namespace LineStream

section Take

variable {items items' : ItemStream σ} {value : Json} {e : HttpError} {state state₁ : σ}

theorem take_none (count : Nat) (h : items.next.run state = ((none, items'), state₁)) :
    (take (count + 1) (ofItems items)).run state = (([], ended), state₁) := by
  rw [take, next, ofItems]
  simp only [StateT.run_bind, h]
  rfl

theorem take_ended (count : Nat) (state : σ) :
    (take count ended).run state = (([], ended), state) := by
  cases count <;> rfl

theorem take_error (count : Nat)
    (h : items.next.run state = ((some (.error e), items'), state₁)) :
    (take (count + 1) (ofItems items)).run state =
      (([Lines.itemLine (.error e)], ended), state₁) := by
  rw [take, next, ofItems]
  simp only [StateT.run_bind, h]
  change StateT.run (take count ended >>= _) state₁ = _
  rw [StateT.run_bind, take_ended]
  rfl

theorem take_ok (count : Nat)
    (h : items.next.run state = ((some (.ok value), items'), state₁)) :
    (take (count + 1) (ofItems items)).run state =
      let rest := (take count (ofItems items')).run state₁
      ((Lines.itemLine (.ok value) :: rest.1.1, rest.1.2), rest.2) := by
  rw [take, next, ofItems]
  simp only [StateT.run_bind, h]
  rfl

end Take

end LineStream

/-! ## A queue as the source -/

def dequeue : StateM (List Item) (Option Item)
  | [] => (none, [])
  | item :: rest => (some item, rest)

namespace LineStream

abbrev polled (item : Item) : Event := .polled (some item)

/-- The items of a queue, each reading of which is an event. -/
def queued : ItemStream (Observed (List Item)) := .source (observe dequeue .polled)

theorem next_queued (items : List Item) (events : List Event) :
    queued.next.run ⟨items, events⟩ =
      ((items.head?, queued), ⟨items.tail, events ++ [.polled items.head?]⟩) := by
  cases items <;> rfl

/-- Values that wait in front are written and polled one after the other. -/
theorem take_queued (values : List Json) (count : Nat) (rest : List Item) (events : List Event) :
    (take (values.length + count) (ofItems queued)).run ⟨values.map .ok ++ rest, events⟩ =
      let behind := (take count (ofItems queued)).run
        ⟨rest, events ++ values.map fun value => polled (.ok value)⟩
      (((values.map fun value => value.compact ++ "\n") ++ behind.1.1, behind.1.2), behind.2) := by
  induction values generalizing events with
  | nil =>
      rw [List.map_nil, List.map_nil, List.append_nil, List.length_nil, Nat.zero_add]
      rfl
  | cons value values ih =>
      have hlength : (value :: values).length + count = values.length + count + 1 := by
        rw [List.length_cons]
        omega
      have hnext := next_queued (.ok value :: (values.map .ok ++ rest)) events
      rw [hlength, List.map_cons, List.cons_append, take_ok _ hnext]
      simp only [List.tail_cons, List.head?_cons, ih, List.append_assoc]
      rfl

theorem take_queued_ok {count : Nat} (values : List Json) (events : List Event)
    (h : values.length < count) :
    (take count (ofItems queued)).run ⟨values.map .ok, events⟩ =
      ((Lines.lines (values.map .ok), ended),
        ⟨[], events ++ (values.map fun value => polled (.ok value)) ++ [.polled none]⟩) := by
  obtain ⟨count, rfl⟩ := Nat.exists_eq_add_of_lt h
  have hvalues := take_queued values (count + 1) [] events
  rw [take_none _ (next_queued [] _), List.append_nil] at hvalues
  rw [Lines.lines_ok, Nat.add_assoc, hvalues]
  simp

theorem take_queued_error {count : Nat} (values : List Json) (e : HttpError) (rest : List Item)
    (events : List Event) (h : values.length < count) :
    (take count (ofItems queued)).run ⟨values.map .ok ++ .error e :: rest, events⟩ =
      ((Lines.lines (values.map .ok ++ .error e :: rest), ended),
        ⟨rest, events ++ (values.map fun value => polled (.ok value)) ++ [polled (.error e)]⟩) := by
  obtain ⟨count, rfl⟩ := Nat.exists_eq_add_of_lt h
  rw [Lines.lines_error, Nat.add_assoc, take_queued, take_error _ (next_queued _ _)]
  rfl

theorem collect_of_take {count : Nat} {items : ItemStream σ} {lines : List String}
    {stream : LineStream σ} {state state₁ : σ}
    (h : (take count (ofItems items)).run state = ((lines, stream), state₁)) :
    (collect count items).run state = (String.join lines, state₁) := by
  rw [collect, StateT.run_bind, h]
  rfl

end LineStream

/-! ## Any source, with any checks around it -/

/-- What the source gave, in an event that is a reading of it. -/
def Event.sourceAnswer? : Event → Option (Option Item)
  | .polled answer => some answer
  | _ => none

def sourceAnswers (pulls : List Pull) : List (Option Item) :=
  pulls.flatMap fun pull => pull.events.filterMap Event.sourceAnswer?

def answers (pulls : List Pull) : List Item := pulls.filterMap fun pull => pull.answer

/-- What the last reading finds in the source, and the error with which the lines end. -/
inductive Closing : List (Option Item) → Option HttpError → Prop
  | ended : Closing [none] none
  | broken (e : HttpError) : Closing [some (.error e)] (some e)
  | rejected (item : Json) (e : HttpError) : Closing [some (.ok item)] (some e)

theorem Passes.filterMap_sourceAnswer? {index : Nat} {item : Json} {state state₁ : σ}
    {checks : NumberedChecks σ} {events : List Event} {result : Except HttpError Unit}
    (h : Passes index item state checks events result state₁) :
    events.filterMap Event.sourceAnswer? = [] := by
  induction h with
  | unchecked => rfl
  | stopped _ ih => exact ih
  | notDue _ _ ih => exact ih
  | rejected _ _ _ ih => simp [ih, Event.sourceAnswer?]
  | accepted _ _ _ ih => simp [ih, Event.sourceAnswer?]

theorem answers_closed (count : Nat) : answers (closed count) = [] := by
  cases count <;> rfl

theorem sourceAnswers_closed (count : Nat) : sourceAnswers (closed count) = [] := by
  cases count <;> rfl

/-- The items that pass are written, then the error that ends them, and nothing is read of the
source behind the item that it stands for. -/
theorem Reads.shape {checks : NumberedChecks σ} {poll : StateM σ (Option Item)}
    {index count : Nat} {state state₁ : σ} {pulls : List Pull}
    (h : Reads checks poll index count state pulls state₁) :
    ∃ (yielded : List Json) (last : List (Option Item)) (failure : Option HttpError),
      answers pulls = yielded.map .ok ++ failure.toList.map .error ∧
      sourceAnswers pulls = (yielded.map fun item => some (.ok item)) ++ last ∧
      (yielded.length = count ∧ last = [] ∧ failure = none ∨ Closing last failure) := by
  induction h with
  | enough => exact ⟨[], [], none, rfl, rfl, .inl ⟨rfl, rfl, rfl⟩⟩
  | ended => exact ⟨[], _, none, rfl, rfl, .inr .ended⟩
  | @broken _ count e =>
      refine ⟨[], _, some e, ?_, ?_, .inr (.broken e)⟩
      · simpa [answers] using answers_closed count
      · simpa [sourceAnswers, Event.sourceAnswer?] using sourceAnswers_closed count
  | @rejected _ count item _ e _ _ _ _ hpasses =>
      refine ⟨[], _, some e, ?_, ?_, .inr (.rejected item e)⟩
      · simpa [answers] using answers_closed count
      · simpa [sourceAnswers, Event.sourceAnswer?, hpasses.filterMap_sourceAnswer?] using
          sourceAnswers_closed count
  | @yielded _ _ item _ _ _ _ _ _ _ hpasses _ ih =>
      obtain ⟨yielded, last, failure, hanswers, hsource, hend⟩ := ih
      refine ⟨item :: yielded, last, failure, ?_, ?_, ?_⟩
      · simpa [answers] using hanswers
      · simpa [sourceAnswers, Event.sourceAnswer?, hpasses.filterMap_sourceAnswer?] using hsource
      · rcases hend with ⟨hlength, hrest⟩ | hclosing
        · exact .inl ⟨by rw [List.length_cons, hlength], hrest⟩
        · exact .inr hclosing

theorem Reads.take {checks : NumberedChecks σ} {poll : StateM σ (Option Item)}
    {index count : Nat} {state state₁ : σ} {pulls : List Pull}
    (h : Reads checks poll index count state pulls state₁) :
    ∃ stream, (LineStream.take count (.ofItems
      (.around (checks.map Prod.fst) poll index))).run state =
      ((Lines.lines (answers pulls), stream), state₁) := by
  induction h with
  | enough => exact ⟨_, rfl⟩
  | ended hpoll => exact ⟨_, LineStream.take_none _ (ItemStream.next_around_none hpoll)⟩
  | broken hpoll =>
      obtain ⟨_, hnext, -⟩ := ItemStream.next_around_error (checks.map Prod.fst) _ hpoll
      exact ⟨_, LineStream.take_error _ hnext⟩
  | rejected hpoll hpasses =>
      obtain ⟨_, hnext, -⟩ := ItemStream.next_around_rejected hpoll hpasses.verdicts
      exact ⟨_, LineStream.take_error _ hnext⟩
  | yielded hpoll hpasses _ ih =>
      obtain ⟨stream, hrest⟩ := ih
      have hnext := ItemStream.next_around_accepted hpoll hpasses.verdicts
      refine ⟨stream, ?_⟩
      rw [LineStream.take_ok _ hnext]
      simp only [hrest]
      rfl

namespace LineStream

/-- The body of a stream.  From a queue of any items it is the lines of the values before the first
error, then the line of the error, and nothing behind the error is read.  It splits at its newlines
into one document for each line, so that bodies are equal just where the documents are.  With checks
around any source it is the lines of the items that pass, and at most one error, which is last. -/
theorem body_lawful :
    (∀ (values : List Json) (count : Nat), values.length < count →
      (collect count queued).run (.start (values.map .ok)) =
        (Lines.body (values.map .ok),
          ⟨[], (values.map fun value => polled (.ok value)) ++ [.polled none]⟩) ∧
      Lines.lines (values.map .ok) = values.map fun value => value.compact ++ "\n") ∧
    (∀ (values : List Json) (e : HttpError) (rest : List Item) (count : Nat),
      values.length < count →
      (collect count queued).run (.start (values.map .ok ++ .error e :: rest)) =
        (Lines.body (values.map .ok ++ .error e :: rest),
          ⟨rest, (values.map fun value => polled (.ok value)) ++ [polled (.error e)]⟩) ∧
      Lines.lines (values.map .ok ++ .error e :: rest) =
        (values.map fun value => value.compact ++ "\n") ++
          ["\x7b\"isError\":true,\"reason\":" ++
            Json.quote ("[" ++ toString e.status ++ "] " ++ e.message) ++ "\x7d" ++ "\n"]) ∧
    (∀ items : List Item,
      (∀ line ∈ Lines.lines items, ∃ text, line = text ++ "\n" ∧ '\n' ∉ text.toList) ∧
      (Lines.body items).toList.splitOn '\n' =
        (Lines.documents items).map (fun value => value.compact.toList) ++ [[]]) ∧
    (∀ items others : List Item,
      (∀ v ∈ Lines.documents items, ∀ w ∈ Lines.documents others, v.compact = w.compact → v = w) →
      (Lines.body items = Lines.body others ↔ Lines.documents items = Lines.documents others)) ∧
    ∀ (σ : Type) (checks : List (ItemCheck σ)) (poll : StateM σ (Option Item)) (count : Nat)
      (state : σ),
      ∃ (pulls : List Pull) (state₁ : σ) (yielded : List Json) (last : List (Option Item))
        (failure : Option HttpError),
        Reads checks.zipIdx poll 0 count state pulls state₁ ∧
        (collect count (.nest checks (.source poll))).run state =
          (String.join ((yielded.map fun value => value.compact ++ "\n") ++
            failure.toList.map fun e => Lines.itemLine (.error e)), state₁) ∧
        answers pulls = yielded.map .ok ++ failure.toList.map .error ∧
        sourceAnswers pulls = (yielded.map fun item => some (.ok item)) ++ last ∧
        (yielded.length = count ∧ last = [] ∧ failure = none ∨ Closing last failure) := by
  refine ⟨fun values count hcount => ⟨?_, Lines.lines_ok values⟩,
    fun values e rest count hcount => ⟨?_, ?_⟩,
    fun items => ⟨fun line hline => Lines.exists_of_mem_lines hline, Lines.splitOn_body items⟩,
    fun items others hinj => Lines.body_eq_iff hinj, fun σ checks poll count state => ?_⟩
  · exact collect_of_take (take_queued_ok values [] hcount)
  · exact collect_of_take (take_queued_error values e rest [] hcount)
  · rw [Lines.lines_error, Lines.itemLine, Lines.itemText, Lines.abortText_eq, HttpError.display]
  · obtain ⟨pulls, state₁, hreads⟩ := Reads.exists checks.zipIdx poll 0 count state
    obtain ⟨yielded, last, failure, hanswers, hsource, hend⟩ := hreads.shape
    obtain ⟨stream, htake⟩ := hreads.take
    rw [List.zipIdx_map_fst] at htake
    refine ⟨pulls, state₁, yielded, last, failure, hreads, ?_, hanswers, hsource, hend⟩
    rw [ItemStream.nest_eq_around, collect_of_take htake, hanswers]
    congr 2
    cases failure with
    | none => simpa using Lines.lines_ok yielded
    | some e => simpa using Lines.lines_error yielded e []

def badItem : HttpError := .validation .iteration "bad item"

/-- The item behind the error stays in the queue, and a value that is the object of the error's line
gives the same body. -/
theorem body_lawful_bad_item :
    (collect 4 queued).run
        (.start [.ok (.obj [("id", .int 1)]), .error badItem, .ok (.obj [("id", .int 3)])]) =
      ("\x7b\"id\":1\x7d\n\x7b\"isError\":true,\"reason\":\"[500] bad item\"\x7d\n",
        ⟨[.ok (.obj [("id", .int 3)])],
          [polled (.ok (.obj [("id", .int 1)])), polled (.error badItem)]⟩) ∧
    Lines.body [.ok (.obj [("id", .int 1)]), .error badItem, .ok (.obj [("id", .int 3)])] =
      Lines.body [.ok (.obj [("id", .int 1)]),
        .ok (.obj [("isError", .bool true), ("reason", .str "[500] bad item")])] := by
  constructor
  · have hbody : Lines.body
        ([.obj [("id", .int 1)]].map .ok ++ .error badItem :: [.ok (.obj [("id", .int 3)])]) =
        "\x7b\"id\":1\x7d\n\x7b\"isError\":true,\"reason\":\"[500] bad item\"\x7d\n" := by
      decide +kernel
    have hrun := (body_lawful.2.1 [.obj [("id", .int 1)]] badItem [.ok (.obj [("id", .int 3)])] 4
      (by decide)).1
    rw [hbody] at hrun
    exact hrun
  · refine (body_lawful.2.2.2.1 _ _ ?_).mpr ?_ <;> decide +kernel

end LineStream

end RpcContract

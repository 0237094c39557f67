import RpcContract.Streaming.Lines

/-!
# Channels

A channel carries items from any number of senders to one consumer.  Every operation is one step on
the `Channel`: what is accepted is queued without bound, and once closed a channel stays closed.
-/

namespace RpcContract

structure Channel where
  queue : List Item := []
  isOpen : Bool := true
  senders : Nat := 1
  hasConsumer : Bool := true
deriving Repr

inductive Poll (α : Type) where
  | pending
  | ready (item : α)
  | finished
deriving Repr

namespace Channel

/-- Close the channel for all senders; what is queued can still be received. -/
def close (channel : Channel) : Channel := { channel with isOpen := false }

def push (channel : Channel) (item : Item) : Bool × Channel :=
  if channel.isOpen then (true, { channel with queue := channel.queue ++ [item] })
  else (false, channel)

def send (channel : Channel) (value : Json) : Bool × Channel := channel.push (.ok value)

/-- Queue an error and close the channel behind it. -/
def throw (channel : Channel) (e : HttpError) : Bool × Channel :=
  let (accepted, channel) := channel.push (.error e)
  (accepted, channel.close)

def cloneSender (channel : Channel) : Channel := { channel with senders := channel.senders + 1 }

/-- Without its last sender a channel is closed. -/
def dropSender (channel : Channel) : Channel :=
  let rest := { channel with senders := channel.senders - 1 }
  if rest.senders = 0 then rest.close else rest

def poll (channel : Channel) : Poll Item × Channel :=
  match channel.queue with
  | item :: queue => (.ready item, { channel with queue := queue })
  | [] => (if channel.isOpen then .pending else .finished, channel)

/-- What is queued is lost with the consumer. -/
def dropConsumer (channel : Channel) : Channel :=
  { channel with queue := [], isOpen := false, hasConsumer := false }

/-- The consumer reads all that is queued as lines of JSON, and is gone then. -/
def collect (channel : Channel) : String × Channel :=
  (Lines.body channel.queue, channel.dropConsumer)

/-- The next line of a channel that is read as lines; behind an error nothing is read. -/
def pollLine (channel : Channel) : Poll String × Channel :=
  match channel.poll with
  | (.ready (.ok value), channel) => (.ready (Lines.itemLine (.ok value)), channel)
  | (.ready (.error e), channel) => (.ready (Lines.itemLine (.error e)), channel.dropConsumer)
  | (.pending, channel) => (.pending, channel)
  | (.finished, channel) => (.finished, channel)

end Channel

end RpcContract

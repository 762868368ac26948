import TorrentPlayer.Library.Machine

namespace TorrentPlayer.Discovery
namespace WsOutbox

open Library

/-!
# The outbox of a WebSocket tracker

`announce` and the answers to offers clone `outbox_tx` under the lock and send later.
A connection takes `outbox_rx` and gives it back when it is closed.  One that fails
drops it with what waits in the channel, and the next makes a new channel.
-/

/-- Where the receiver of the present channel is.  Those of earlier channels are dropped. -/
inductive Receiver
  | outboxRx
  | connection
  | dropped
  deriving DecidableEq

/-- Channels are numbered as they are made, and `channel` is that of `outbox_tx`. -/
structure Outbox where
  channel : Nat := 0
  receiver : Receiver := .outboxRx
  waiting : List String := []
  /-- Clones of `outbox_tx`, with what they will send. -/
  clones : List (Nat × String) := []
  /-- What was sent to a channel, and what was taken from one for a socket. -/
  queued : List String := []
  handed : List String := []

inductive Label
  | clone (text : String)
  | send (channel : Nat) (text : String)
  | connect
  | recv
  | close
  /-- The dial or the connection ends with an error. -/
  | fail

namespace Outbox

def step (outbox : Outbox) : Label -> Option Outbox
  | .clone text => some { outbox with clones := (outbox.channel, text) :: outbox.clones }
  | .send channel text =>
    if (channel, text) ∈ outbox.clones then some { outbox with
      clones := outbox.clones.erase (channel, text)
      queued := outbox.queued ++ [text]
      waiting := if channel = outbox.channel then outbox.waiting ++ [text] else outbox.waiting }
    else none
  | .connect =>
    match outbox.receiver with
    | .outboxRx => some { outbox with receiver := .connection }
    | .connection => none
    | .dropped => some { outbox with
        channel := outbox.channel + 1, receiver := .connection, waiting := [] }
  | .recv =>
    match outbox.receiver, outbox.waiting with
    | .connection, text :: rest =>
      some { outbox with handed := outbox.handed ++ [text], waiting := rest }
    | _, _ => none
  | .close =>
    if outbox.receiver = .connection then some { outbox with receiver := .outboxRx } else none
  | .fail => some { outbox with
      receiver := if outbox.receiver = .connection then .dropped else outbox.receiver }

abbrev machine : Machine Outbox Label where
  init := (· = {})
  step := step

/-- A connection fails with nothing waiting and no clone about to send, and `outbox_tx` is not
cloned before the next. -/
def Safe (outbox : Outbox) : Label -> Prop
  | .clone _ => outbox.receiver ≠ .dropped
  | .fail => outbox.receiver = .connection -> outbox.waiting = [] /\ outbox.clones = []
  | _ => True

structure Sound (outbox : Outbox) : Prop where
  clones : ∀ clone ∈ outbox.clones, clone.1 = outbox.channel
  order : outbox.handed ++ outbox.waiting = outbox.queued
  dropped : outbox.receiver = .dropped -> outbox.waiting = [] /\ outbox.clones = []

theorem sound_step {outbox after : Outbox} {label : Label} (sound : Sound outbox)
    (safe : Safe outbox label) (taken : outbox.step label = some after) : Sound after := by
  rcases sound with ⟨clones, order, dropped⟩
  cases label with
  | clone text =>
    cases taken
    exact ⟨List.forall_mem_cons.mpr ⟨rfl, clones⟩, order, fun gone => absurd gone safe⟩
  | send channel text =>
    rcases Option.ite_none_right_eq_some.mp taken with ⟨cloned, ⟨⟩⟩
    refine ⟨fun other left => clones other (List.mem_of_mem_erase left), ?_, fun gone => ?_⟩
    · rw [if_pos (clones _ cloned), <- List.append_assoc, order]
    · rw [(dropped gone).2] at cloned
      cases cloned
  | connect =>
    rw [step] at taken
    split at taken <;> cases taken
    next => exact ⟨clones, order, nofun⟩
    next gone =>
      rcases dropped gone with ⟨empty, none⟩
      exact ⟨by simp [none], by rw [<- order, empty], nofun⟩
  | recv =>
    rw [step] at taken
    split at taken <;> cases taken
    next text rest up waits =>
      rw [waits] at order
      refine ⟨clones, by simpa using order, fun gone => ?_⟩
      cases up.symm.trans gone
  | close =>
    rcases Option.ite_none_right_eq_some.mp taken with ⟨_, ⟨⟩⟩
    exact ⟨clones, order, nofun⟩
  | fail =>
    cases taken
    refine ⟨clones, order, fun gone => ?_⟩
    split at gone
    next up => exact safe up
    next => exact dropped gone

theorem exec_recv : ∀ {count : Nat} {outbox : Outbox}, outbox.receiver = .connection ->
    outbox.waiting.length = count -> machine.exec outbox (List.replicate count .recv) =
      some { outbox with handed := outbox.handed ++ outbox.waiting, waiting := [] }
  | 0, outbox, _, size => by
    have empty := List.eq_nil_of_length_eq_zero size
    rw [empty, List.append_nil, <- empty]
    rfl
  | count + 1, outbox, up, size => by
    rcases outbox with ⟨channel, receiver, _ | ⟨text, rest⟩, clones, queued, handed⟩
    · cases size
    cases up
    have later := @exec_recv count ⟨channel, .connection, rest, clones, queued, handed ++ [text]⟩ rfl
      (Nat.succ.inj size)
    rw [List.append_assoc] at later
    exact later

/-- What the next connection does, or the one that is up: it takes all that waits. -/
def drain (outbox : Outbox) : List Label :=
  (if outbox.receiver = .connection then [] else [.connect]) ++
    List.replicate outbox.waiting.length .recv

theorem exec_drain {outbox : Outbox} (sound : Sound outbox) : Exists fun after =>
    machine.exec outbox outbox.drain = some after /\ after.receiver = .connection /\
      after.handed = outbox.queued /\ after.waiting = [] := by
  rcases outbox with ⟨channel, _ | _ | _, waiting, clones, queued, handed⟩
  · exact ⟨_, exec_recv rfl rfl, rfl, sound.order, rfl⟩
  · exact ⟨_, exec_recv rfl rfl, rfl, sound.order, rfl⟩
  · cases (sound.dropped rfl).1
    exact ⟨_, rfl, rfl, (List.append_nil _).symm.trans sound.order, rfl⟩

/-- With such failures only, what was handed to sockets is at any time a front of what was queued,
and the next connection, or the one that is up, hands over the rest in its order. -/
theorem queued_messages_kept {labels : List Label} {outbox : Outbox}
    (run : machine.RunsTo Safe labels outbox) :
    outbox.handed ++ outbox.waiting = outbox.queued ∧ Exists fun after =>
      machine.exec outbox outbox.drain = some after ∧ after.receiver = .connection ∧
        after.handed = outbox.queued ∧ after.waiting = [] := by
  have sound : Sound outbox := by
    refine run.stateInvariant (motive := Sound) ?_ (fun _ _ _ sound safe => sound_step sound safe)
    rintro _ rfl
    exact ⟨nofun, rfl, nofun⟩
  exact ⟨sound.order, exec_drain sound⟩

/-- A connection is closed while a message waits and another is about to be sent.  The next
hands both over. -/
theorem queued_message_kept_over_close :
    Exists fun outbox => Exists fun labels => machine.RunsTo Safe labels outbox ∧
      outbox.receiver = .outboxRx ∧ outbox.handed = ["first"] ∧ outbox.waiting = ["second", "third"] ∧
      Exists fun after => machine.exec outbox [.connect, .recv, .recv] = some after ∧
        after.handed = ["first", "second", "third"] := by
  let labels : List Label := [.connect, .fail, .connect, .clone "first", .clone "second",
    .clone "third", .send 1 "first", .recv, .send 1 "second", .close, .send 1 "third"]
  have run : machine.RunsTo Safe labels _ :=
    .of_exec rfl (by simp [Machine.Permits, labels, step, Safe]) rfl
  rcases (queued_messages_kept run).2 with ⟨after, sent, _, handed, _⟩
  exact ⟨_, labels, run, rfl, rfl, rfl, after, sent, handed⟩

/-- A message is queued, the connection fails, and the next has nothing to send. -/
theorem queued_message_lost :
    Exists fun outbox => Exists fun labels => machine.RunsTo Machine.always labels outbox ∧
      outbox.receiver = .connection ∧ outbox.queued = ["announce"] ∧
        outbox.handed ++ outbox.waiting = [] := by
  let labels : List Label := [.connect, .clone "announce", .send 0 "announce", .fail, .connect]
  have run : machine.RunsTo Machine.always labels _ :=
    .of_exec rfl (Machine.permits_always _ _ _) rfl
  exact ⟨_, labels, run, rfl, rfl, rfl⟩

end Outbox
end WsOutbox
end TorrentPlayer.Discovery

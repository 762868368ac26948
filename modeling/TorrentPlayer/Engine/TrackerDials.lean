import TorrentPlayer.Library.Calls

namespace TorrentPlayer.Engine
namespace NetworkDialer

open Library Calls

/-!
# Tracker dials and network resets

A tracker dial takes the epoch, connects, looks at the epoch again and tracks its
socket.  `reset` moves the epoch and shuts down the sockets that are tracked.  Both
know a socket by its cookie, which an old kernel does not have and which no other
socket has, so the entry of a socket that its user has closed matches nothing.
-/

structure Socket where
  epoch : Nat
  /-- The socket is in `fds`. -/
  tracked : Bool
  closed : Bool := false
  shut : Bool := false
  deriving DecidableEq

namespace Socket

def close (socket : Socket) : Socket :=
  { socket with closed := true }

/-- What `track_fd` does to the entries of other sockets. -/
def retain (socket : Socket) : Socket :=
  { socket with tracked := socket.tracked && !socket.closed }

def reset (socket : Socket) : Socket :=
  { socket with tracked := false, shut := socket.shut || (socket.tracked && !socket.closed) }

end Socket

/-- The number of resets, which the code keeps modulo `2 ^ 64`, and the sockets. -/
structure Shared where
  epoch : Nat := 0
  sockets : List Socket := []
  deriving DecidableEq

/-- The next step of a dial, of a reset or of closing a socket.  A dial may fail to connect, and
the kernel may have no cookie for its socket. -/
inductive Call
  | dial (works cookie : Bool)
  | connect (epoch : Nat) (works cookie : Bool)
  | check (epoch : Nat) (cookie : Bool)
  | trackFd (epoch : Nat) (cookie : Bool)
  | reset
  | close (socket : Nat)
  | returned
  deriving DecidableEq

def begins : Call -> Bool
  | .dial _ _ | .reset | .close _ => true
  | _ => false

def advance (shared : Shared) : Call -> Option (Shared × Call)
  | .dial works cookie => some (shared, .connect shared.epoch works cookie)
  | .connect epoch works cookie => some (shared, if works then .check epoch cookie else .returned)
  | .check epoch cookie => some (shared,
      if shared.epoch % 2 ^ 64 ≠ epoch % 2 ^ 64 then .returned else .trackFd epoch cookie)
  | .trackFd epoch cookie => some ({ shared with
      sockets := shared.sockets.map Socket.retain ++ [{ epoch := epoch, tracked := cookie }] }, .returned)
  | .reset => some (⟨shared.epoch + 1, shared.sockets.map Socket.reset⟩, .returned)
  | .close socket =>
    some ({ shared with sockets := shared.sockets.modify socket Socket.close }, .returned)
  | .returned => none

abbrev machine : Machine (Calls Shared Call) (Label Call) :=
  Calls.machine {} begins advance

/-- The kernel has cookies, no reset falls between a dial's second look at the epoch and its
tracking, and the epoch does not wrap. -/
def Careful (state : Calls Shared Call) : Label Call -> Prop
  | .start (.dial _ cookie) => cookie = true
  | .start _ => True
  | .run index => Alone (· matches .reset) (· matches .trackFd _ _) state (.run index) /\
    (state.calls[index]? = some .reset -> state.shared.epoch + 1 < 2 ^ 64)

/-- A socket in use is shut down, or tracked and of the present epoch. -/
def Socket.Placed (epoch : Nat) (socket : Socket) : Prop :=
  socket.closed = false -> socket.shut = true ∨ socket.epoch = epoch /\ socket.tracked = true

/-- What a dial knows of the epoch. -/
def Placed (shared : Shared) : Call -> Prop
  | .dial _ cookie => cookie = true
  | .connect epoch _ cookie | .check epoch cookie => cookie = true /\ epoch <= shared.epoch
  | .trackFd epoch cookie => cookie = true /\ epoch = shared.epoch
  | _ => True

structure Sound (shared : Shared) : Prop where
  small : shared.epoch < 2 ^ 64
  placed : ∀ socket ∈ shared.sockets, socket.Placed shared.epoch

theorem Socket.Placed.reset {epoch : Nat} {socket : Socket} (placed : socket.Placed epoch) :
    socket.reset.Placed (epoch + 1) := by
  intro inUse
  have used : socket.closed = false := inUse
  rw [Socket.reset, used]
  rcases placed used with shut | ⟨_, tracked⟩
  · simp [shut]
  · simp [tracked]

theorem Socket.Placed.retain {epoch : Nat} {socket : Socket} (placed : socket.Placed epoch) :
    socket.retain.Placed epoch := by
  intro inUse
  have used : socket.closed = false := inUse
  refine (placed used).imp id fun own => ⟨own.1, ?_⟩
  rw [Socket.retain, used, own.2]
  rfl

/-- One step keeps the sockets in their places, and the other dials if none is about to track
its socket while a reset runs. -/
theorem Sound.advance {shared after : Shared} {call next : Call} (sound : Sound shared)
    (placed : Placed shared call) (wraps : call = .reset -> shared.epoch + 1 < 2 ^ 64)
    (taken : advance shared call = some (after, next)) : Sound after /\ Placed after next /\
    ∀ other, Placed shared other ->
      ((· matches .reset) call = true -> (· matches .trackFd _ _) other = false) -> Placed after other := by
  rcases sound with ⟨small, sockets⟩
  cases call with
  | dial =>
    cases taken
    exact ⟨⟨small, sockets⟩, ⟨placed, Nat.le_refl _⟩, fun _ other _ => other⟩
  | connect _ works =>
    cases works <;> cases taken
    · exact ⟨⟨small, sockets⟩, trivial, fun _ other _ => other⟩
    · exact ⟨⟨small, sockets⟩, placed, fun _ other _ => other⟩
  | check epoch =>
    cases taken
    refine ⟨⟨small, sockets⟩, ?_, fun _ other _ => other⟩
    split
    · trivial
    next same =>
      rw [Decidable.not_not, Nat.mod_eq_of_lt small, Nat.mod_eq_of_lt (by have := placed.2; omega)] at same
      exact ⟨placed.1, same.symm⟩
  | trackFd =>
    cases taken
    refine ⟨⟨small, ?_⟩, trivial, fun other stands _ => by cases other <;> exact stands⟩
    refine List.forall_mem_append.mpr ⟨?_, List.forall_mem_singleton.mpr fun _ => .inr placed.symm⟩
    exact List.forall_mem_map.mpr fun socket listed => (sockets socket listed).retain
  | reset =>
    cases taken
    refine ⟨⟨wraps rfl, ?_⟩, trivial, fun other stands quiet => ?_⟩
    · exact List.forall_mem_map.mpr fun socket listed => (sockets socket listed).reset
    cases other with
    | trackFd => cases quiet rfl
    | connect | check => exact ⟨stands.1, Nat.le_succ_of_le stands.2⟩
    | _ => exact stands
  | close place =>
    cases taken
    refine ⟨⟨small, fun socket listed => ?_⟩, trivial, fun other stands _ => by cases other <;> exact stands⟩
    rcases List.mem_iff_getElem?.mp listed with ⟨index, there⟩
    rw [List.getElem?_modify, Option.map_eq_map, Option.map_eq_some_iff] at there
    rcases there with ⟨before, found, rfl⟩
    split
    · nofun
    · exact sockets before (List.mem_of_getElem? found)
  | returned => cases taken

/-- If the kernel has cookies, no reset falls between a dial's second look at the epoch and its
tracking, and the epoch does not wrap, then a socket whose dial took its epoch before a reset is
shut down, unless its user has closed it. -/
theorem shut_down_by_reset {labels : List (Label Call)} {state : Calls Shared Call}
    (run : machine.RunsTo Careful labels state) : ∀ socket ∈ state.shared.sockets,
      socket.epoch < state.shared.epoch -> socket.closed = false -> socket.shut = true := by
  have holds : Holds Sound Placed state := by
    refine @holds_of_run _ _ _ _ _ (· matches .reset) (· matches .trackFd _ _) _ _ _ ?_
      ⟨by decide, nofun⟩ ?_ ?_ _ _ run
    · rintro _ (_ | _) careful
      · trivial
      · exact careful.1
    · intro _ call careful _ may
      cases call <;> cases may <;> exact careful
    · intro _ _ _ _ _ careful found sound placed
      exact sound.advance placed fun isReset => careful.2 (isReset ▸ found)
  intro socket dialled before inUse
  refine (holds.shared.placed socket dialled inUse).resolve_right fun own => ?_
  omega

instance (state : Calls Shared Call) : ∀ label, Decidable (Careful state label)
  | .start (.dial _ cookie) => inferInstanceAs (Decidable (cookie = true))
  | .start (.connect _ _ _) | .start (.check _ _) | .start (.trackFd _ _) | .start .reset
  | .start (.close _) | .start .returned => isTrue trivial
  | .run _ => inferInstanceAs (Decidable (_ /\ _))

/-- Two dials return, and the second socket is closed.  A third dial connects when the reset comes,
and is refused. -/
def threeDials : List (Label Call) :=
  List.replicate 3 (.start (.dial true true)) ++ [0, 1, 2, 0, 1, 0, 0, 1, 1].map .run ++
    [.start (.close 1), .run 3, .start .reset, .run 2, .run 4, .run 2]

theorem shut_down_by_reset_first : Exists fun socket : Socket =>
    machine.RunsTo Careful threeDials
      ⟨⟨1, [socket, { epoch := 0, tracked := false, closed := true }]⟩, List.replicate 5 .returned⟩ ∧
    socket.closed = false ∧ socket.shut = true := by
  have run : machine.RunsTo Careful threeDials
      ⟨⟨1, [⟨0, false, false, true⟩, { epoch := 0, tracked := false, closed := true }]⟩,
        List.replicate 5 .returned⟩ := .of_exec rfl (by decide +kernel) rfl
  exact ⟨_, run, rfl, shut_down_by_reset run _ (.head _) (by decide) rfl⟩

/-- The reset falls between the second look and the tracking.  Without a cookie, no reset finds
the socket. -/
theorem tracked_after_reset :
    (Exists fun labels => Exists fun calls => machine.RunsTo Machine.always labels
      ⟨⟨1, [{ epoch := 0, tracked := true }]⟩, calls⟩) ∧
    Exists fun labels => Exists fun calls => machine.RunsTo Machine.always labels
      ⟨⟨1, [{ epoch := 0, tracked := false }]⟩, calls⟩ :=
  ⟨⟨[.start (.dial true true), .start .reset, .run 0, .run 0, .run 0, .run 1, .run 0], _,
      .of_exec rfl (Machine.permits_always _ _ _) rfl⟩,
    ⟨[.start (.dial true false), .start .reset, .run 0, .run 0, .run 0, .run 0, .run 1], _,
      .of_exec rfl (Machine.permits_always _ _ _) rfl⟩⟩

end NetworkDialer
end TorrentPlayer.Engine

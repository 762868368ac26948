import TorrentPlayer.Discovery.Attach
import TorrentPlayer.Discovery.ClientRuns

namespace TorrentPlayer.Discovery

open Library Wire Option List
open Core.Pex (SocketAddr)

/-!
# Connections belong to their torrent

Whatever way a connection was attached to a torrent, the hash in the handshake
that the remote end sent should be one that the client maps to that torrent.

A hash that leads to a torrent leads there until the torrent is detached or the
client closed, and a torrent has its own hash as long.
-/

variable {place : Nat} {torrent : ClientTorrent}

namespace Attaching

variable {state after : Attaching}

/-- Once the torrent of an attempt is chosen, the hash of the handshake leads
to it. -/
def Fits (client : Client) : Attempt -> Prop
  | .dialing _ _ _ | .accepting _ => True
  | .accepted _ result received => result = received.result
  | .webrtc _ _ _ => True
  | .driving place _ received | .entering place _ received | .admitted place _ received _ =>
    client.Leads place received.infoHash
  | .finished _ => True

theorem Fits.mono {client later : Client} {attempt : Attempt}
    (keeps : ∀ place hash, client.Leads place hash -> later.Leads place hash)
    (fits : Fits client attempt) : Fits later attempt := by
  cases attempt with
  | dialing place addr allowFallback | accepting addr | webrtc place remote outgoing
  | finished => trivial
  | accepted => exact fits
  | driving | entering | admitted => exact keeps _ _ fits

/-- A connection led to its torrent when it was attached, and does so as long
as the client has the torrent. -/
def Belongs (client : Client) (connection : Attachment) : Prop :=
  connection.ledTo = some connection.place /\ client.Leads connection.place connection.received.infoHash

structure Sound (state : Attaching) : Prop where
  maps : state.client.Maps
  attempts : ∀ id attempt, state.attempts.lookup id = some attempt -> Fits state.client attempt
  attached : ∀ connection ∈ state.attached, Belongs state.client connection

section
variable (sound : Sound state)
include sound

theorem Sound.setAttempt {id : Nat} {attempt : Attempt}
    (fits : Fits state.client attempt) : Sound (state.setAttempt id attempt) := by
  exact ⟨sound.maps, FiniteMap.forall_lookup_insert fits sound.attempts, sound.attached⟩

theorem Sound.finish (id : Nat) (result : Except CoreError Unit) : Sound (state.finish id result) :=
  sound.setAttempt trivial

theorem Sound.setHandles (handles : FiniteMap (Nat × SocketAddr) ConnHandle) :
    Sound { state with connHandles := handles } :=
  ⟨sound.maps, sound.attempts, sound.attached⟩

theorem Sound.setClient {client : Client} (maps : client.Maps)
    (keeps : ∀ place hash, state.client.Leads place hash -> client.Leads place hash) :
    Sound { state with client := client } := by
  refine ⟨maps, ?_, ?_⟩
  · intro id attempt found
    exact (sound.attempts id attempt found).mono keeps
  · intro connection attached
    have belongs := sound.attached connection attached
    exact ⟨belongs.1, keeps _ _ belongs.2⟩

/-! ## The steps -/

theorem Sound.own (isTorrent : state.client.all[place]? = some torrent) :
    state.client.Leads place torrent.infoHash := by
  by_cases shut : state.client.closed = true
  · exact .inl shut
  by_cases dropped : place ∈ state.client.detached
  · exact .inr (Or.inl dropped)
  exact .inr (Or.inr (sound.maps.own place torrent isTorrent dropped (Bool.eq_false_iff.mpr shut)))

theorem Sound.dialPeer (id place : Nat) (addr : SocketAddr)
    (allowFallback : Bool) : Sound (state.dialPeer id place addr allowFallback) := by
  unfold Attaching.dialPeer
  split
  · exact sound.finish _ _
  split
  · exact sound.finish _ _
  · exact sound.setAttempt trivial

theorem Sound.openWebrtc (id place : Nat) (torrent : ClientTorrent)
    (peer : WebRtcOpenedPeer) : Sound (state.openWebrtc id place torrent peer) := by
  unfold Attaching.openWebrtc
  split
  · exact sound.finish _ _
  split
  · exact sound.finish _ _
  dsimp only
  split
  · exact sound.finish _ _
  · exact sound.setAttempt trivial

theorem Sound.dialFailed (id place : Nat) (addr : SocketAddr) (allowFallback : Bool) (error : CoreError) :
    Sound (state.dialFailed id place addr allowFallback error) := by
  unfold Attaching.dialFailed
  split
  · exact sound.setAttempt trivial
  · exact sound.finish _ _

theorem Sound.dialHandshake (id : Nat) (isTorrent : state.client.all[place]? = some torrent)
    (addr : SocketAddr) (allowFallback : Bool) (received : HandshakeBytes) :
    Sound (state.dialHandshake id place torrent addr allowFallback received) := by
  unfold Attaching.dialHandshake
  split
  · exact sound.dialFailed _ _ _ _ _
  rename_i peer read
  split
  · exact sound.dialFailed _ _ _ _ _
  refine sound.setAttempt ?_
  show state.client.Leads place received.infoHash
  rw [(readHandshake_expected read).2]
  exact sound.own isTorrent

theorem Sound.acceptHandshake (id : Nat) (addr : SocketAddr)
    (received : HandshakeBytes) : Sound (state.acceptHandshake id addr received) := by
  unfold Attaching.acceptHandshake
  split
  · exact sound.finish _ _
  rename_i peer answer accepted
  exact sound.setAttempt (handshakeIncoming_accepted accepted).1

end

/-- The handshake of a channel that the other side opened names no other
torrent. -/
def NamesNoOther (client : Client) (place : Nat) (received : HandshakeBytes) : Prop :=
  ∀ other ∈ client.torrentsByShort.lookup received.infoHash, other = place

theorem Sound.webrtcHandshake (sound : Sound state)
    (id : Nat) (isTorrent : state.client.all[place]? = some torrent) (remote : SocketAddr) (outgoing : Bool)
    (received : HandshakeBytes) (names : outgoing = false -> NamesNoOther state.client place received) :
    Sound (state.webrtcHandshake id place torrent remote outgoing received) := by
  unfold Attaching.webrtcHandshake
  dsimp only
  split
  · exact sound.finish _ _
  rename_i peer isPeer
  refine sound.setAttempt ?_
  show state.client.Leads place received.infoHash
  split at isPeer
  · -- We offered the channel: the answer has our hash.
    split at isPeer
    · cases isPeer
    rename_i result read
    rw [(readHandshake_expected read).2]
    exact sound.own isTorrent
  · -- They did: any hash that the client knows is accepted.
    rename_i incoming
    split at isPeer
    · cases isPeer
    rename_i result answer accepted
    have found := (handshakeIncoming_accepted accepted).2.1
    rw [Bool.or_eq_true, beq_iff_eq] at found
    rcases found with own | known
    · rw [own]
      exact sound.own isTorrent
    · rcases isSome_iff_exists.mp known with ⟨other, leads⟩
      rw [names (Bool.eq_false_iff.mpr incoming) other leads] at leads
      exact .inr (Or.inr leads)

variable {received : HandshakeBytes}

section
variable (sound : Sound state)
include sound

variable (id : Nat)

theorem Sound.findTorrent (addr : SocketAddr) {peer : HandshakeResult} (read : peer = received.result) :
    Sound (state.findTorrent id addr peer received) := by
  unfold Attaching.findTorrent
  split
  · exact sound.finish _ _
  split
  · exact sound.finish _ _
  rename_i place leads
  rw [read] at leads
  exact sound.setAttempt (Or.inr (Or.inr leads))

variable (info : AttachInfo)

theorem Sound.attachDriver (leads : state.client.Leads place received.infoHash) :
    Sound (state.attachDriver id place info received) := by
  unfold Attaching.attachDriver
  split
  · exact sound.finish _ _
  · exact sound.setAttempt leads

theorem Sound.refuse (id place : Nat) (info : AttachInfo)
    (error : CoreError) : Sound (state.refuse id place info error) := by
  unfold Attaching.refuse
  split
  · exact sound.finish _ _
  · exact sound.finish _ _

variable (leads : state.client.Leads place received.infoHash)
include leads

theorem Sound.enterTorrent (limit : Nat) (victim : Option SocketAddr) :
    Sound (state.enterTorrent id place info received limit victim) := by
  unfold Attaching.enterTorrent
  split
  · exact sound.refuse _ _ _ _
  split
  · exact sound.refuse _ _ _ _
  split
  · cases victim with
    | none => exact sound.refuse _ _ _ _
    | some => exact (sound.setHandles _).setAttempt leads
  · exact sound.setAttempt leads

theorem Sound.register (limit : Nat) {hash : InfoHash}
    (has : state.client.torrents.lookup hash = some place) :
    Sound (state.register id place info received limit) := by
  unfold Attaching.register
  split
  · exact sound.refuse _ _ _ _
  split
  · exact sound.refuse _ _ _ _
  have led : state.client.torrentsByShort.lookup received.infoHash = some place := by
    have live := sound.maps.live hash place has
    rcases leads with shut | dropped | leads
    · rw [live.2] at shut
      cases shut
    · exact absurd dropped live.1
    · exact leads
  have all : ∀ connection, connection ∈ state.attached ++ [{
      place := place, received := received,
      ledTo := state.client.torrentsByShort.lookup received.infoHash }] ->
        Belongs state.client connection := by
    intro connection attached
    rcases mem_append.mp attached with old | new
    · exact sound.attached connection old
    rw [mem_singleton] at new
    rw [new]
    exact ⟨led, leads⟩
  have registered : Sound { state with
      connHandles := state.connHandles.insert (place, info.remote)
        { outgoing := info.outgoing, peerId := some info.peerId }
      attached := _ } := ⟨sound.maps, sound.attempts, all⟩
  exact registered.finish id (.ok ())

end

/-! ## Runs -/

/-- The torrent of a channel that the other side opened. -/
def incomingChannel (state : Attaching) (id : Nat) : Option Nat :=
  match state.attempts.lookup id with
  | some (.webrtc place _ false) => some place
  | _ => none

/-- The torrent that an attempt is about to be registered with. -/
def admittedTo (state : Attaching) (id : Nat) : Option Nat :=
  match state.attempts.lookup id with
  | some (.admitted place _ _ _) => some place
  | _ => none

def Has (client : Client) (place : Nat) : Prop :=
  client.all[place]?.bind (fun torrent => client.torrents.lookup torrent.infoHash) = some place

/-- No channel that the other side opened carries the hash of another torrent,
and a connection is registered while the client still has its torrent. -/
def Careful (state : Attaching) (label : Label) : Prop :=
  match label with
  | .receive id received => ∀ place ∈ state.incomingChannel id,
      NamesNoOther state.client place received
  | .register id => ∀ place ∈ state.admittedTo id, Has state.client place
  | .add _ _ | .close | .dropTorrent _ | .detach _ | .closeHandles _ | .dial _ _ _ _ | .accept _ _
  | .webrtc _ _ _ | .fail _ _ | .findTorrent _ | .drive _ | .enter _ _ _ | .disconnect _ _ => True

theorem Sound.receive (sound : Sound state) {id : Nat} (careful : Careful state (.receive id received))
    (moved : state.receive id received = some after) : Sound after := by
  unfold Attaching.receive at moved
  split at moved
  · rcases map_eq_some_iff.mp moved with ⟨_, isTorrent, rfl⟩
    exact sound.dialHandshake _ isTorrent _ _ _
  · cases moved
    exact sound.acceptHandshake _ _ _
  · rename_i place remote outgoing found
    rcases map_eq_some_iff.mp moved with ⟨_, isTorrent, rfl⟩
    refine sound.webrtcHandshake _ isTorrent _ _ _ ?_
    intro incoming
    refine careful place ?_
    rw [incomingChannel, found, incoming]
    rfl
  · cases moved

theorem Sound.fail (sound : Sound state) {id : Nat} {error : CoreError}
    (moved : state.fail id error = some after) : Sound after := by
  unfold Attaching.fail at moved
  split at moved
  · cases moved
    exact sound.dialFailed _ _ _ _ _
  · cases moved
    exact sound.finish _ _
  · cases moved
    exact sound.finish _ _
  · cases moved

theorem Sound.step {sha1 : List UInt8 -> InfoHash} {label : Label} (sound : Sound state)
    (careful : Careful state label) (moved : Attaching.step sha1 state label = some after) :
    Sound after := by
  cases label <;> simp only [Attaching.step] at moved
  case add spec storageError =>
    cases moved
    have kept := sound.maps.addTorrentSpec sha1 spec storageError
    exact sound.setClient kept.1 kept.2
  case close =>
    split at moved
    · cases moved
      exact sound
    · cases moved
      have kept := sound.maps.close
      have closed := sound.setClient kept.1 kept.2
      exact ⟨closed.maps, closed.attempts, closed.attached⟩
  case dropTorrent =>
    split at moved
    · cases moved
      exact ⟨sound.maps, sound.attempts, sound.attached⟩
    · cases moved
  case detach =>
    split at moved
    · rename_i allowed
      cases moved
      have kept := sound.maps.detachTorrent allowed.2
      exact sound.setClient kept.1 kept.2
    · cases moved
  case closeHandles =>
    split at moved
    · cases moved
      exact sound.setHandles _
    · cases moved
  case dial =>
    split at moved
    · cases moved
      exact sound.dialPeer _ _ _ _
    · cases moved
  case accept =>
    split at moved
    · cases moved
      exact sound.setAttempt trivial
    · cases moved
  case webrtc =>
    split at moved
    · rcases map_eq_some_iff.mp moved with ⟨_, _, rfl⟩
      exact sound.openWebrtc _ _ _ _
    · cases moved
  case receive => exact sound.receive careful moved
  case fail => exact sound.fail moved
  case findTorrent =>
    split at moved
    · rename_i addr peer received found
      cases moved
      exact sound.findTorrent _ _ (sound.attempts _ _ found)
    · cases moved
  case drive =>
    split at moved
    · rename_i place info received found
      cases moved
      exact sound.attachDriver _ _ (sound.attempts _ _ found)
    · cases moved
  case enter =>
    split at moved
    · rename_i place info received found
      cases moved
      exact sound.enterTorrent _ _ (sound.attempts _ _ found) _ _
    · cases moved
  case register id =>
    split at moved
    · rename_i place info received limit found
      cases moved
      have isPlace : place ∈ state.admittedTo id := by
        rw [admittedTo, found]
        rfl
      rcases bind_eq_some_iff.mp (careful place isPlace) with ⟨_, _, has⟩
      exact sound.register _ _ (sound.attempts _ _ found) _ has
    · cases moved
  case disconnect =>
    cases moved
    exact sound.setHandles _

/-- In every run in which no channel that the other side opened carries the hash
of another torrent, and connections are registered while the client still has
their torrent, the hash in the handshake of every attached connection led to
its torrent, and leads there as long as the client has the torrent. -/
theorem attached_belongs {sha1 : List UInt8 -> InfoHash} {labels : List Label}
    (run : (machine sha1).RunsTo Careful labels state) :
    forall connection, connection ∈ state.attached -> connection.ledTo = some connection.place ∧
        (state.client.closed = true ∨ connection.place ∈ state.client.detached ∨
          state.client.torrentsByShort.lookup connection.received.infoHash = some connection.place) := by
  have sound : Sound state := by
    refine run.stateInvariant (fun first initial => ?_)
      (fun _ _ _ sound careful moved => sound.step careful moved)
    rcases initial with ⟨_, _, _, rfl⟩
    refine ⟨⟨?_, ?_, ?_⟩, ?_, ?_⟩
    · nofun
    · nofun
    · nofun
    · nofun
    · nofun
  exact sound.attached

instance (client : Client) (place : Nat) (received : HandshakeBytes) :
    Decidable (NamesNoOther client place received) :=
  inferInstanceAs (Decidable (∀ other ∈ client.torrentsByShort.lookup received.infoHash, other = place))

instance (client : Client) (place : Nat) : Decidable (Has client place) :=
  inferInstanceAs (Decidable (_ = _))

instance (state : Attaching) (label : Label) : Decidable (Careful state label) :=
  match label with
  | .receive id _ => inferInstanceAs (Decidable (∀ place ∈ state.incomingChannel id, _))
  | .register id => inferInstanceAs (Decidable (∀ place ∈ state.admittedTo id, _))
  | .add _ _ | .close | .dropTorrent _ | .detach _ | .closeHandles _ | .dial _ _ _ _ | .accept _ _
  | .webrtc _ _ _ | .fail _ _ | .findTorrent _ | .drive _ | .enter _ _ _ | .disconnect _ _ =>
    isTrue trivial

def hashOne : InfoHash :=
  Vector.replicate 20 1

def hashTwo : InfoHash :=
  Vector.replicate 20 2

def remotePeer : PeerId :=
  Vector.replicate 20 9

def greeting (infoHash : InfoHash) : HandshakeBytes :=
  writeHandshake infoHash remotePeer (Vector.replicate 8 0)

/-- The other side opened a channel for the first torrent. -/
def channel : WebRtcOpenedPeer :=
  { infoHash := hashOne, peerId := remotePeer, offerId := "", localOffered := false }

/-- Two torrents are added, and the first gets a channel that carries a hash. -/
def overChannel (infoHash : InfoHash) : List Label :=
  [.add { infoHash := some hashOne } none, .add { infoHash := some hashTwo } none,
    .webrtc 0 0 channel, .receive 0 (greeting infoHash), .drive 0, .enter 0 50 none, .register 0]

def startAttaching : Attaching :=
  { client := { sources := some {} } }

theorem startAttaching_init (sha1 : List UInt8 -> InfoHash) : (machine sha1).init startAttaching :=
  ⟨{}, _, _, rfl⟩

def reachedOver (infoHash : InfoHash) : Attaching :=
  ((machine Client.exampleSha1).exec startAttaching (overChannel infoHash)).getD startAttaching

theorem attached_belongs_channel : (reachedOver hashOne).attached.length = 1 ∧
      forall connection, connection ∈ (reachedOver hashOne).attached ->
        connection.ledTo = some connection.place := by
  have run : (machine Client.exampleSha1).RunsTo Careful (overChannel hashOne) (reachedOver hashOne) :=
    .of_exec (startAttaching_init _) (by decide +kernel) rfl
  refine ⟨by decide +kernel, fun connection attached => ?_⟩
  exact (attached_belongs run connection attached).1

/-- The handshake on the channel names the second torrent.  It is accepted, and
the connection is attached to the first. -/
theorem attached_to_other_torrent :
    (machine Client.exampleSha1).RunsTo Machine.always (overChannel hashTwo) (reachedOver hashTwo) ∧
      Exists fun connection => connection ∈ (reachedOver hashTwo).attached ∧
        connection.place = 0 ∧ connection.received.infoHash = hashTwo ∧ connection.ledTo = some 1 ∧
        (reachedOver hashTwo).client.torrentsByShort.lookup hashTwo = some 1 := by
  have run : (machine Client.exampleSha1).RunsTo Machine.always (overChannel hashTwo)
      (reachedOver hashTwo) :=
    .of_exec (startAttaching_init _) ((machine Client.exampleSha1).permits_always _ _) rfl
  refine ⟨run, ⟨0, greeting hashTwo, some 1⟩, ?_, rfl, infoHash_writeHandshake _ _ _, rfl, ?_⟩
  · exact mem_of_mem_head? rfl
  · decide +kernel

end Attaching
end TorrentPlayer.Discovery

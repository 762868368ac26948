import TorrentPlayer.Core.Moves

namespace TorrentPlayer.Core

open Library Wire

/-!
# What concerns the writing of blocks

Everything a handler does apart from storing a block leaves the received bits,
the reservations and the blocks that are being stored as they are.  And before
the info is known a handler asks for nothing, so that nothing can be stored.
-/

structure Conn.Unasked (conn : Conn) : Prop where
  outstanding : conn.outstandingRequests = []
  expected : ∀ req, req ∉ conn.validReceiveChunks

namespace Session

/-- A change that does not concern the writing of blocks. -/
structure KeepsWrites (before after : Session) : Prop where
  info : after.torrent.info = before.torrent.info
  dirtyChunks : after.torrent.dirtyChunks = before.torrent.dirtyChunks
  reserved : after.torrent.blocks.writing = before.torrent.blocks.writing
  writing : after.conn.writing = before.conn.writing
  unasked : before.torrent.info = none -> before.conn.Unasked -> after.conn.Unasked

namespace KeepsWrites

theorem refl (session : Session) : KeepsWrites session session :=
  ⟨rfl, rfl, rfl, rfl, fun _ => id⟩

theorem trans {first second third : Session} (earlier : KeepsWrites first second)
    (later : KeepsWrites second third) : KeepsWrites first third where
  info := later.info.trans earlier.info
  dirtyChunks := later.dirtyChunks.trans earlier.dirtyChunks
  reserved := later.reserved.trans earlier.reserved
  writing := later.writing.trans earlier.writing
  unasked := fun unknown unasked =>
    later.unasked (earlier.info.trans unknown) (earlier.unasked unknown unasked)

theorem of_onlyRequests {before after : Session} (only : before.torrent.OnlyRequests after.torrent)
    (writing : after.conn.writing = before.conn.writing)
    (unasked : before.torrent.info = none -> before.conn.Unasked -> after.conn.Unasked) :
    KeepsWrites before after where
  info := only.info
  dirtyChunks := by rw [only.frame]
  reserved := only.writing
  writing := writing
  unasked := unasked

end KeepsWrites

theorem unasked_of_fewer {before after : Conn}
    (outstanding : ∀ req ∈ after.outstandingRequests, req ∈ before.outstandingRequests)
    (expected : ∀ req ∈ after.validReceiveChunks, req ∈ before.validReceiveChunks)
    (unasked : before.Unasked) : after.Unasked where
  outstanding := by
    apply List.eq_nil_iff_forall_not_mem.mpr
    intro req member
    have earlier := outstanding req member
    rw [unasked.outstanding] at earlier
    cases earlier
  expected := fun req member => unasked.expected req (expected req member)

theorem mem_countAnswer {req other : Nat} {expected : FiniteMap Nat Nat}
    (member : other ∈ countAnswer req expected) : other ∈ expected := by
  rw [countAnswer] at member
  split at member
  · exact member
  rename_i count found
  split at member
  · exact (AList.mem_erase.mp member).2
  rcases (AList.mem_insert expected).mp member with same | older
  · rw [same, <- AList.lookup_isSome, found]
    rfl
  · exact older

theorem unasked_settleRequest {conn : Conn} (req : Nat) (unasked : conn.Unasked) :
    (settleRequest req conn).Unasked :=
  unasked_of_fewer (fun _ member => (List.mem_filter.mp member).1)
    (fun _ member => mem_countAnswer member) unasked

theorem Move.keepsWrites {session after : Session} (move : Move session after) :
    session.KeepsWrites after := by
  apply KeepsWrites.of_onlyRequests move.onlyRequests
  · cases move with
    | tune tuned => exact tuned.writing
    | cancel now member =>
      rw [cancelOutstanding, if_pos member]
      simp only [onTorrent, onConn, noteCancel, Conn.send]
      split <;> rfl
    | fill =>
      simp only [fillHaveAll, onConn]
      split <;> rfl
    | unsent => rw [unclaimPicked_conn, claimPicked_conn]
    | refused | requested | relinquished | wasted => rfl
  · intro unknown
    cases move with
    | tune tuned =>
      apply unasked_of_fewer
      · intro req member
        rw [<- tuned.outstandingRequests]
        exact member
      · exact tuned.expected
    | cancel now member =>
      intro unasked
      rw [unasked.outstanding] at member
      cases member
    | fill =>
      simp only [fillHaveAll, onConn]
      split
      · exact fun unasked => ⟨unasked.outstanding, unasked.expected⟩
      · exact id
    | requested now may _ =>
      -- Before the info is known nothing may be requested.
      rcases may.fits with ⟨info, known, _⟩
      rw [unknown] at known
      cases known
    | unsent =>
      rw [unclaimPicked_conn]
      exact id
    | refused => exact id
    | relinquished req | wasted req => exact unasked_settleRequest req

theorem Moves.keepsWrites {first last : Session} (moves : Moves first last) : first.KeepsWrites last := by
  induction moves with
  | refl => exact .refl _
  | next _ move ih => exact ih.trans move.keepsWrites

theorem keepsWrites_announce (session : Session) (message : Message) :
    session.KeepsWrites (session.announce message) := by
  have frame := announces_announce session message
  constructor
  · rw [frame.torrent]
  · rw [frame.torrent]
  · rw [frame.torrent]
  · rw [frame.conn]
  · rw [frame.conn]
    exact fun _ unasked => ⟨unasked.outstanding, unasked.expected⟩

end Session
end TorrentPlayer.Core

import TorrentPlayer.Hashes

namespace TorrentPlayer.Wire

/-!
# The handshake

`wt-wire/src/handshake.rs`.  Either end of a connection sends 68 bytes: a fixed
header, eight bytes of extension bits, the info hash and the peer id.  The end
that dialled knows which hash it wants to read back.  The end that was dialled
accepts any hash that its `lookup` callback accepts, and answers with that hash.
-/

/-- What one end sends. -/
abbrev HandshakeBytes : Type :=
  Vector UInt8 68

abbrev PeerExtensionBits : Type :=
  Vector UInt8 8

structure HandshakeResult where
  extensions : PeerExtensionBits
  infoHash : InfoHash
  peerId : PeerId

def protocolStr : Vector UInt8 19 :=
  #v[66, 105, 116, 84, 111, 114, 114, 101, 110, 116, 32, 112, 114, 111, 116, 111, 99, 111, 108]

namespace HandshakeBytes

variable (buf : HandshakeBytes)

def field (start size : Nat) (inside : start + size <= 68) : Vector UInt8 size :=
  Vector.ofFn (fun index : Fin size => buf[start + index.val])

def extensions : PeerExtensionBits :=
  buf.field 20 8 (by decide)

def infoHash : InfoHash :=
  buf.field 28 20 (by decide)

def peerId : PeerId :=
  buf.field 48 20 (by decide)

def headerOk : Bool :=
  buf[0] == 19 && buf.field 1 19 (by decide) == protocolStr

def debugHeader : String :=
  "[" ++ ", ".intercalate ((buf.field 0 20 (by decide)).toList.map (fun byte =>
    toString byte.toNat)) ++ "]"

def result : HandshakeResult :=
  { extensions := buf.extensions, infoHash := buf.infoHash, peerId := buf.peerId }

end HandshakeBytes

def writeHandshake (infoHash : InfoHash) (peerId : PeerId) (extensions : PeerExtensionBits) :
    HandshakeBytes :=
  Vector.ofFn (fun index : Fin 68 =>
    if index.val < 1 then 19
    else if inStr : index.val - 1 < 19 then protocolStr[index.val - 1]
    else if inBits : index.val - 20 < 8 then extensions[index.val - 20]
    else if inHash : index.val - 28 < 20 then infoHash[index.val - 28]
    else peerId[index.val - 48])

def readHandshake (expectedInfoHash : Option InfoHash) (buf : HandshakeBytes) :
    Except String HandshakeResult :=
  if !buf.headerOk then .error ("unexpected protocol header: " ++ buf.debugHeader)
  else
    match expectedInfoHash with
    | none => .ok buf.result
    | some expected =>
      if buf.infoHash != expected then
        .error ("mismatched infohash: expected " ++ toHex expected ++ ", got " ++ toHex buf.infoHash)
      else .ok buf.result

/-- The end that dialled: what it sends, and what it makes of the answer. -/
def handshake (infoHash : InfoHash) (peerId : PeerId) (extensions : PeerExtensionBits)
    (buf : HandshakeBytes) : HandshakeBytes × Except String HandshakeResult :=
  (writeHandshake infoHash peerId extensions, readHandshake (some infoHash) buf)

/-- The end that was dialled, with its answer. -/
def handshakeIncoming (peerId : PeerId) (extensions : PeerExtensionBits)
    (lookup : InfoHash -> Bool) (buf : HandshakeBytes) :
    Except String (HandshakeResult × HandshakeBytes) :=
  if !buf.headerOk then .error ("unexpected protocol header: " ++ buf.debugHeader)
  else if !lookup buf.infoHash then .error ("infohash not found: " ++ toHex buf.infoHash)
  else .ok (buf.result, writeHandshake buf.infoHash peerId extensions)

variable {buf : HandshakeBytes}

section
variable (infoHash : InfoHash) (peerId : PeerId) (extensions : PeerExtensionBits)

theorem HandshakeBytes.field_eq {start size : Nat} {inside : start + size <= 68} {bytes : Vector UInt8 size}
    (same : ∀ index (small : index < size), buf[start + index] = bytes[index]) :
    buf.field start size inside = bytes := by
  refine Vector.ext fun index small => ?_
  rw [HandshakeBytes.field, Vector.getElem_ofFn]
  exact same index small

@[simp] theorem headerOk_writeHandshake : (writeHandshake infoHash peerId extensions).headerOk = true := by
  rw [HandshakeBytes.headerOk, Bool.and_eq_true, beq_iff_eq, beq_iff_eq]
  refine ⟨?_, HandshakeBytes.field_eq (fun index small => ?_)⟩
  · rw [writeHandshake, Vector.getElem_ofFn]
    rfl
  · simp only [writeHandshake, Vector.getElem_ofFn, Nat.add_sub_cancel_left]
    rw [if_neg (by omega), dif_pos small]

@[simp] theorem extensions_writeHandshake :
    (writeHandshake infoHash peerId extensions).extensions = extensions := by
  refine HandshakeBytes.field_eq fun index small => ?_
  simp only [writeHandshake, Vector.getElem_ofFn, Nat.add_sub_cancel_left]
  rw [if_neg (by omega), dif_neg (by omega), dif_pos small]

@[simp] theorem infoHash_writeHandshake :
    (writeHandshake infoHash peerId extensions).infoHash = infoHash := by
  refine HandshakeBytes.field_eq fun index small => ?_
  simp only [writeHandshake, Vector.getElem_ofFn, Nat.add_sub_cancel_left]
  rw [if_neg (by omega), dif_neg (by omega), dif_neg (by omega), dif_pos small]

@[simp] theorem peerId_writeHandshake : (writeHandshake infoHash peerId extensions).peerId = peerId := by
  refine HandshakeBytes.field_eq fun index small => ?_
  simp only [writeHandshake, Vector.getElem_ofFn, Nat.add_sub_cancel_left]
  rw [if_neg (by omega), dif_neg (by omega), dif_neg (by omega), dif_neg (by omega)]

theorem result_writeHandshake :
    (writeHandshake infoHash peerId extensions).result = ⟨extensions, infoHash, peerId⟩ := by
  rw [HandshakeBytes.result, extensions_writeHandshake, infoHash_writeHandshake, peerId_writeHandshake]

end

theorem readHandshake_expected {expected : InfoHash} {result : HandshakeResult}
    (read : readHandshake (some expected) buf = .ok result) :
    result = buf.result /\ buf.infoHash = expected := by
  unfold readHandshake at read
  split at read
  · cases read
  dsimp only at read
  split at read
  · cases read
  rename_i same
  cases read
  exact ⟨rfl, by simpa using same⟩

theorem handshakeIncoming_accepted {peerId : PeerId}
    {extensions : PeerExtensionBits} {lookup : InfoHash -> Bool} {answer : HandshakeResult × HandshakeBytes}
    (accepted : handshakeIncoming peerId extensions lookup buf = .ok answer) : answer.1 = buf.result /\
    lookup buf.infoHash = true /\ answer.2 = writeHandshake buf.infoHash peerId extensions := by
  unfold handshakeIncoming at accepted
  split at accepted
  · cases accepted
  split at accepted
  · cases accepted
  rename_i found
  cases accepted
  exact ⟨rfl, by simpa using found, rfl⟩

/-- Two ends that both follow the protocol read each other's handshake: if the
end that was dialled knows the hash, both accept, with each other's peer id. -/
theorem handshake_handshakeIncoming (infoHash : InfoHash) (ours theirs : PeerId)
    (ourBits theirBits : PeerExtensionBits) (lookup : InfoHash -> Bool) (known : lookup infoHash = true) :
    Exists fun answer => handshakeIncoming theirs theirBits lookup (writeHandshake infoHash ours ourBits) =
    .ok (⟨ourBits, infoHash, ours⟩, answer) /\
    (handshake infoHash ours ourBits answer).2 = .ok ⟨theirBits, infoHash, theirs⟩ := by
  refine ⟨writeHandshake infoHash theirs theirBits, ?_, ?_⟩
  · rw [handshakeIncoming, headerOk_writeHandshake, infoHash_writeHandshake, known, result_writeHandshake]
    rfl
  · rw [handshake, readHandshake, headerOk_writeHandshake, infoHash_writeHandshake, result_writeHandshake]
    simp

theorem handshake_between_two : Exists fun answer =>
    handshakeIncoming (.replicate 20 2) (.replicate 8 4) (· == .replicate 20 7)
      (writeHandshake (.replicate 20 7) (.replicate 20 1) (.replicate 8 3)) =
        .ok (⟨.replicate 8 3, .replicate 20 7, .replicate 20 1⟩, answer) ∧
    (handshake (.replicate 20 7) (.replicate 20 1) (.replicate 8 3) answer).2 =
      .ok ⟨.replicate 8 4, .replicate 20 7, .replicate 20 2⟩ :=
  handshake_handshakeIncoming _ _ _ _ _ _ (beq_self_eq_true _)

end TorrentPlayer.Wire

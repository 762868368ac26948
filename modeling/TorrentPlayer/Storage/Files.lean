import TorrentPlayer.Storage.Ranges

namespace TorrentPlayer.Storage

open List

/-!
# The files behind a torrent

The files of a torrent lie one after the other.  A range of the torrent is read
or written file by file.  A plan lists the part of the range that each file has,
in positions of the torrent.
-/

structure FileDescriptor where
  offset : Nat
  length : Nat
  path : String
  opened : Bool

/-- The descriptors of files with given lengths and paths, none of them open. -/
def descriptors : Nat -> List (Nat × String) -> List FileDescriptor
  | _, [] => []
  | offset, (length, path) :: rest =>
    { offset := offset, length := length, path := path, opened := false } ::
      descriptors (offset + length) rest

/-- The files that may hold bytes of a range. -/
def filesOverlapping (files : List FileDescriptor) (start stop : Nat) : List FileDescriptor :=
  (files.dropWhile (fun file => file.offset + file.length <= start)).takeWhile
    (fun file => file.offset < stop)

inductive StorageError where
  | io (text : String)
  | closed
  | unavailable
  | other (text : String)
  deriving DecidableEq

def planLoop (start stop : Nat) : List FileDescriptor -> Except StorageError (List ByteRange)
  | [] => .ok []
  | file :: rest =>
    let first := max start file.offset
    let last := min stop (file.offset + file.length)
    let path := file.path
    if last <= first then planLoop start stop rest
    else if !file.opened then .error (.other s!"storage for {path} is not configured")
    else
      match planLoop start stop rest with
      | .error failure => .error failure
      | .ok parts => .ok ({ start := first, stop := last } :: parts)

def planFileReads (files : List FileDescriptor) (start count : Nat) :
    Except StorageError (List ByteRange) :=
  match planLoop start (start + count) (filesOverlapping files start (start + count)) with
  | .error failure => .error failure
  | .ok parts =>
    if (parts.map (fun part => part.stop - part.start)).sum = count then .ok parts
    else .error (.other "short read from files")

/-! ## A plan has every byte of its range -/

/-- Each file begins where the one before it ends. -/
def Contiguous : Nat -> List FileDescriptor -> Prop
  | _, [] => True
  | offset, file :: rest => file.offset = offset /\ Contiguous (offset + file.length) rest

theorem contiguous_descriptors (offset : Nat) (files : List (Nat × String)) :
    Contiguous offset (descriptors offset files) := by
  induction files generalizing offset with
  | nil => trivial
  | cons file rest ih => exact ⟨rfl, ih _⟩

variable {offset start : Nat} {files : List FileDescriptor} {parts : List ByteRange}

theorem Contiguous.offset_le (contiguous : Contiguous offset files) :
    ∀ file ∈ files, offset <= file.offset := by
  induction files generalizing offset with
  | nil => nofun
  | cons head tail ih =>
    intro file within
    rcases mem_cons.mp within with rfl | behind
    · exact Nat.le_of_eq contiguous.1.symm
    · have later := ih contiguous.2 file behind
      omega

theorem planLoop_dropWhile (start stop : Nat) (files : List FileDescriptor) :
    planLoop start stop (files.dropWhile (fun file => file.offset + file.length <= start)) =
    planLoop start stop files := by
  induction files with
  | nil => rfl
  | cons file rest ih =>
    rw [dropWhile_cons]
    split
    case isFalse => rfl
    next before =>
      have ends := of_decide_eq_true before
      have empty : min stop (file.offset + file.length) <= max start file.offset := by omega
      rw [ih, planLoop, if_pos empty]

theorem planLoop_of_behind (start stop : Nat) (behind : ∀ file ∈ files, stop <= file.offset) :
    planLoop start stop files = .ok [] := by
  induction files with
  | nil => rfl
  | cons file rest ih =>
    have begins := behind file mem_cons_self
    have empty : min stop (file.offset + file.length) <= max start file.offset := by omega
    rw [planLoop, if_pos empty]
    exact ih (fun other within => behind other (mem_cons_of_mem _ within))

theorem planLoop_takeWhile (start stop : Nat) (contiguous : Contiguous offset files) :
    planLoop start stop (files.takeWhile (fun file => file.offset < stop)) = planLoop start stop files := by
  induction files generalizing offset with
  | nil => rfl
  | cons file rest ih =>
    rw [takeWhile_cons]
    split
    · rw [planLoop, planLoop, ih contiguous.2]
    rename_i before
    have begins : stop <= file.offset := by simpa using before
    refine (planLoop_of_behind start stop ?_).symm
    intro other within
    have later := contiguous.offset_le other within
    rw [<- contiguous.1] at later
    omega

theorem Contiguous.dropWhile (contiguous : Contiguous offset files) (start : Nat) : Exists fun later : Nat =>
    Contiguous later (files.dropWhile (fun file => file.offset + file.length <= start)) := by
  induction files generalizing offset with
  | nil => exact ⟨0, trivial⟩
  | cons file rest ih =>
    rw [dropWhile_cons]
    split
    · exact ih contiguous.2
    · exact ⟨offset, contiguous⟩

theorem planLoop_filesOverlapping (contiguous : Contiguous offset files) (start stop : Nat) :
    planLoop start stop (filesOverlapping files start stop) = planLoop start stop files := by
  rcases contiguous.dropWhile start with ⟨later, rest⟩
  rw [filesOverlapping, planLoop_takeWhile start stop rest, planLoop_dropWhile]

def totalLength (files : List FileDescriptor) : Nat :=
  (files.map FileDescriptor.length).sum

variable {count stop : Nat}

/-- The parts of a range in contiguous files: what they cover and how long they
are together. -/
theorem planLoop_spec (contiguous : Contiguous offset files)
    (planned : planLoop start stop files = .ok parts) :
    (parts.map (fun part => part.stop - part.start)).sum =
      min stop (offset + totalLength files) - max start offset /\ ∀ position : Nat,
      Covered parts position <->
        max start offset <= position /\ position < min stop (offset + totalLength files) := by
  induction files generalizing offset parts with
  | nil =>
    cases planned
    have none : min stop (offset + totalLength []) <= max start offset := by
      show min stop (offset + 0) <= _
      omega
    refine ⟨(Nat.sub_eq_zero_of_le none).symm, ?_⟩
    intro position
    simp only [covered_nil, false_iff]
    omega
  | cons file rest ih =>
    have total : totalLength (file :: rest) = file.length + totalLength rest := by
      rw [totalLength, map_cons, sum_cons, totalLength]
    have begins := contiguous.1
    rw [planLoop] at planned
    split at planned
    · rcases ih contiguous.2 planned with ⟨size, covered⟩
      refine ⟨by omega, ?_⟩
      intro position
      rw [covered]
      omega
    · split at planned
      · cases planned
      split at planned
      · cases planned
      rename_i others known
      cases planned
      rcases ih contiguous.2 known with ⟨size, covered⟩
      refine ⟨?_, ?_⟩
      · rw [map_cons, sum_cons, size]
        dsimp only
        omega
      · intro position
        rw [covered_cons, covered]
        simp only [ByteRange.Contains]
        omega

theorem lt_of_mem_planLoop (planned : planLoop start stop files = .ok parts) :
    ∀ part ∈ parts, part.start < part.stop := by
  induction files generalizing parts with
  | nil =>
    intro part within
    cases planned
    cases within
  | cons file rest ih =>
    rw [planLoop] at planned
    split at planned
    · exact ih planned
    split at planned
    · cases planned
    split at planned
    · cases planned
    rename_i others known
    cases planned
    intro part within
    rcases mem_cons.mp within with rfl | behind
    · dsimp only
      omega
    · exact ih known part behind

theorem lt_of_mem_planFileReads (planned : planFileReads files start count = .ok parts) :
    ∀ part ∈ parts, part.start < part.stop := by
  rw [planFileReads] at planned
  split at planned
  · cases planned
  rename_i found known
  split at planned
  case isFalse => cases planned
  · cases planned
    exact lt_of_mem_planLoop known

theorem covered_planFileReads (contiguous : Contiguous offset files)
    (planned : planFileReads files start count = .ok parts) (position : Nat) :
    Covered parts position <-> start <= position /\ position < start + count := by
  rw [planFileReads, planLoop_filesOverlapping contiguous] at planned
  split at planned
  · cases planned
  rename_i found known
  split at planned
  case isFalse => cases planned
  · cases planned
    rcases planLoop_spec contiguous known with ⟨size, covered⟩
    rw [covered]
    omega

def OpenIn (files : List FileDescriptor) (start stop : Nat) : Prop :=
  ∀ file ∈ files, max start file.offset < min stop (file.offset + file.length) -> file.opened = true

theorem planLoop_ok (opened : OpenIn files start stop) :
    Exists fun parts => planLoop start stop files = .ok parts := by
  induction files with
  | nil => exact ⟨[], rfl⟩
  | cons file rest ih =>
    rcases ih (fun other within => opened other (mem_cons_of_mem _ within)) with
      ⟨parts, known⟩
    rw [planLoop]
    split
    · exact ⟨parts, known⟩
    rw [opened file mem_cons_self (by omega), known]
    exact ⟨_, rfl⟩

theorem planFileReads_ok (contiguous : Contiguous 0 files) (opened : OpenIn files start (start + count))
    (inside : count = 0 \/ start + count <= totalLength files) :
    Exists fun parts => planFileReads files start count = .ok parts := by
  rcases planLoop_ok opened with ⟨parts, known⟩
  refine ⟨parts, ?_⟩
  have size := (planLoop_spec contiguous known).1
  rw [planFileReads, planLoop_filesOverlapping contiguous, known]
  refine if_pos ?_
  omega

end TorrentPlayer.Storage

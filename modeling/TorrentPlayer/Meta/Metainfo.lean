import TorrentPlayer.Library.Utf8
import TorrentPlayer.Meta.DictKeys

namespace TorrentPlayer.Meta

open Library

/-!
# Torrent files and info dictionaries

`parseMetainfo` reads a .torrent file and `parseInfo` the info dictionary in it.  A text
is the list of its UTF-8 bytes, and 64-bit numbers wrap as they do in a release build.
-/

def ascii (text : String) : List UInt8 :=
  text.toList.map Char.toUInt8

def valueToStringLenient : Value -> Option (List UInt8)
  | .bytes text => some (fromUtf8Lossy text)
  | .int number => some (signedDecimal number.toInt)
  | .list _ | .dict _ => none

variable (value : Value) (entries : List (List UInt8 × Value))

def listOfStrings : Option (List (List UInt8)) :=
  value.asList.map (fun items => items.filterMap valueToStringLenient)

/-! ## Torrent files -/

/-- A whole .torrent file. -/
structure MetaInfo where
  infoBytes : List UInt8
  announce : List UInt8
  announceList : List (List (List UInt8))
  nodes : List (List UInt8)
  creationDate : Int64
  comment : List UInt8
  createdBy : List UInt8
  encoding : List UInt8
  urlList : List (List UInt8)
  pieceLayers : List (List UInt8 × List UInt8)

def parseAnnounceList : List (List (List UInt8)) :=
  match value.asList with
  | none => []
  | some tiers => tiers.filterMap listOfStrings

def parseUrlList : Value -> List (List UInt8)
  | .bytes text => (valueToStringLenient (.bytes text)).toList
  | .list items => items.filterMap valueToStringLenient
  | .int _ | .dict _ => []

def parseNode : Value -> Option (List UInt8)
  | .bytes text => some (fromUtf8Lossy text)
  | .list (host :: .int port :: _) =>
    (valueToStringLenient host).map (fun host => host ++ ascii ":" ++ signedDecimal port.toInt)
  | .list (host :: .bytes port :: _) =>
    (valueToStringLenient host).map (fun host => host ++ ascii ":" ++ fromUtf8Lossy port)
  | .list _ | .int _ | .dict _ => none

def parseNodesLenient : Value -> List (List UInt8)
  | .bytes text => if text = [] then [] else (valueToStringLenient (.bytes text)).toList
  | .list items => items.filterMap parseNode
  | .int _ | .dict _ => []

def parsePieceLayers : List (List UInt8 × List UInt8) :=
  match value.asDict with
  | none => []
  | some entries => entries.filterMap (fun entry =>
    if entry.1.length = 32 then entry.2.asBytes.map (fun layer => (entry.1, layer)) else none)

def textAt (key : String) : List UInt8 :=
  ((entries.lookup (ascii key)).bind valueToStringLenient).getD []

/-- The number under a key, or zero. -/
def intAt (key : String) : Int64 :=
  ((entries.lookup (ascii key)).bind Value.asInt).getD 0

def parseMetainfo (data : List UInt8) : Except Error MetaInfo :=
  match decode data with
  | .error error => .error error
  | .ok root =>
    match root.asDict with
    | none => .error (.metaInfo "top-level value is not a dict")
    | some entries =>
      match extractDictKeyRaw data (ascii "info") with
      | .error error => .error error
      | .ok info =>
        .ok {
          infoBytes := info.getD []
          announce := textAt entries "announce"
          announceList :=
            ((entries.lookup (ascii "announce-list")).map parseAnnounceList).getD []
          nodes := ((entries.lookup (ascii "nodes")).map parseNodesLenient).getD []
          creationDate := intAt entries "creation date"
          comment := textAt entries "comment"
          createdBy := textAt entries "created by"
          encoding := textAt entries "encoding"
          urlList := ((entries.lookup (ascii "url-list")).map parseUrlList).getD []
          pieceLayers :=
            ((entries.lookup (ascii "piece layers")).map parsePieceLayers).getD [] }

/-- What `parseMetainfo` returns: the fields of the decoded dictionary, and the bytes of
`info` as they stand in the file. -/
theorem parseMetainfo_eq_ok {data : List UInt8} {metainfo : MetaInfo}
    (parsed : parseMetainfo data = .ok metainfo) :
    Exists fun entries => Exists fun info => decode data = .ok (.dict entries) /\
    extractDictKeyRaw data (ascii "info") = .ok info /\ metainfo.infoBytes = info.getD [] := by
  rw [parseMetainfo] at parsed
  split at parsed
  · cases parsed
  rename_i root read
  cases root with
  | int | bytes | list => cases parsed
  | dict entries =>
    dsimp only [Value.asDict] at parsed
    split at parsed
    · cases parsed
    next info found =>
      cases parsed
      exact ⟨entries, info, read, found, rfl⟩

/-- Unless the file repeats `info` with another value, the bytes that are hashed decode to
the `info` of the decoded file. -/
theorem decode_infoBytes {data : List UInt8} {metainfo : MetaInfo} (fits : Fits data)
    (parsed : parseMetainfo data = .ok metainfo) (same : OccurrencesAgree data (ascii "info")) :
    Exists fun entries => decode data = .ok (.dict entries) /\
    ∀ value, entries.lookup (ascii "info") = some value -> decode metainfo.infoBytes = .ok value := by
  rcases parseMetainfo_eq_ok parsed with ⟨entries, info, read, found, bytes⟩
  refine ⟨entries, read, ?_⟩
  intro value held
  have agrees := extractionAgrees_of_occurrencesAgree fits read same
  rcases agrees.1.mpr ⟨value, held⟩ with ⟨slice, returned⟩
  rcases agrees.2 slice returned with ⟨other, held', decoded⟩
  rw [held] at held'
  cases held'
  rw [found] at returned
  cases returned
  rw [bytes]
  exact decoded

/-- `d4:infoi1ee`. -/
theorem decode_infoBytes_single_info : Exists fun metainfo : MetaInfo =>
    decode metainfo.infoBytes = .ok (.int (Int64.ofInt 1)) := by
  let data : List UInt8 := [100, 52, 58, 105, 110, 102, 111, 105, 49, 101, 101]
  have fits : Fits data := by unfold Fits; decide
  rcases decode_infoBytes fits rfl ⟨_, rfl, rfl⟩ with ⟨entries, read, decoded⟩
  cases read
  exact ⟨_, decoded _ rfl⟩

/-! ## Info dictionaries -/

structure FileInfo where
  path : List (List UInt8)
  length : Int64
  torrentOffset : Int64
  attr : List UInt8
  piecesRoot : Option (List UInt8)
deriving DecidableEq

structure Info where
  name : List UInt8
  pieceLength : Int64
  pieces : List UInt8
  files : List FileInfo
  singleFile : Bool
  isPrivate : Option Bool
  source : List UInt8
  metaVersion : Int64
  fileTreeRaw : Option (List UInt8)
deriving DecidableEq

namespace Info

def totalLength (info : Info) : Int64 :=
  info.files.foldl (fun total file => total + file.length) 0

/-- The number of pieces, cut to 32 bits by the cast. -/
def numPieces (info : Info) : Nat :=
  if info.pieceLength <= 0 ∨ info.totalLength <= 0 then
    0
  else
    (((info.totalLength + info.pieceLength - 1) / info.pieceLength).toInt % 2 ^ 32).toNat

def hasV2 (info : Info) : Bool :=
  info.metaVersion = 2

end Info

/-- `path.utf-8` where it names something, and else `path`. -/
def pathFromFileDict : List (List UInt8) :=
  match (entries.lookup (ascii "path.utf-8")).bind listOfStrings with
  | some (part :: parts) => part :: parts
  | some [] | none => ((entries.lookup (ascii "path")).bind listOfStrings).getD []

/-- The loop of `parse_v1_files`, from a running offset. -/
def v1Files : Int64 -> List Value -> Except Error (List FileInfo)
  | _, [] => .ok []
  | offset, item :: items =>
    match item.asDict with
    | none => .error (.metaInfo "file entry is not a dict")
    | some entries =>
      match v1Files (offset + intAt entries "length") items with
      | .error error => .error error
      | .ok files =>
        .ok ({
          path := pathFromFileDict entries
          length := intAt entries "length"
          torrentOffset := offset
          attr := textAt entries "attr"
          piecesRoot := none } :: files)

def parseV1Files : Except Error (List FileInfo) :=
  match value.asList with
  | none => .error (.metaInfo "files is not a list")
  | some items => v1Files 0 items

/-- The offset after a file of a version 2 torrent: files start at piece boundaries. -/
def alignedOffset (pieceLength offset length : Int64) : Int64 :=
  if 0 < pieceLength then
    offset + (length + pieceLength - 1) / pieceLength * pieceLength
  else
    offset + length

/-- The properties of a file leaf: its length and its root hash. -/
def leafProperties : Int64 × Option (List UInt8) :=
  match entries.lookup [] with
  | some (.dict properties) =>
    (intAt properties "length", ((properties.lookup (ascii "pieces root")).bind Value.asBytes).filter
        (fun root => root.length = 32))
  | some (.int _) | some (.bytes _) | some (.list _) | none => (0, none)

mutual

/-- The walk over a file tree, with the offset of the next file.  The entries of a map are
in the order of their keys, which is the order of the walk. -/
def walkFileTree (pieceLength : Int64) :
    Value -> List (List UInt8) -> Int64 -> Except Error (List FileInfo × Int64)
  | .dict entries, path, offset =>
    if entries.all (fun entry => entry.1.isEmpty) = true then
      .ok ([{
        path := path
        length := (leafProperties entries).1
        torrentOffset := offset
        attr := []
        piecesRoot := (leafProperties entries).2 }],
        alignedOffset pieceLength offset (leafProperties entries).1)
    else
      walkEntries pieceLength entries path offset
  | .int _, _, _ | .bytes _, _, _ | .list _, _, _ =>
    .error (.metaInfo "file tree node is not a dict")

/-- The walk over the entries of a directory; the empty key is no entry. -/
def walkEntries (pieceLength : Int64) : List (List UInt8 × Value) -> List (List UInt8) -> Int64 ->
      Except Error (List FileInfo × Int64)
  | [], _, offset => .ok ([], offset)
  | (key, child) :: entries, path, offset =>
    if key.isEmpty = true then
      walkEntries pieceLength entries path offset
    else
      match walkFileTree pieceLength child (path ++ [fromUtf8Lossy key]) offset with
      | .error error => .error error
      | .ok (files, offset') =>
        match walkEntries pieceLength entries path offset' with
        | .error error => .error error
        | .ok (later, offset'') => .ok (files ++ later, offset'')

end

def parseFileTree (tree : Value) (pieceLength : Int64) : Except Error (List FileInfo) :=
  match walkFileTree pieceLength tree [] 0 with
  | .error error => .error error
  | .ok (files, _) => .ok files

/-- The name, from `name.utf-8` where that is not empty. -/
def nameOf : List UInt8 :=
  if textAt entries "name.utf-8" = [] then
    textAt entries "name"
  else
    textAt entries "name.utf-8"

def privateOf : Option Bool :=
  match entries.lookup (ascii "private") with
  | some (.int number) => some (decide (number ≠ 0))
  | some (.bytes text) => some (decide (text ≠ ascii "0" /\ text ≠ []))
  | some (.list _) | some (.dict _) | none => none

def piecesOf : List UInt8 :=
  ((entries.lookup (ascii "pieces")).bind Value.asBytes).getD []

/-- The files of an info dictionary and whether it has the single-file form. -/
def filesOf (fileTreeRaw : Option (List UInt8)) : Except Error (List FileInfo × Bool) :=
  if intAt entries "meta version" = 2 then
    match fileTreeRaw with
    | none => .ok ([], false)
    | some raw =>
      match decode raw with
      | .error error => .error error
      | .ok tree =>
        match parseFileTree tree (intAt entries "piece length") with
        | .error error => .error error
        | .ok files =>
          .ok (files, decide (files.length = 1) && files.all (fun file => file.path.isEmpty))
  else
    match entries.lookup (ascii "files") with
    | some value =>
      match parseV1Files value with
      | .error error => .error error
      | .ok files => .ok (files, false)
    | none =>
      .ok ([{
        path := []
        length := intAt entries "length"
        torrentOffset := 0
        attr := textAt entries "attr"
        piecesRoot := none }], true)

def parseInfo (data : List UInt8) : Except Error Info :=
  match decode data with
  | .error error => .error error
  | .ok root =>
    match root.asDict with
    | none => .error (.metaInfo "info is not a dict")
    | some entries =>
      if intAt entries "piece length" < 0 then
        .error (.metaInfo "negative piece length")
      else if (piecesOf entries).length % 20 ≠ 0 then
        .error (.metaInfo "pieces length is not a multiple of 20")
      else
        match extractDictKeyRaw data (ascii "file tree") with
        | .error error => .error error
        | .ok fileTreeRaw =>
          match filesOf entries fileTreeRaw with
          | .error error => .error error
          | .ok (files, singleFile) =>
            .ok {
              name := nameOf entries
              pieceLength := intAt entries "piece length"
              pieces := piecesOf entries
              files := files
              singleFile := singleFile
              isPrivate := privateOf entries
              source := textAt entries "source"
              metaVersion := intAt entries "meta version"
              fileTreeRaw := fileTreeRaw }

/-- A torrent file with its info dictionary, which is read from the bytes that are hashed. -/
def parseTorrent (data : List UInt8) : Except Error (MetaInfo × Info) :=
  match parseMetainfo data with
  | .error error => .error error
  | .ok metainfo =>
    match parseInfo metainfo.infoBytes with
    | .error error => .error error
    | .ok info => .ok (metainfo, info)

end TorrentPlayer.Meta

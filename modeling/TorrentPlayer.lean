import TorrentPlayer.Wire.FramedReader
import TorrentPlayer.Wire.UtpConnection
import TorrentPlayer.Wire.SelectiveAck
import TorrentPlayer.Wire.UtpSocket
import TorrentPlayer.Wire.MseStream
import TorrentPlayer.Core.BlockTableCalls
import TorrentPlayer.Core.Availability
import TorrentPlayer.Core.Requests
import TorrentPlayer.Core.DirtyBlocks
import TorrentPlayer.Core.PexView
import TorrentPlayer.Core.MetadataAssembly
import TorrentPlayer.Core.UploadRuns
import TorrentPlayer.Meta.FileLayout
import TorrentPlayer.Storage.CheckpointRoundTrip
import TorrentPlayer.Discovery.CompletedEvent
import TorrentPlayer.Discovery.SourcesRuns
import TorrentPlayer.Discovery.AttachRuns
import TorrentPlayer.Discovery.PrivateTorrentRuns
import TorrentPlayer.Discovery.UdpReplies
import TorrentPlayer.Discovery.SourceLocks
import TorrentPlayer.Core.BlockWrites
import TorrentPlayer.Core.Advertising
import TorrentPlayer.Core.TransferTotals
import TorrentPlayer.Core.CompletionFlags
import TorrentPlayer.Playback.ServedPieces
import TorrentPlayer.Playback.ResumeSaves
import TorrentPlayer.Storage.MemoryPaths
import TorrentPlayer.Storage.FailedAttach
import TorrentPlayer.Storage.CheckpointRemoval
import TorrentPlayer.Storage.PieceHash
import TorrentPlayer.Storage.DhtContacts
import TorrentPlayer.Storage.ReceivedRanges
import TorrentPlayer.Engine.ReaderLimit
import TorrentPlayer.Engine.PreviewDemand
import TorrentPlayer.Engine.TrackerDials
import TorrentPlayer.Core.HasherPool
import TorrentPlayer.Discovery.WsOutbox

import Unnest.Cluster
import Unnest.Document.Loading
import Unnest.Exchange.Cache
import Unnest.Exchange.Cluster
import Unnest.Flattening
import Unnest.Json
import Unnest.Json.Reader
import Unnest.Main
import Unnest.Proofs.AgreementStability
import Unnest.Proofs.AlteredFiles
import Unnest.Proofs.Attempt
import Unnest.Proofs.CacheTransparency
import Unnest.Proofs.CallEnding
import Unnest.Proofs.ColumnEncoding
import Unnest.Proofs.ColumnIntegrity
import Unnest.Proofs.CommandFlattening
import Unnest.Proofs.CoveredRows
import Unnest.Proofs.DictionaryIds
import Unnest.Proofs.DictionaryUnion
import Unnest.Proofs.DirectoryHistory
import Unnest.Proofs.DocumentCells
import Unnest.Proofs.EntryCounts
import Unnest.Proofs.FieldPathGrammar
import Unnest.Proofs.FlatteningFailure
import Unnest.Proofs.LoadedEntries
import Unnest.Proofs.Loading
import Unnest.Proofs.NameRetention
import Unnest.Proofs.NodeFreshness
import Unnest.Proofs.PackedForms
import Unnest.Proofs.PaddedColumns
import Unnest.Proofs.PageAdapters
import Unnest.Proofs.PageIntegrity
import Unnest.Proofs.PageSelection
import Unnest.Proofs.PageTiling
import Unnest.Proofs.PatternInstances
import Unnest.Proofs.PrintedRows
import Unnest.Proofs.RecentLayouts
import Unnest.Proofs.RefusedDocuments
import Unnest.Proofs.RegisteredNames
import Unnest.Proofs.RenumberingRounds
import Unnest.Proofs.RepeatedRuns
import Unnest.Proofs.RowCounts
import Unnest.Proofs.ShardIntegrity
import Unnest.Proofs.ShardSizes
import Unnest.Proofs.SnapshotBytes
import Unnest.Proofs.SnapshotRoundTrip
import Unnest.Settings.Text

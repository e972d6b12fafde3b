import DiskStaging.Main
import DiskStaging.Proofs.Serving
import DiskStaging.Proofs.Arrival
import DiskStaging.Proofs.Buffering
import DiskStaging.Proofs.Tracking
import DiskStaging.Proofs.GzipContents
import DiskStaging.Proofs.GzipServing
import DiskStaging.Proofs.ContentServing
import DiskStaging.Proofs.Sniffing
import DiskStaging.Proofs.ImageHeaders
import DiskStaging.Proofs.Operations
import DiskStaging.Proofs.Copying
import DiskStaging.Proofs.PathUrls
import DiskStaging.Proofs.PlainImport
import DiskStaging.Proofs.BrokenImport
import DiskStaging.Proofs.Lifecycle
import DiskStaging.Proofs.TransferOutcomes
import DiskStaging.Proofs.Conservation
import DiskStaging.Proofs.Keeping
import DiskStaging.Proofs.Ownership
import DiskStaging.Proofs.Raising
import DiskStaging.Proofs.InfoOutcomes
import DiskStaging.Proofs.PackedImport
import DiskStaging.Proofs.StoredDeflate
import DiskStaging.Proofs.StoredGzip
import DiskStaging.Proofs.XzServing
import DiskStaging.Proofs.Truncation
import DiskStaging.Proofs.TruncatedImport
import DiskStaging.Proofs.UrlTexts
import DiskStaging.Proofs.Coverage
import DiskStaging.Proofs.EncodedLocation
import DiskStaging.Proofs.AddressingStyles
import DiskStaging.Proofs.BackendChoice
import DiskStaging.Proofs.DecodedBytes
import DiskStaging.Proofs.CommandRuns
import DiskStaging.Proofs.CommandLines
import DiskStaging.Proofs.UnpackedImages
import DiskStaging.Proofs.StagedImages
import DiskStaging.Proofs.ClosingStreams
import DiskStaging.Proofs.IndependentImports
import DiskStaging.Proofs.XzOutcomes
import DiskStaging.Proofs.MachineWays
import DiskStaging.Proofs.StoredChunks
import DiskStaging.Proofs.XzFraming
import DiskStaging.Proofs.StoredXz
import DiskStaging.Proofs.ReportedUrls
import DiskStaging.Proofs.StorageClients
import DiskStaging.Proofs.SettingUp

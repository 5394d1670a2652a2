import BlobVault.Json.Report
import BlobVault.Provider
import BlobVault.Proofs.Gc.Sweep
import BlobVault.Proofs.Gc.Command
import BlobVault.Proofs.Namespace
import BlobVault.Proofs.Container
import BlobVault.Proofs.World
import BlobVault.Proofs.Store
import BlobVault.Proofs.Catalog
import BlobVault.Proofs.Gc.Exact
import BlobVault.Proofs.PlainStore
import BlobVault.Proofs.Upload
import BlobVault.Proofs.Cache
import BlobVault.Proofs.Caching.Reading
import BlobVault.Proofs.Caching.Operations
import BlobVault.Proofs.Caching.Copy
import BlobVault.Proofs.Caching.Sources
import BlobVault.Proofs.Caching.Coherence
import BlobVault.Proofs.Caching.Transparency
import BlobVault.Proofs.LockstepStore
import BlobVault.Proofs.Caching.ReadAfterWrite
import BlobVault.Proofs.WriteOnce
import BlobVault.Proofs.Listing
import BlobVault.Proofs.Digest
import BlobVault.Proofs.Integrity
import BlobVault.Proofs.Copying.Lookup
import BlobVault.Proofs.Copying.Pairs
import BlobVault.Proofs.Answers
import BlobVault.Proofs.Qualified
import BlobVault.Proofs.Deduplication
import BlobVault.Proofs.Gc.Binding
import BlobVault.Proofs.Gc.Live
import BlobVault.Proofs.Copying.Self
import BlobVault.Proofs.Confinement
import BlobVault.Proofs.Isolation
import BlobVault.Proofs.Caching.Shared
import BlobVault.Proofs.Simulation
import BlobVault.Proofs.Failures
import BlobVault.Proofs.Copying.Agreement
import BlobVault.Proofs.ListedKeys
import BlobVault.Proofs.Caching.Age
import BlobVault.Proofs.Caching.Streams
import BlobVault.Proofs.Gc.DryRun
import BlobVault.Proofs.Pages
import BlobVault.Proofs.Scrolling
import BlobVault.Proofs.Caching.Recency
import BlobVault.Proofs.Caching.Limits
import BlobVault.Proofs.Gc.Accounting
import BlobVault.Proofs.RangeReads
import BlobVault.Proofs.Annotations
import BlobVault.Proofs.CacheSize
import BlobVault.Proofs.TempFiles
import BlobVault.Proofs.Caching.FiniteMap
import BlobVault.Proofs.ConfigInputs
import BlobVault.Proofs.Containment

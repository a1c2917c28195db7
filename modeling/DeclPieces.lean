import DeclPieces.Main
import DeclPieces.Storage.Memory
import DeclPieces.Proofs.Success
import DeclPieces.Proofs.Splice
import DeclPieces.Proofs.Markers
import DeclPieces.Proofs.Decomposition
import DeclPieces.Proofs.Layout
import DeclPieces.Proofs.Emission
import DeclPieces.Proofs.RoundTrip
import DeclPieces.Proofs.Outline
import DeclPieces.Proofs.DiskFiles
import DeclPieces.Proofs.Activity
import DeclPieces.Proofs.Remerge
import DeclPieces.Proofs.LatestRun
import DeclPieces.Proofs.Planning
import DeclPieces.Proofs.SplitEffect
import DeclPieces.Proofs.LastSplit
import DeclPieces.Proofs.History
import DeclPieces.Proofs.Accounts
import DeclPieces.Proofs.KeptEdits
import DeclPieces.Proofs.LogBlind
import DeclPieces.Proofs.Interleaving
import DeclPieces.Proofs.JoinedPath
import DeclPieces.Proofs.Parsing
import DeclPieces.Proofs.SplitStatus
import DeclPieces.Proofs.Resplit
import DeclPieces.Proofs.SymbolTable
import DeclPieces.Proofs.IndexExports
import DeclPieces.Proofs.IndexSpecifier
import DeclPieces.Proofs.DryRun
import DeclPieces.Proofs.Trouble
import DeclPieces.Proofs.FailedMerge
import DeclPieces.Proofs.LowerCase
import DeclPieces.Proofs.Namespaces
import DeclPieces.Proofs.ModuleReference
import DeclPieces.Proofs.Allocation
import DeclPieces.Proofs.FreePath
import DeclPieces.Proofs.Decomposability
import DeclPieces.Proofs.SplitFrame
import DeclPieces.Proofs.ImportRewriting
import DeclPieces.Proofs.RepeatedSplit
import DeclPieces.Proofs.RunOrder
import DeclPieces.Proofs.WorkerPool
import DeclPieces.Proofs.ManifestTables
import DeclPieces.Proofs.TextForms
import DeclPieces.Proofs.CopyName
import DeclPieces.Proofs.ProperDisk
import DeclPieces.Proofs.CopyList
import DeclPieces.Proofs.CopyHistory
import DeclPieces.Proofs.MergeBackup
import DeclPieces.Proofs.TextOrder
import DeclPieces.Proofs.StatementAccount
import DeclPieces.Proofs.Trimming
import DeclPieces.Proofs.Stripping
import DeclPieces.Proofs.FileName
import DeclPieces.Proofs.Containment
import DeclPieces.Proofs.ImportLines
import DeclPieces.Proofs.LeadingDocs
import DeclPieces.Proofs.TypeUses
import DeclPieces.Proofs.StatementOrder
import DeclPieces.Proofs.WholeTag
import DeclPieces.Proofs.FaultIsolation
import DeclPieces.Proofs.RunTransaction
import DeclPieces.Proofs.ProjectRoots
import DeclPieces.Proofs.FaultTree
import DeclPieces.Proofs.Enclosure
import DeclPieces.Proofs.Discovery
import DeclPieces.Proofs.Debouncing
import DeclPieces.Proofs.DeepestWatch
import DeclPieces.Proofs.LogGroups
import DeclPieces.Proofs.PathsBelow

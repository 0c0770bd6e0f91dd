import EmbToolkit.Proofs.CrashSafety
import EmbToolkit.Proofs.PackageCrash
import EmbToolkit.Proofs.SharedTree
import EmbToolkit.Proofs.DeviceRanges
import EmbToolkit.Proofs.ExitStatus
import EmbToolkit.Proofs.Mirrors
import EmbToolkit.Proofs.GitCheckout
import EmbToolkit.Proofs.PatchedTree
import EmbToolkit.Proofs.RecordedSymbols
import EmbToolkit.Proofs.StateDirs
import EmbToolkit.Proofs.MakeDirectory
import EmbToolkit.Proofs.LineSplitting
import EmbToolkit.Proofs.BufferBounds
import EmbToolkit.Proofs.RootedPaths
import EmbToolkit.Proofs.NameTests
import EmbToolkit.Proofs.CiBuild
import EmbToolkit.Proofs.RewrittenLines
import EmbToolkit.Proofs.RewrittenFiles
import EmbToolkit.Proofs.TargetDirs
import EmbToolkit.Proofs.PackageDeps
import EmbToolkit.Proofs.MultiImages
import EmbToolkit.Proofs.Finalized

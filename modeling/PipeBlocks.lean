import PipeBlocks.Main
import PipeBlocks.World
import PipeBlocks.Proofs.Block.Written
import PipeBlocks.Proofs.Document.Replay
import PipeBlocks.Proofs.Document.Settled
import PipeBlocks.Proofs.Document.Outcome
import PipeBlocks.Block.Locator
import PipeBlocks.Scan.Scanner
import PipeBlocks.Scan.Slices
import PipeBlocks.Proofs.Document.Locator
import PipeBlocks.Proofs.Document.Called
import PipeBlocks.Proofs.Document.Cut
import PipeBlocks.Proofs.CommandLine
import PipeBlocks.Proofs.CommandLine.Added
import PipeBlocks.Proofs.Run.Listing
import PipeBlocks.Proofs.Scan.Overclosed
import PipeBlocks.Proofs.Scan.Scanner
import PipeBlocks.Proofs.Scan.Slices
import PipeBlocks.Proofs.Document.Debugging
import PipeBlocks.Proofs.FileSystem
import PipeBlocks.Proofs.Run.InPlace
import PipeBlocks.Proofs.Run.Excluded
import PipeBlocks.Proofs.Run.Settings
import PipeBlocks.Proofs.Arguments
import PipeBlocks.Proofs.Exclusions
import PipeBlocks.Proofs.Sound
import PipeBlocks.Proofs.Document.Consumed
import PipeBlocks.Proofs.Scan.Frame
import PipeBlocks.Proofs.Document.Literal

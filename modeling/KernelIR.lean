import KernelIR.Graph.Equality
import KernelIR.Graph.Dump
import KernelIR.Graph.Validity
import KernelIR.Host.Basic
import KernelIR.Document.Pool
import KernelIR.Document.Graph
import KernelIR.Document.Layout
import KernelIR.Proofs.Paths
import KernelIR.Proofs.Positions
import KernelIR.Proofs.Types
import KernelIR.Proofs.Resolution
import KernelIR.Proofs.Data
import KernelIR.Proofs.Validity
import KernelIR.Proofs.Inspection
import KernelIR.Proofs.Denotation
import KernelIR.Proofs.Forwarding
import KernelIR.Proofs.Unfolding
import KernelIR.Proofs.Parameters
import KernelIR.Proofs.Rendering
import KernelIR.Proofs.Records
import KernelIR.Proofs.Runs
import KernelIR.Proofs.Arena
import KernelIR.Proofs.Blocks
import KernelIR.Proofs.Sharing
import KernelIR.Proofs.Words
import KernelIR.Proofs.Texts
import KernelIR.Proofs.Loaded
import KernelIR.Proofs.Growth
import KernelIR.Proofs.Assembly
import KernelIR.Proofs.Mirrors
import KernelIR.Proofs.Refusals
import KernelIR.Proofs.Atomicity
import KernelIR.Proofs.Reads
import KernelIR.Proofs.RoundTrip
import KernelIR.Proofs.Preservation
import KernelIR.Proofs.Stability
import KernelIR.Proofs.Repetition
import KernelIR.Proofs.Programs
import KernelIR.Proofs.Simulation
import KernelIR.Proofs.Layout.Boxes
import KernelIR.Proofs.Layout.Addresses
import KernelIR.Proofs.Layout.Buffers
import KernelIR.Proofs.Layout.Spans
import KernelIR.Proofs.Layout.StridedForm
import KernelIR.Proofs.Layout.Lengths
import KernelIR.Proofs.Layout.Pitches
import KernelIR.Proofs.Layout.Widths
import KernelIR.Proofs.Layout.Sizes
import KernelIR.Proofs.Layout.Extents
import KernelIR.Proofs.Layout.Alignment
import KernelIR.Proofs.Literals
import KernelIR.Proofs.Dumps

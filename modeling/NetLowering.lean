import NetLowering.Main
import NetLowering.Backend.Desk
import NetLowering.Backend.Workshop
import NetLowering.Proofs.Checked
import NetLowering.Proofs.Matches
import NetLowering.Proofs.Table
import NetLowering.Proofs.Layout
import NetLowering.Proofs.FlatNet.Initializers
import NetLowering.Proofs.FlatNet.SignedWeights
import NetLowering.Proofs.FlatNet.Images
import NetLowering.Proofs.FlatNet.Joining
import NetLowering.Proofs.Lowering.Assembly
import NetLowering.Proofs.Lowering.Operators
import NetLowering.Proofs.Lowering.SingleAssignment
import NetLowering.Proofs.Lowering.Growth
import NetLowering.Proofs.Lowering.Filters
import NetLowering.Proofs.Emission.Canonical
import NetLowering.Proofs.Emission.Acceptance
import NetLowering.Proofs.Emission.Restriction
import NetLowering.Proofs.Lowering.Typing
import NetLowering.Proofs.Lowering.FilterLayout
import NetLowering.Proofs.Lowering.RequiredOps
import NetLowering.Proofs.Session.Compiling
import NetLowering.Proofs.Session.Binding
import NetLowering.Proofs.Session.History
import NetLowering.Proofs.Session.Reuse
import NetLowering.Proofs.Session.Creation
import NetLowering.Proofs.Session.Lifecycle
import NetLowering.Proofs.Session.Atomicity
import NetLowering.Proofs.FlatNet.Joinable
import NetLowering.Proofs.Lowering.Layers
import NetLowering.Proofs.Lowering.Solid
import NetLowering.Proofs.Lowering.FloatGraphs
import NetLowering.Proofs.Lowering.Signedness
import NetLowering.Proofs.Lowering.Contributions
import NetLowering.Proofs.Lowering.Names
import NetLowering.Proofs.Lowering.Translation
import NetLowering.Proofs.Backend.Recording
import NetLowering.Proofs.Backend.Models
import NetLowering.Proofs.Backend.Workshop
import NetLowering.Proofs.Backend.History
import NetLowering.Proofs.Backend.Contract
import NetLowering.Proofs.Backend.Computing
import NetLowering.Proofs.Lowering.Coherence
import NetLowering.Proofs.Lowering.Prefixes
import NetLowering.Proofs.Lowering.Refusals
import NetLowering.Proofs.Lowering.Consistency
import NetLowering.Proofs.Lowering.Simulation
import NetLowering.Proofs.Lowering.Bypass
import NetLowering.Proofs.FlatNet.Remapped
import NetLowering.Proofs.Lowering.SignedGraphs
import NetLowering.Proofs.Session.Recreation
import NetLowering.Proofs.Lowering.Renaming
import NetLowering.Proofs.FlatNet.Retagged
import NetLowering.Proofs.FlatNet.Renamed
import NetLowering.Proofs.Lowering.Restating
import NetLowering.Proofs.FlatNet.Reordered
import NetLowering.Proofs.Layout.Inverse
import NetLowering.Proofs.Wire.Spelling
import NetLowering.Proofs.Wire.Contents
import NetLowering.Proofs.Wire.Columns
import NetLowering.Proofs.Net.Spelling
import NetLowering.Proofs.Net.Merging
import NetLowering.Proofs.Lowering.Depthwise
import NetLowering.Proofs.Lowering.WindowCount
import NetLowering.Proofs.Lowering.Operations
import NetLowering.Proofs.Lowering.Integers
import NetLowering.Proofs.Lowering.Windows
import NetLowering.Proofs.Lowering.Grouping
import NetLowering.Proofs.Lowering.Channels
import NetLowering.Proofs.Lowering.GlobalPooling
import NetLowering.Proofs.Lowering.Ends
import NetLowering.Proofs.Lowering.Quantization
import NetLowering.Proofs.Session.Fresh
import NetLowering.Proofs.CommandLine.Zeros
import NetLowering.Proofs.Backend.Executions
import NetLowering.Proofs.PathName.Beside
import NetLowering.Proofs.FlatNet.Arguments
import NetLowering.Proofs.Net.Payload
import NetLowering.Proofs.Graph.Lines

import FrameGraph.Argument
import FrameGraph.Axes
import FrameGraph.Binding
import FrameGraph.Callback
import FrameGraph.Compile.Arguments
import FrameGraph.Compile.EntryJob
import FrameGraph.Compile.Error
import FrameGraph.Compile.Index
import FrameGraph.Compile.Leaves
import FrameGraph.Compile.Naming
import FrameGraph.Compile.Output
import FrameGraph.Compile.Program
import FrameGraph.Compile.State
import FrameGraph.Compile.Usage
import FrameGraph.Component
import FrameGraph.Demo.Basic
import FrameGraph.Demo.Report
import FrameGraph.Demo.Source
import FrameGraph.Device.Command
import FrameGraph.Device.Interface
import FrameGraph.Device.Object
import FrameGraph.Device.Recorder
import FrameGraph.Device.Stream
import FrameGraph.Effect
import FrameGraph.Files.Access
import FrameGraph.Files.Tree
import FrameGraph.Filter
import FrameGraph.Flatten
import FrameGraph.Graph
import FrameGraph.Grid.Plan
import FrameGraph.Grid.Scale
import FrameGraph.Layout.Host
import FrameGraph.Layout.ShaderType
import FrameGraph.Layout.Symbols
import FrameGraph.Log
import FrameGraph.Main
import FrameGraph.OffFrame.Coordinator
import FrameGraph.OffFrame.State
import FrameGraph.OffFrame.Worker
import FrameGraph.Pass.Basic
import FrameGraph.Pass.Bind
import FrameGraph.Pass.Dispatch
import FrameGraph.Pass.Draw
import FrameGraph.Pass.Transfer
import FrameGraph.Pass.Tree
import FrameGraph.Pool
import FrameGraph.Proofs.Addresses
import FrameGraph.Proofs.Allocation
import FrameGraph.Proofs.Compile.AlignedLeaves
import FrameGraph.Proofs.Compile.Alignment
import FrameGraph.Proofs.Compile.Arguments
import FrameGraph.Proofs.Compile.Bindings
import FrameGraph.Proofs.Compile.Blocks
import FrameGraph.Proofs.Compile.Builtins
import FrameGraph.Proofs.Compile.Emitted
import FrameGraph.Proofs.Compile.EntryNames
import FrameGraph.Proofs.Compile.Growth
import FrameGraph.Proofs.Compile.Guard
import FrameGraph.Proofs.Compile.Indices
import FrameGraph.Proofs.Compile.Inversion
import FrameGraph.Proofs.Compile.Isolation
import FrameGraph.Proofs.Compile.Labels
import FrameGraph.Proofs.Compile.Leaves
import FrameGraph.Proofs.Compile.Lines
import FrameGraph.Proofs.Compile.Listing
import FrameGraph.Proofs.Compile.Matching
import FrameGraph.Proofs.Compile.Mirror
import FrameGraph.Proofs.Compile.Names
import FrameGraph.Proofs.Compile.Numbering
import FrameGraph.Proofs.Compile.Numbers
import FrameGraph.Proofs.Compile.Patches
import FrameGraph.Proofs.Compile.Program
import FrameGraph.Proofs.Compile.Queries
import FrameGraph.Proofs.Compile.Records
import FrameGraph.Proofs.Compile.Relabelling
import FrameGraph.Proofs.Compile.Sharing
import FrameGraph.Proofs.Compile.Spares
import FrameGraph.Proofs.Compile.Spelling
import FrameGraph.Proofs.Compile.Threads
import FrameGraph.Proofs.Compile.Usage
import FrameGraph.Proofs.Compile.Uses
import FrameGraph.Proofs.Compile.Variables
import FrameGraph.Proofs.Device
import FrameGraph.Proofs.Effect
import FrameGraph.Proofs.Flatten
import FrameGraph.Proofs.Generations
import FrameGraph.Proofs.Graph.Attempts
import FrameGraph.Proofs.Graph.Build
import FrameGraph.Proofs.Graph.Calls
import FrameGraph.Proofs.Graph.Coherence
import FrameGraph.Proofs.Graph.Commands
import FrameGraph.Proofs.Graph.Entries
import FrameGraph.Proofs.Graph.Formats
import FrameGraph.Proofs.Graph.Frames
import FrameGraph.Proofs.Graph.Freshness
import FrameGraph.Proofs.Graph.History
import FrameGraph.Proofs.Graph.Layouts
import FrameGraph.Proofs.Graph.Missing
import FrameGraph.Proofs.Graph.Runs
import FrameGraph.Proofs.Graph.Uploads
import FrameGraph.Proofs.Graph.Usages
import FrameGraph.Proofs.Graph.Walks
import FrameGraph.Proofs.Grid
import FrameGraph.Proofs.Layout.Declared
import FrameGraph.Proofs.Layout.Parts
import FrameGraph.Proofs.Layout.Placement
import FrameGraph.Proofs.Layout.Validation
import FrameGraph.Proofs.Lengths
import FrameGraph.Proofs.List
import FrameGraph.Proofs.Marks
import FrameGraph.Proofs.OffFrame.Batches
import FrameGraph.Proofs.OffFrame.Handshake
import FrameGraph.Proofs.OffFrame.History
import FrameGraph.Proofs.OffFrame.SingleFlight
import FrameGraph.Proofs.OffFrame.Threads
import FrameGraph.Proofs.OffFrame.Uninterrupted
import FrameGraph.Proofs.Outcome
import FrameGraph.Proofs.Pass.Accepting
import FrameGraph.Proofs.Pass.Becomes
import FrameGraph.Proofs.Pass.Binding
import FrameGraph.Proofs.Pass.Blocks
import FrameGraph.Proofs.Pass.Conduct
import FrameGraph.Proofs.Pass.Demands
import FrameGraph.Proofs.Pass.Denotation
import FrameGraph.Proofs.Pass.Entries
import FrameGraph.Proofs.Pass.Formats
import FrameGraph.Proofs.Pass.Handover
import FrameGraph.Proofs.Pass.Layouts
import FrameGraph.Proofs.Pass.Proceeding
import FrameGraph.Proofs.Pass.Reads
import FrameGraph.Proofs.Pass.Recording
import FrameGraph.Proofs.Pass.Setting
import FrameGraph.Proofs.Pass.Tracking
import FrameGraph.Proofs.Pass.Tree
import FrameGraph.Proofs.Pass.Upheld
import FrameGraph.Proofs.Pass.Uploads
import FrameGraph.Proofs.Pass.Usages
import FrameGraph.Proofs.Pass.Visits
import FrameGraph.Proofs.Pool
import FrameGraph.Proofs.Renewal
import FrameGraph.Proofs.Script
import FrameGraph.Proofs.Storage
import FrameGraph.Proofs.Symbols
import FrameGraph.Proofs.Text.Attribute
import FrameGraph.Proofs.Text.Balance
import FrameGraph.Proofs.Text.Blanks
import FrameGraph.Proofs.Text.Comments
import FrameGraph.Proofs.Text.Declarations
import FrameGraph.Proofs.Text.Finding
import FrameGraph.Proofs.Text.Headings
import FrameGraph.Proofs.Text.Joining
import FrameGraph.Proofs.Text.Mentions
import FrameGraph.Proofs.Text.Parameters
import FrameGraph.Proofs.Text.Partners
import FrameGraph.Proofs.Text.Reading
import FrameGraph.Proofs.Text.Refinding
import FrameGraph.Proofs.Text.Renaming
import FrameGraph.Proofs.Text.Slices
import FrameGraph.Proofs.Units
import FrameGraph.Resource.Extent
import FrameGraph.Resource.Format
import FrameGraph.Resource.Table
import FrameGraph.Resource.Usage
import FrameGraph.Session
import FrameGraph.Shared
import FrameGraph.Surface
import FrameGraph.Text.Blank
import FrameGraph.Text.Bracket
import FrameGraph.Text.EntryPoint
import FrameGraph.Text.Header
import FrameGraph.Text.Hex
import FrameGraph.Text.Identifier
import FrameGraph.Text.Invisible
import FrameGraph.Text.Patch
import FrameGraph.Text.Quoted
import FrameGraph.Text.Stage
import FrameGraph.Text.Token
import FrameGraph.Tool.CommandLine
import FrameGraph.Tool.LogFilter
import FrameGraph.Tool.Run
import FrameGraph.Tool.Search
import FrameGraph.Tool.Settings
import FrameGraph.WebGpu.Call
import FrameGraph.WebGpu.Device
import FrameGraph.WebGpu.Event
import FrameGraph.WebGpu.Flags
import FrameGraph.WebGpu.Trace
import FrameGraph.Yaml.BlockText
import FrameGraph.Yaml.Content
import FrameGraph.Yaml.Cursor
import FrameGraph.Yaml.Document
import FrameGraph.Yaml.Gap
import FrameGraph.Yaml.Node
import FrameGraph.Yaml.Plain
import FrameGraph.Yaml.Quoted
import FrameGraph.Yaml.Tag
import FrameGraph.Yaml.Token
import FrameGraph.Yaml.TokenRow
import FrameGraph.Yaml.Tokenize

import Terrain.Command.Basic
import Terrain.Command.Files
import Terrain.Command.MapFile
import Terrain.Command.Outcome
import Terrain.Command.Perform
import Terrain.Decimal.Layout
import Terrain.Decimal.Literal
import Terrain.Decimal.Shortest
import Terrain.Dictionary
import Terrain.Failure
import Terrain.Heap.Arrays
import Terrain.Heap.Basic
import Terrain.Heap.Key
import Terrain.Heap.ScriptArray
import Terrain.Heap.Value
import Terrain.Height
import Terrain.Json.Basic
import Terrain.Json.Document
import Terrain.Json.Parser
import Terrain.Json.Reader
import Terrain.Json.Token
import Terrain.Limits
import Terrain.Line.Blur
import Terrain.Line.Distance
import Terrain.Line.Grid
import Terrain.Line.Spline
import Terrain.Machine.Bindings
import Terrain.Machine.Control
import Terrain.Machine.Execute
import Terrain.Machine.Recording
import Terrain.Machine.Slots
import Terrain.Machine.Stacks
import Terrain.Machine.State
import Terrain.Machine.Step
import Terrain.Machine.Variables
import Terrain.Main
import Terrain.Native.Arguments
import Terrain.Native.Arrays
import Terrain.Native.Dispatch
import Terrain.Native.Maps
import Terrain.Native.Math
import Terrain.Native.Noise
import Terrain.Native.Operators
import Terrain.Native.Profiles
import Terrain.Native.Types
import Terrain.Number.Binary
import Terrain.Number.Order
import Terrain.Number.Remainder
import Terrain.Number.Rounding
import Terrain.Plan.Bounds
import Terrain.Plan.Budget
import Terrain.Plan.Demand
import Terrain.Plan.Extents
import Terrain.Plan.Lifetimes
import Terrain.Plan.Producers
import Terrain.Plan.Schedule
import Terrain.Plan.Sequence
import Terrain.Plan.Step
import Terrain.Plane.Interval
import Terrain.Plane.Matrix
import Terrain.Plane.Point
import Terrain.Plane.Rectangle
import Terrain.Random.Sequence
import Terrain.Random.Xxh3
import Terrain.Raster.Basic
import Terrain.Raster.Kind
import Terrain.Raster.Map
import Terrain.Raster.Map.Drawing
import Terrain.Raster.Map.Filter
import Terrain.Raster.Map.Noise
import Terrain.Raster.Map.Placement
import Terrain.Raster.Map.Pointwise
import Terrain.Raster.NoiseLayers
import Terrain.Raster.Profile
import Terrain.Raster.Profile.Noise
import Terrain.Raster.Profile.Placement
import Terrain.Raster.Profile.Pointwise
import Terrain.Render.Execute
import Terrain.Render.Gallery
import Terrain.Render.Renderer
import Terrain.Render.Table
import Terrain.Script.Basic
import Terrain.Script.Declarations
import Terrain.Script.Dump
import Terrain.Script.Format
import Terrain.Script.Instruction
import Terrain.Script.Parameters
import Terrain.Status
import Terrain.Text.Blank
import Terrain.Text.Printable
import Terrain.Text.Quoted
import Terrain.Text.Replace
import Terrain.Proofs.Breaches
import Terrain.Proofs.Control.Agreement
import Terrain.Proofs.Control.Evaluation
import Terrain.Proofs.Control.Frames
import Terrain.Proofs.Control.Programs
import Terrain.Proofs.Control.Ticks
import Terrain.Proofs.Control.Transfers
import Terrain.Proofs.Heap.Arrays
import Terrain.Proofs.Heap.Counts
import Terrain.Proofs.Heap.Keys
import Terrain.Proofs.Machine.Holdings
import Terrain.Proofs.Machine.Recording
import Terrain.Proofs.Machine.References
import Terrain.Proofs.Machine.Run
import Terrain.Proofs.Machine.Scopes
import Terrain.Proofs.Native.Arguments
import Terrain.Proofs.Native.Functions
import Terrain.Proofs.Number.Whole
import Terrain.Proofs.Outcome
import Terrain.Proofs.Plan.Kinds
import Terrain.Proofs.Plan.Lifetimes
import Terrain.Proofs.Plan.Producers
import Terrain.Proofs.Plan.WellFormed
import Terrain.Proofs.Plane.Regions
import Terrain.Proofs.Raster.Breaches
import Terrain.Proofs.Render.Recorded
import Terrain.Proofs.Render.Safety
import Terrain.Proofs.Render.Slots
import Terrain.Proofs.Line.Blur
import Terrain.Proofs.Plan.Coverage
import Terrain.Proofs.Raster.Blur
import Terrain.Proofs.Control.Callers
import Terrain.Proofs.Control.Activations
import Terrain.Proofs.Control.Isolation
import Terrain.Proofs.Control.Designation
import Terrain.Proofs.Machine.Disposal
import Terrain.Proofs.Native.Refusals
import Terrain.Proofs.Native.Heights
import Terrain.Proofs.Plan.Budget
import Terrain.Proofs.Raster.Reliefs
import Terrain.Proofs.Render.Limits
import Terrain.Proofs.Render.Memory
import Terrain.Proofs.Render.Pictures
import Terrain.Proofs.Render.Progress
import Terrain.Proofs.Render.Views
import Terrain.Proofs.Render.Windows
import Terrain.Proofs.Plane.Hulls
import Terrain.Proofs.Raster.Alignment
import Terrain.Proofs.Plan.Demands
import Terrain.Proofs.Render.Releases
import Terrain.Proofs.Heap.OrderedMap
import Terrain.Proofs.Heap.Updates
import Terrain.Proofs.Heap.Histories
import Terrain.Proofs.Heap.Reorderings
import Terrain.Proofs.Heap.Appending
import Terrain.Proofs.Native.Appending
import Terrain.Proofs.Native.Comparisons
import Terrain.Proofs.Number.Errors
import Terrain.Proofs.Plan.Rescaling
import Terrain.Proofs.Raster.Smoothing
import Terrain.Proofs.Heap.Cascade
import Terrain.Proofs.Machine.SlotTable
import Terrain.Proofs.Render.Idle
import Terrain.Proofs.Line.Envelope
import Terrain.Proofs.Line.Buffers
import Terrain.Proofs.Raster.Distances
import Terrain.Proofs.Script.Clipping
import Terrain.Proofs.Text.Replacement
import Terrain.Proofs.Native.Printing
import Terrain.Proofs.Number.Sums
import Terrain.Proofs.Raster.Lines
import Terrain.Proofs.Plane.Overlaps
import Terrain.Proofs.Raster.Redrawing
import Terrain.Proofs.Raster.Octaves
import Terrain.Proofs.Raster.Sections
import Terrain.Proofs.Raster.Pairings
import Terrain.Proofs.Raster.Blends
import Terrain.Proofs.Plan.Copies
import Terrain.Proofs.Number.Conversions
import Terrain.Proofs.Native.Draws
import Terrain.Proofs.Plan.Figures
import Terrain.Proofs.Render.Requirements
import Terrain.Proofs.Machine.Occupancy
import Terrain.Proofs.Control.Unwinding
import Terrain.Proofs.Machine.Lapses
import Terrain.Proofs.Control.Progress
import Terrain.Proofs.Plane.Laws
import Terrain.Proofs.Heap.Identity

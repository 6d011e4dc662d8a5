import BlockPainting.Bitmap.Fault
import BlockPainting.Bitmap.Header
import BlockPainting.Bitmap.Runs
import BlockPainting.Block
import BlockPainting.BlockId
import BlockPainting.Board
import BlockPainting.Color
import BlockPainting.ColorEstimate
import BlockPainting.CommandLine.Arguments
import BlockPainting.CommandLine.Help
import BlockPainting.CommandLine.Memory
import BlockPainting.CommandLine.Name
import BlockPainting.CommandLine.Path
import BlockPainting.CommandLine.Run
import BlockPainting.Document.Instruction
import BlockPainting.Document.Pricing
import BlockPainting.Document.Report
import BlockPainting.Document.Request
import BlockPainting.GeometricMedian
import BlockPainting.Instruction
import BlockPainting.Json.Decode
import BlockPainting.Json.Printer
import BlockPainting.Json.Reader
import BlockPainting.Json.Value
import BlockPainting.Layout.Basic
import BlockPainting.Layout.Merging
import BlockPainting.Layout.Shuffling
import BlockPainting.Listing
import BlockPainting.Main
import BlockPainting.Number.Decimal
import BlockPainting.Number.ExactDouble
import BlockPainting.PictureFile.Reader
import BlockPainting.PictureFile.Writer
import BlockPainting.PictureFormat
import BlockPainting.Pricing
import BlockPainting.Proofs.Board.Commuting
import BlockPainting.Proofs.Board.Count
import BlockPainting.Proofs.Board.Footprints
import BlockPainting.Proofs.Board.History
import BlockPainting.Proofs.Board.InPlace
import BlockPainting.Proofs.Board.Mirror
import BlockPainting.Proofs.Board.Outlines
import BlockPainting.Proofs.Board.Reached
import BlockPainting.Proofs.Board.Splice
import BlockPainting.Proofs.Board.Start
import BlockPainting.Proofs.Board.Step
import BlockPainting.Proofs.Board.Tiled
import BlockPainting.Proofs.Board.Works
import BlockPainting.Proofs.Layout.Accepted
import BlockPainting.Proofs.Layout.Columns
import BlockPainting.Proofs.Layout.Exchanging
import BlockPainting.Proofs.Layout.Joining
import BlockPainting.Proofs.Layout.Merges
import BlockPainting.Proofs.Layout.Settling
import BlockPainting.Proofs.Layout.Tiling
import BlockPainting.Proofs.Listing.Acceptance
import BlockPainting.Proofs.Listing.Names
import BlockPainting.Proofs.Listing.RoundTrip
import BlockPainting.Proofs.Number.Counts
import BlockPainting.Proofs.Number.Dyadic
import BlockPainting.Proofs.Number.Order
import BlockPainting.Proofs.Number.Quotient
import BlockPainting.Proofs.Number.Rounding
import BlockPainting.Proofs.Number.Sum
import BlockPainting.Proofs.Program.Renumbering
import BlockPainting.Proofs.Quadtree.Covering
import BlockPainting.Proofs.Quadtree.Division
import BlockPainting.Proofs.Raster.Distances
import BlockPainting.Proofs.Raster.Histogram
import BlockPainting.Proofs.Raster.Regions
import BlockPainting.Proofs.Raster.Strokes
import BlockPainting.Proofs.Raster.Turning
import BlockPainting.Proofs.Rect.Cuts
import BlockPainting.Proofs.Rect.Fusing
import BlockPainting.Proofs.Rect.Halves
import BlockPainting.Proofs.Rect.Pixels
import BlockPainting.Proofs.Rect.Predicates
import BlockPainting.Proofs.Refinement.Descent
import BlockPainting.Proofs.Refinement.Nudges
import BlockPainting.Proofs.Search.Accounts
import BlockPainting.Proofs.Search.Afresh
import BlockPainting.Proofs.Search.Bands
import BlockPainting.Proofs.Search.BestBands
import BlockPainting.Proofs.Search.Cells
import BlockPainting.Proofs.Search.Execution
import BlockPainting.Proofs.Search.Floors
import BlockPainting.Proofs.Search.Interior
import BlockPainting.Proofs.Search.Journal
import BlockPainting.Proofs.Search.Levels
import BlockPainting.Proofs.Search.Loop
import BlockPainting.Proofs.Search.Moments
import BlockPainting.Proofs.Search.Order
import BlockPainting.Proofs.Search.Passes
import BlockPainting.Proofs.Search.Penalties
import BlockPainting.Proofs.Search.Places
import BlockPainting.Proofs.Search.Plans
import BlockPainting.Proofs.Search.Retrace
import BlockPainting.Proofs.Search.Sessions
import BlockPainting.Proofs.Search.Strips
import BlockPainting.Proofs.Search.Uncached
import BlockPainting.Proofs.Solve.Candidates
import BlockPainting.Proofs.Solve.Contest
import BlockPainting.Proofs.Solve.Programs
import BlockPainting.Proofs.Solve.Rivals
import BlockPainting.Proofs.Solve.Total
import BlockPainting.Proofs.Solve.Winner
import BlockPainting.Proofs.Success
import BlockPainting.Raster
import BlockPainting.Recipe
import BlockPainting.Rect
import BlockPainting.Refinement
import BlockPainting.Report
import BlockPainting.Search.GridWalk
import BlockPainting.Search.Stripes
import BlockPainting.Search.Subdivision
import BlockPainting.Settings
import BlockPainting.Solve
import BlockPainting.SolveError
import BlockPainting.Text.Quoted
import BlockPainting.Text.Reading

import Montage.Catalogue
import Montage.Compile.Compilation
import Montage.Compile.Composite
import Montage.Compile.CutInputs
import Montage.Compile.Draft
import Montage.Compile.Segment
import Montage.Defect
import Montage.Document.Arithmetic
import Montage.Document.Reader
import Montage.Document.Spelling
import Montage.Document.Token
import Montage.Document.Value
import Montage.Document.Writer
import Montage.EditError
import Montage.Edl.Cut
import Montage.Edl.FrameSize
import Montage.Edl.Project
import Montage.Effect
import Montage.Effect.Registry
import Montage.Encoder.Command
import Montage.Encoder.Progress
import Montage.Encoder.Run
import Montage.Encoder.Settings
import Montage.Failure
import Montage.FileTree
import Montage.Filtergraph.Graph
import Montage.Filtergraph.Op
import Montage.Filtergraph.Stream
import Montage.Log
import Montage.Main
import Montage.Numeric.Binary64
import Montage.Numeric.FixedPlaces
import Montage.Numeric.Number
import Montage.Numeric.Rounding
import Montage.Numeric.Shortest
import Montage.Path
import Montage.Proofs.Assembly
import Montage.Proofs.Drafting
import Montage.Proofs.Labels
import Montage.Proofs.Resolution
import Montage.Render
import Montage.Script
import Montage.Session
import Montage.Session.Options
import Montage.Session.ProgressLine
import Montage.Session.Question
import Montage.SessionError
import Montage.Settings
import Montage.Settings.Layer
import Montage.Settings.Lenient
import Montage.Settings.VariableFile
import Montage.Settings.VariableRules
import Montage.StoreError
import Montage.Text.Blank
import Montage.Text.Digit
import Montage.Text.Numeral
import Montage.Text.Printable
import Montage.Text.Quoted
import Montage.Text.Surrogate
import Montage.Timecode
import Montage.Timeline
import Montage.Transition
import Montage.Proofs.Wiring
import Montage.Proofs.WellFormed
import Montage.Proofs.SegmentOps
import Montage.Proofs.TrackAlignment
import Montage.Proofs.LengthChecks
import Montage.Proofs.StreamLength
import Montage.Proofs.Synchrony
import Montage.Proofs.RealBounds
import Montage.Proofs.TotalLength
import Montage.Proofs.ProgressPieces
import Montage.Proofs.SavedProject
import Montage.Proofs.Reporting
import Montage.Proofs.CommandLayout
import Montage.Proofs.BuildOutcome
import Montage.Proofs.CrossfadeWarning
import Montage.Proofs.EndlessMarks
import Montage.Proofs.ResolutionOrder
import Montage.Proofs.RunEndings
import Montage.Proofs.Topology
import Montage.Proofs.NodeOrigins
import Montage.Proofs.LocalEdits
import Montage.Proofs.OpOrigins
import Montage.Proofs.DecimalText
import Montage.Proofs.FilterReader
import Montage.Proofs.FilterText
import Montage.Proofs.PrintedFades
import Montage.Proofs.MeasuredProgress
import Montage.Proofs.RenderCourse
import Montage.Proofs.SessionCourse
import Montage.Proofs.SessionOutcome
import Montage.Proofs.WrittenFiles
import Montage.Proofs.Rebuilding
import Montage.Proofs.Saving
import Montage.Proofs.CopyPlaces
import Montage.Proofs.SavedCopy
import Montage.Proofs.TimecodeGrammar
import Montage.Proofs.JoinOffsets
import Montage.Proofs.EdgeFades
import Montage.Proofs.TimeLimit
import Montage.Proofs.PrintedTimes
import Montage.Proofs.NearestNumbers
import Montage.Proofs.TimecodeMarks
import Montage.Proofs.ProgressShares
import Montage.Proofs.FrameSizes
import Montage.Proofs.Answers
import Montage.Proofs.PrintedNumbers

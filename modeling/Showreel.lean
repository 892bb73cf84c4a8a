import Showreel.Main
import Showreel.Number.Exact
import Showreel.Proofs.Callout.Fading
import Showreel.Proofs.Configuration
import Showreel.Proofs.Console
import Showreel.Proofs.Number.Comparison
import Showreel.Proofs.Number.Decimal
import Showreel.Proofs.Number.Ordered
import Showreel.Proofs.Number.Quotients
import Showreel.Proofs.Number.Rounding
import Showreel.Proofs.Number.Sums
import Showreel.Proofs.Paste.Effect
import Showreel.Proofs.Paste.Evolution
import Showreel.Proofs.Paste.Firing
import Showreel.Proofs.Pattern.Denotation
import Showreel.Proofs.Pattern.Encoding
import Showreel.Proofs.Pattern.Prefixes
import Showreel.Proofs.Pattern.Roundtrip
import Showreel.Proofs.Pattern.RunLength
import Showreel.Proofs.Pattern.Symmetry
import Showreel.Proofs.Plane.Life
import Showreel.Proofs.Playback.Boundaries
import Showreel.Proofs.Playback.Diary
import Showreel.Proofs.Playback.Drifting
import Showreel.Proofs.Playback.Generations
import Showreel.Proofs.Playback.Halting
import Showreel.Proofs.Playback.Jobs
import Showreel.Proofs.Playback.Journeys
import Showreel.Proofs.Playback.Pace
import Showreel.Proofs.Playback.Pacing
import Showreel.Proofs.Playback.Player
import Showreel.Proofs.Playback.Regimes
import Showreel.Proofs.Playback.Replay
import Showreel.Proofs.Playback.Requests
import Showreel.Proofs.Playback.Rest
import Showreel.Proofs.Playback.RestingCamera
import Showreel.Proofs.Playback.RestingWorld
import Showreel.Proofs.Playback.Returns
import Showreel.Proofs.Playback.Twins
import Showreel.Proofs.Playback.Work
import Showreel.Proofs.Script.Blocks
import Showreel.Proofs.Script.ChainLimits
import Showreel.Proofs.Script.Colours
import Showreel.Proofs.Script.Copies
import Showreel.Proofs.Script.CustomTheme
import Showreel.Proofs.Script.Ending
import Showreel.Proofs.Script.Fragments
import Showreel.Proofs.Script.Growth
import Showreel.Proofs.Script.InRange
import Showreel.Proofs.Script.Inline
import Showreel.Proofs.Script.LabelText
import Showreel.Proofs.Script.Layout
import Showreel.Proofs.Script.NamedPastes
import Showreel.Proofs.Script.Numerals
import Showreel.Proofs.Script.Paces
import Showreel.Proofs.Script.PasteTrains
import Showreel.Proofs.Script.Quotation
import Showreel.Proofs.Script.RangedDrafts
import Showreel.Proofs.Script.Ranges
import Showreel.Proofs.Script.Resumption
import Showreel.Proofs.Script.Scenes
import Showreel.Proofs.Script.Shape
import Showreel.Proofs.Script.Staging
import Showreel.Proofs.Script.Strays
import Showreel.Proofs.Script.Styles
import Showreel.Proofs.Script.Suppression
import Showreel.Proofs.Script.Termination
import Showreel.Proofs.Script.Tokens
import Showreel.Proofs.Script.Train
import Showreel.Proofs.Script.Triggers
import Showreel.Proofs.Text.Visible
import Showreel.Proofs.Waypoint.Blending
import Showreel.Proofs.Waypoint.ClosedForm
import Showreel.Proofs.Waypoint.Onward
import Showreel.Proofs.Waypoint.Turning
import Showreel.Proofs.Waypoint.WalkEnd
import Showreel.Proofs.Waypoint.WalkOrder
import Showreel.Proofs.World.Census
import Showreel.Proofs.World.Edges
import Showreel.Proofs.World.Extent
import Showreel.Proofs.World.Living
import Showreel.Proofs.World.Picture
import Showreel.Proofs.World.Region
import Showreel.Proofs.World.Reports
import Showreel.Proofs.World.Rule
import Showreel.Waypoint.Query

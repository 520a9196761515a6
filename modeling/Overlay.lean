import Overlay.CommandLine.Run
import Overlay.Main
import Overlay.Monitor.Panel
import Overlay.Proofs.Preview.Previews
import Overlay.Proofs.Script.Parts
import Overlay.Proofs.Preview.Shifts
import Overlay.Proofs.Preview.Visibility
import Overlay.Proofs.Preview.Branches
import Overlay.Proofs.CommandLine.Runs
import Overlay.Proofs.Project.Deletion
import Overlay.Proofs.Project.LoadedLengths
import Overlay.Proofs.Project.Validation
import Overlay.Proofs.Timeline.Outcomes
import Overlay.Proofs.Timeline.Extent
import Overlay.Proofs.Timeline.Effects
import Overlay.Proofs.Timeline.Ownership
import Overlay.Proofs.Timeline.Refusals
import Overlay.Proofs.Playback.Resets
import Overlay.Proofs.Playback.Reloads
import Overlay.Proofs.Playback.Elapsed
import Overlay.Proofs.Resource.Histories
import Overlay.Proofs.Timeline.Removals
import Overlay.Proofs.Timeline.Selection
import Overlay.Proofs.Timeline.SelectedAnimation
import Overlay.Proofs.Monitor.Recompiling
import Overlay.Proofs.Script.Layout
import Overlay.Proofs.Script.Concatenation
import Overlay.Proofs.Script.Lengths
import Overlay.Proofs.Number.Growth
import Overlay.Proofs.Preview.Chains
import Overlay.Proofs.Script.PropertyMaps
import Overlay.Proofs.Script.ValueTexts
import Overlay.Proofs.Timeline.Placement
import Overlay.Proofs.Timeline.Reordering
import Overlay.Proofs.Script.Sources
import Overlay.Proofs.Timeline.Timecodes
import Overlay.Proofs.Preview.Additions
import Overlay.Proofs.Preview.EntryIds
import Overlay.Proofs.Project.TrackIds
import Overlay.Proofs.Script.Padding
import Overlay.Proofs.Monitor.Strings
import Overlay.Proofs.Script.QuotedTexts

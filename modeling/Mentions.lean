import Mentions.Json.Forms
import Mentions.Json.Writer
import Mentions.Number.Shortest
import Mentions.Overlay.Ruler
import Mentions.Scan.Reader
import Mentions.Version
import Mentions.Widget
import Mentions.Proofs.Atomic.Arrows
import Mentions.Proofs.Atomic.Home
import Mentions.Proofs.Atomic.Space
import Mentions.Proofs.Above
import Mentions.Proofs.Growth.Moved
import Mentions.Proofs.Overlay.Caret
import Mentions.Proofs.Growth.Shape
import Mentions.Proofs.Growth.Repeat
import Mentions.Proofs.Scan.Display
import Mentions.Proofs.Scan.Nearest
import Mentions.Proofs.Selection
import Mentions.Proofs.Overlay.Join
import Mentions.Proofs.Overlay.Walk
import Mentions.Proofs.Overlay.Line
import Mentions.Proofs.Checked.Offsets
import Mentions.Proofs.Checked.Scan
import Mentions.Proofs.Checked.Boundaries
import Mentions.Proofs.Checked.Editing
import Mentions.Proofs.Checked.Repair
import Mentions.Proofs.Checked.Overlay
import Mentions.Proofs.Checked.Operations
import Mentions.Proofs.Overlay.Invisible
import Mentions.Proofs.Checked.Reader
import Mentions.Proofs.Growth.Limit
import Mentions.Proofs.Text.Splice
import Mentions.Proofs.Body.Length
import Mentions.Proofs.Json.Forms
import Mentions.Proofs.Text.Index
import Mentions.Proofs.Word.Segmentation

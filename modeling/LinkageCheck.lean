import LinkageCheck.Main
import LinkageCheck.Proofs.Alike
import LinkageCheck.Proofs.Corpus.Recorded
import LinkageCheck.Proofs.Corpus.Serving
import LinkageCheck.Proofs.Cursor
import LinkageCheck.Proofs.Diagram.Drawing
import LinkageCheck.Proofs.Diagram.Layout
import LinkageCheck.Proofs.Place
import LinkageCheck.Proofs.Pulls
import LinkageCheck.Proofs.Record.Blocks
import LinkageCheck.Proofs.Record.Closing
import LinkageCheck.Proofs.Record.Recordable
import LinkageCheck.Proofs.Record.Reference
import LinkageCheck.Proofs.Record.Refinement
import LinkageCheck.Proofs.Record.Writing
import LinkageCheck.Proofs.Run.Acceptance
import LinkageCheck.Proofs.Run.Accounting
import LinkageCheck.Proofs.Run.Concatenation
import LinkageCheck.Proofs.Run.Counting
import LinkageCheck.Proofs.Run.Grammar
import LinkageCheck.Proofs.Run.Mirrored
import LinkageCheck.Proofs.Run.NoLinkage
import LinkageCheck.Proofs.Run.Outline
import LinkageCheck.Proofs.Run.Pending
import LinkageCheck.Proofs.Run.Recording
import LinkageCheck.Proofs.Run.Requests
import LinkageCheck.Proofs.Run.Stopping
import LinkageCheck.Proofs.Run.Ties
import LinkageCheck.Proofs.Search
import LinkageCheck.Proofs.Suite
import LinkageCheck.Proofs.Tally
import LinkageCheck.Proofs.Text.Lines
import LinkageCheck.Proofs.Text.Utf8
import LinkageCheck.Proofs.Decimal.Binary64
import LinkageCheck.Proofs.EqualCost.Sorting
import LinkageCheck.Proofs.EqualCost.Lookahead
import LinkageCheck.Proofs.Diagram.Rows
import LinkageCheck.Proofs.Diagram.Widening
import LinkageCheck.Proofs.Diagram.Picture
import LinkageCheck.Proofs.Diagram.Planar
import LinkageCheck.Proofs.Diagram.Checked
import LinkageCheck.Proofs.Diagram.Reordering
import LinkageCheck.Proofs.Corpus.Soundness
import LinkageCheck.Proofs.Alignment.Pieces
import LinkageCheck.Proofs.Alignment.Placing
import LinkageCheck.Proofs.Alignment.Boundaries
import LinkageCheck.Proofs.Record.Accumulation
import LinkageCheck.Proofs.Text.Decoding
import LinkageCheck.Proofs.Record.Scanning
import LinkageCheck.Proofs.Directive.Reading
import LinkageCheck.Proofs.Directive.Writing
import LinkageCheck.Proofs.Directive.Applying
import LinkageCheck.Proofs.Linkage.Positions
import LinkageCheck.Proofs.Files.Discovery
import LinkageCheck.Proofs.Files.Naming
import LinkageCheck.Proofs.Files.Components
import LinkageCheck.Proofs.Covering
import LinkageCheck.Proofs.Text.LineDiff
import LinkageCheck.Proofs.Run.FailureText

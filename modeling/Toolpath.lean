import Toolpath.Command.Directory
import Toolpath.Main
import Toolpath.Proofs.Clipping.Region
import Toolpath.Proofs.Attempt
import Toolpath.Proofs.Document.Fresh
import Toolpath.Proofs.Document.Tree
import Toolpath.Proofs.Document.Unclosed
import Toolpath.Proofs.Pattern.Numerals
import Toolpath.Proofs.Pattern.RoundTrip
import Toolpath.Proofs.Double.Nearest
import Toolpath.Proofs.Double.Rounding
import Toolpath.Proofs.Double.Operations
import Toolpath.Proofs.Double.Packing
import Toolpath.Proofs.Double.Arithmetic
import Toolpath.Proofs.Double.Whole
import Toolpath.Proofs.Double.Numeral
import Toolpath.Proofs.Clipping.Interpolation
import Toolpath.Proofs.Clipping.Points
import Toolpath.Proofs.Clipping.Drift
import Toolpath.Proofs.Pattern.Targets
import Toolpath.Proofs.Conversion.OnPage
import Toolpath.Proofs.Path.InStep
import Toolpath.Proofs.Path.Script
import Toolpath.Proofs.Decimal.Plain
import Toolpath.Proofs.Markup.Written
import Toolpath.Proofs.Pattern.Written
import Toolpath.Proofs.Conversion.Emission
import Toolpath.Proofs.Pattern.Preview
import Toolpath.Proofs.Conversion.RoundTrip
import Toolpath.Proofs.Decimal.Shortest
import Toolpath.Proofs.Double.Extremes
import Toolpath.Proofs.Pattern.Accepted
import Toolpath.Proofs.Pattern.WithinPage
import Toolpath.Proofs.Path.UserSpace
import Toolpath.Proofs.Transform.Joined
import Toolpath.Proofs.Transform.Maps
import Toolpath.Proofs.Transform.Arguments
import Toolpath.Proofs.Document.Chain
import Toolpath.Proofs.Clipping.Runs
import Toolpath.Proofs.Clipping.Twice
import Toolpath.Proofs.Path.Finer
import Toolpath.Proofs.Markup.Items
import Toolpath.Proofs.Markup.Escaped
import Toolpath.Proofs.Markup.Attributes
import Toolpath.Proofs.Markup.Places
import Toolpath.Proofs.Conversion.Skipped
import Toolpath.Proofs.Curve.Mapped
import Toolpath.Proofs.Curve.Times
import Toolpath.Proofs.Curve.Length
import Toolpath.Proofs.Decimal.Longest
import Toolpath.Proofs.Path.BeforeFault
import Toolpath.Proofs.Decimal.Grammar
import Toolpath.Proofs.Path.Numbers
import Toolpath.Proofs.Path.History
import Toolpath.Proofs.Path.Barrier
import Toolpath.Proofs.Pattern.Lines
import Toolpath.Proofs.Pattern.Listing
import Toolpath.Proofs.Path.Octets
import Toolpath.Proofs.Transform.ViewBox
import Toolpath.Proofs.Pattern.Unambiguous
import Toolpath.Proofs.Pattern.Requantized
import Toolpath.Proofs.Drawing
import Toolpath.Proofs.Pattern.Rounding
import Toolpath.Proofs.Command.Flags
import Toolpath.Proofs.Command.Failure
import Toolpath.Proofs.Command.Flags
import Toolpath.Proofs.Command.Failure

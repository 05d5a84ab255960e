import Retrace.Main
import Retrace.Proofs.Match.Reversal
import Retrace.Proofs.Match.Run
import Retrace.Proofs.Match.Shape
import Retrace.Proofs.Match.Stack
import Retrace.Proofs.Match.Untagged
import Retrace.Proofs.Regex.Acceptance
import Retrace.Proofs.Regex.Alternation
import Retrace.Proofs.Regex.Enclosing
import Retrace.Proofs.Regex.Flags
import Retrace.Proofs.Regex.Greed
import Retrace.Proofs.Regex.Groups
import Retrace.Proofs.Regex.InContext
import Retrace.Proofs.Regex.Reported
import Retrace.Proofs.Syntax.Assembly
import Retrace.Proofs.Syntax.LiteralBrace
import Retrace.Proofs.Syntax.Numerals
import Retrace.Proofs.Syntax.Outlines
import Retrace.Proofs.Syntax.Progress
import Retrace.Regex.Log
import Retrace.Session

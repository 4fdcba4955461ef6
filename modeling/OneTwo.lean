import OneTwo.Command.World
import OneTwo.Machine.Calls
import OneTwo.Main
import OneTwo.Proofs.Expr.Agreement
import OneTwo.Proofs.Expr.Fraction
import OneTwo.Proofs.Frame.Deviation
import OneTwo.Proofs.Frame.Mended
import OneTwo.Proofs.Frame.Strict
import OneTwo.Proofs.Slot.Wire
import OneTwo.Proofs.Slot.Lossy
import OneTwo.Proofs.Frame.RoundTrip
import OneTwo.Proofs.Frame.Bytes
import OneTwo.Proofs.Frame.Resilient
import OneTwo.Proofs.Machine.Compiled
import OneTwo.Proofs.Machine.Rebuild
import OneTwo.Proofs.Machine.Balance
import OneTwo.Proofs.Machine.Accepted
import OneTwo.Proofs.Machine.Calls
import OneTwo.Proofs.Machine.Linear
import OneTwo.Proofs.Frame.Legacy
import OneTwo.Proofs.Frame.Subtree
import OneTwo.Proofs.Frame.Dependence
import OneTwo.Proofs.Frame.Mutation
import OneTwo.Proofs.Frame.Survey
import OneTwo.Proofs.Frame.Usable
import OneTwo.Proofs.Frame.Appended
import OneTwo.Proofs.Frame.Carried
import OneTwo.Proofs.Frame.Truncated
import OneTwo.Proofs.Frame.Unremarked
import OneTwo.Proofs.Frame.Visits
import OneTwo.Proofs.Frame.Placed
import OneTwo.Proofs.Command.Divergence
import OneTwo.Proofs.Command.Frames
import OneTwo.Proofs.Command.Programs
import OneTwo.Proofs.Program.Bytes
import OneTwo.Proofs.Command.Ending
import OneTwo.Proofs.Command.ExitCode
import OneTwo.Proofs.Command.Files
import OneTwo.Proofs.Command.Roles
import OneTwo.Proofs.Command.Verbosity
import OneTwo.Proofs.Frame.Saturation
import OneTwo.Proofs.Frame.Forward
import OneTwo.Proofs.Frame.Preorder
import OneTwo.Proofs.Frame.SquareProducts
import OneTwo.Proofs.Machine.Height
import OneTwo.Proofs.Machine.Block
import OneTwo.Proofs.Expr.Remarks
import OneTwo.Proofs.Expr.Drawn
import OneTwo.Proofs.Expr.Text
import OneTwo.Proofs.Command.Shown
import OneTwo.Proofs.Text.Linear

import FairyMoves.AtomTable
import FairyMoves.Main
import FairyMoves.Spelling.Canonical
import FairyMoves.Proofs.Grammar
import FairyMoves.Proofs.Mirror
import FairyMoves.Proofs.Run
import FairyMoves.Proofs.Landing
import FairyMoves.Proofs.Within
import FairyMoves.Proofs.Alike
import FairyMoves.Proofs.Reverse
import FairyMoves.Proofs.Ends
import FairyMoves.Proofs.Append
import FairyMoves.Proofs.Placements
import FairyMoves.Proofs.GridText
import FairyMoves.Proofs.Drawing
import FairyMoves.Proofs.Compiled
import FairyMoves.Proofs.Rays
import FairyMoves.Proofs.Walks
import FairyMoves.Proofs.Hurdles
import FairyMoves.Proofs.Listing
import FairyMoves.Proofs.Segments
import FairyMoves.Proofs.Distinct
import FairyMoves.Proofs.Unseen
import FairyMoves.Proofs.OneStep
import FairyMoves.Proofs.Riders
import FairyMoves.Proofs.Stepping
import FairyMoves.Proofs.SharedRays
import FairyMoves.Proofs.Limits
import FairyMoves.Proofs.GridFaults
import FairyMoves.Proofs.Turned
import FairyMoves.Proofs.Respelled

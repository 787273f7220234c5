import FortranSemantics.Main
import FortranSemantics.Proofs.Acceptance
import FortranSemantics.Proofs.Bindings
import FortranSemantics.Proofs.Agreement.Unit
import FortranSemantics.Proofs.Arena.Path
import FortranSemantics.Proofs.Image.FixedPoint
import FortranSemantics.Proofs.Intrinsic.Location
import FortranSemantics.Proofs.Intrinsic.Merge
import FortranSemantics.Proofs.Intrinsic.ReductionProcedure
import FortranSemantics.Proofs.Loading
import FortranSemantics.Proofs.LoweringComplete
import FortranSemantics.Proofs.Search
import FortranSemantics.Proofs.Selection
import FortranSemantics.Proofs.TextOrder

import Rowset.Form
import Rowset.Wire.Pool
import Rowset.Wire.Server
import Rowset.Proofs.Compilation
import Rowset.Proofs.Markers
import Rowset.Proofs.Withholding
import Rowset.Proofs.Grouping
import Rowset.Proofs.Numbering
import Rowset.Proofs.Positions
import Rowset.Proofs.Restriction
import Rowset.Proofs.Shapes
import Rowset.Proofs.Courses
import Rowset.Proofs.Independence
import Rowset.Proofs.Agreement
import Rowset.Proofs.Notation
import Rowset.Proofs.Naming
import Rowset.Proofs.Spelling
import Rowset.Proofs.Observation
import Rowset.Proofs.Strictness
import Rowset.Proofs.Folding
import Rowset.Proofs.Resolution
import Rowset.Proofs.Tabulation
import Rowset.Proofs.Distinctness
import Rowset.Proofs.Exactness
import Rowset.Proofs.Transport
import Rowset.Proofs.Rows
import Rowset.Proofs.Coverage
import Rowset.Proofs.Truncation
import Rowset.Proofs.Scanning
import Rowset.Proofs.Collapsing
import Rowset.Proofs.Emptiness

import SealedLedger.Proofs.Assembler.Account
import SealedLedger.Proofs.Chain.Tip
import SealedLedger.Proofs.Making
import SealedLedger.Proofs.Merkle.Binding
import SealedLedger.Proofs.Merkle.Tree
import SealedLedger.Proofs.Resolving
import SealedLedger.Proofs.Session
import SealedLedger.Proofs.Configuration
import SealedLedger.Proofs.Assembler.Reports
import SealedLedger.Proofs.Json.Delimited
import SealedLedger.Proofs.Written
import SealedLedger.Proofs.Chain.Growth
import SealedLedger.Proofs.Merkle.Doubling
import SealedLedger.Proofs.Block.Disguise
import SealedLedger.Proofs.Commitment
import SealedLedger.Proofs.Block.Resealing
import SealedLedger.Proofs.Merkle.Work
import SealedLedger.Proofs.Block.Drafting
import SealedLedger.Proofs.Lengths
import SealedLedger.Proofs.Json.Skipping
import SealedLedger.Proofs.Json.Reading
import SealedLedger.Proofs.Json.Refusing
import SealedLedger.Proofs.Json.Configuring
import SealedLedger.Proofs.Boundary.Hexadecimal
import SealedLedger.Proofs.Hash.Spelling
import SealedLedger.Proofs.Hash.Order
import SealedLedger.Proofs.Naming
import SealedLedger.Proofs.Concatenation
import SealedLedger.Proofs.Building

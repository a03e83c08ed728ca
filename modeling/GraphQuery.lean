import GraphQuery.Builder.Script
import GraphQuery.Client.Execution
import GraphQuery.Proofs.Arguments
import GraphQuery.Proofs.Blobs
import GraphQuery.Proofs.BlockNames
import GraphQuery.Proofs.BlockReading
import GraphQuery.Proofs.Brackets
import GraphQuery.Proofs.Checking
import GraphQuery.Proofs.Collecting
import GraphQuery.Proofs.Congruence
import GraphQuery.Proofs.Containment
import GraphQuery.Proofs.Drafts
import GraphQuery.Proofs.Faults
import GraphQuery.Proofs.FieldOrder
import GraphQuery.Proofs.Grafting
import GraphQuery.Proofs.Growing
import GraphQuery.Proofs.Holes
import GraphQuery.Proofs.Keeping
import GraphQuery.Proofs.KeptNames
import GraphQuery.Proofs.Literals
import GraphQuery.Proofs.Meaning
import GraphQuery.Proofs.NestedNames
import GraphQuery.Proofs.Numbering
import GraphQuery.Proofs.OperationNames
import GraphQuery.Proofs.Outline
import GraphQuery.Proofs.Placing
import GraphQuery.Proofs.Reading
import GraphQuery.Proofs.Replacement
import GraphQuery.Proofs.Rereading
import GraphQuery.Proofs.Segments
import GraphQuery.Proofs.SingleBlock
import GraphQuery.Proofs.Starting
import GraphQuery.Proofs.Timestamps

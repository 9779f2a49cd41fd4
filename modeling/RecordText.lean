import RecordText.Session
import RecordText.Proofs.Rendering
import RecordText.Proofs.Substitution
import RecordText.Proofs.Verdict
import RecordText.Proofs.Distinction
import RecordText.Proofs.Lineages
import RecordText.Proofs.Hints
import RecordText.Proofs.Sessions
import RecordText.Proofs.Candidates
import RecordText.Proofs.References
import RecordText.Proofs.Unresolved
import RecordText.Proofs.Fragments
import RecordText.Proofs.Configurations
import RecordText.Proofs.Locality
import RecordText.Proofs.Hiding
import RecordText.Proofs.Reliability
import RecordText.Proofs.Arrangement
import RecordText.Proofs.Reflexivity
import RecordText.Proofs.Wrappers
import RecordText.Proofs.Recording
import RecordText.Proofs.Decorations
import RecordText.Proofs.Spellings
import RecordText.Proofs.Transitivity
import RecordText.Proofs.Optionals
import RecordText.Proofs.Signatures
import RecordText.Proofs.Opening
import RecordText.Proofs.Universality
import RecordText.Proofs.NewNames
import RecordText.Proofs.LiteralValues
import RecordText.Proofs.PropertyOrder
import RecordText.Proofs.ClassVariables
import RecordText.Proofs.RenamedTypes
import RecordText.Proofs.ReadingBack
import RecordText.Proofs.OptionalRoundTrip

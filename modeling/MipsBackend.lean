import MipsBackend.Main
import MipsBackend.Proofs.Annotation
import MipsBackend.Proofs.AtomicEmission
import MipsBackend.Proofs.BufferConservation
import MipsBackend.Proofs.CommandOutcome
import MipsBackend.Proofs.Comparison
import MipsBackend.Proofs.ControlGrammar
import MipsBackend.Proofs.DirectEmission
import MipsBackend.Proofs.ElseLevels
import MipsBackend.Proofs.FreshStart
import MipsBackend.Proofs.InstructionReading
import MipsBackend.Proofs.LabelResolution
import MipsBackend.Proofs.MergeLaws
import MipsBackend.Proofs.NextFit
import MipsBackend.Proofs.OutputLines
import MipsBackend.Proofs.Resemblance
import MipsBackend.Proofs.ResourceLimits
import MipsBackend.Proofs.RunSummary
import MipsBackend.Proofs.ScriptRoundTrip
import MipsBackend.Proofs.SlotRegisters
import MipsBackend.Proofs.StreamFaults
import MipsBackend.Proofs.StringData
import MipsBackend.Proofs.StructuredLayout
import MipsBackend.Proofs.StructuredMeaning
import MipsBackend.Proofs.SupplyIndependence
import MipsBackend.Proofs.TextConservation
import MipsBackend.Script.Writer

import EquivalentCircuit.Circuit.Interpretation
import EquivalentCircuit.Notation.Grammar
import EquivalentCircuit.Sweep.Grid
import EquivalentCircuit.Sweep.Spectrum
import EquivalentCircuit.Proofs.Conversion
import EquivalentCircuit.Proofs.Parentheses
import EquivalentCircuit.Proofs.Meaning
import EquivalentCircuit.Proofs.Letters
import EquivalentCircuit.Proofs.Numbering
import EquivalentCircuit.Proofs.Compilation
import EquivalentCircuit.Proofs.Runs
import EquivalentCircuit.Proofs.Infix
import EquivalentCircuit.Proofs.Outcomes
import EquivalentCircuit.Proofs.Rearrangement
import EquivalentCircuit.Proofs.Passivity
import EquivalentCircuit.Proofs.Definedness
import EquivalentCircuit.Proofs.Groups
import EquivalentCircuit.Proofs.Sweeps
import EquivalentCircuit.Proofs.Scaling
import EquivalentCircuit.Proofs.DirectCurrent
import EquivalentCircuit.Proofs.Conservation
import EquivalentCircuit.Proofs.MixedGroups
import EquivalentCircuit.Proofs.Tiling
import EquivalentCircuit.Proofs.Blanks
import EquivalentCircuit.Proofs.WrittenForm
import EquivalentCircuit.Proofs.ConstantPhase
import EquivalentCircuit.Proofs.Branches
import EquivalentCircuit.Proofs.Equality
import EquivalentCircuit.Proofs.Progressions
import EquivalentCircuit.Proofs.LogarithmicSweeps

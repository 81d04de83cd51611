import GenericC.Main
import GenericC.Pass
import GenericC.Proofs.ArgumentsFirst
import GenericC.Proofs.BuildOutcomes
import GenericC.Proofs.CheckedDiagnostics
import GenericC.Proofs.ComposedSubstitutions
import GenericC.Proofs.CursorBounds
import GenericC.Proofs.DefinitionOrder
import GenericC.Proofs.ExpansionTermination
import GenericC.Proofs.GeneratedNames
import GenericC.Proofs.HoistedLines
import GenericC.Proofs.InterleavedEvents
import GenericC.Proofs.LinePositions
import GenericC.Proofs.MangledNames
import GenericC.Proofs.NestingLimits
import GenericC.Proofs.OmittedGenerics
import GenericC.Proofs.OperatorParsing
import GenericC.Proofs.PeekedTokens
import GenericC.Proofs.ProjectPaths
import GenericC.Proofs.RenderedTypes
import GenericC.Proofs.RepeatedPasses
import GenericC.Proofs.SharedTypes
import GenericC.Proofs.SpanIndependence
import GenericC.Proofs.SpecializedTrees
import GenericC.Proofs.TraceRecords

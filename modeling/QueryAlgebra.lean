import QueryAlgebra.Expression.Restricted
import QueryAlgebra.Expression.United
import QueryAlgebra.Expression.Universal
import QueryAlgebra.Proofs.HeadingMembers
import QueryAlgebra.Proofs.OperatorResults
import QueryAlgebra.Proofs.Reachability
import QueryAlgebra.Proofs.JoinColumns
import QueryAlgebra.Proofs.AliasShift
import QueryAlgebra.Proofs.AliasNumbering
import QueryAlgebra.Proofs.AwaitedNames
import QueryAlgebra.Proofs.BooleanReading
import QueryAlgebra.Proofs.CarriedRestriction
import QueryAlgebra.Proofs.ClauseFlattening
import QueryAlgebra.Proofs.LeafCompilation
import QueryAlgebra.Proofs.SessionUnity
import QueryAlgebra.Proofs.JoinedRows
import QueryAlgebra.Proofs.KeyUniqueness
import QueryAlgebra.Proofs.NameScope
import QueryAlgebra.Proofs.Renderability
import QueryAlgebra.Proofs.CarriedLineage
import QueryAlgebra.Proofs.LineageOrigin
import QueryAlgebra.Proofs.DeclaredLineage
import QueryAlgebra.Proofs.EmptyHeading
import QueryAlgebra.Proofs.SelectLists
import QueryAlgebra.Proofs.EqualityLaws
import QueryAlgebra.Proofs.AlikeStatements
import QueryAlgebra.Proofs.EqualityCongruence
import QueryAlgebra.Proofs.MarkedConditions
import QueryAlgebra.Proofs.LexedConditions
import QueryAlgebra.Proofs.QuotedReading
import QueryAlgebra.Proofs.NegationParity
import QueryAlgebra.Proofs.ConjoinedMembers
import QueryAlgebra.Proofs.RestrictionSteps
import QueryAlgebra.Proofs.RestrictionOrder
import QueryAlgebra.Proofs.RefusalCauses
import QueryAlgebra.Proofs.DirectRestriction
import QueryAlgebra.Proofs.JoinedHeading
import QueryAlgebra.Proofs.JoinAcceptance
import QueryAlgebra.Proofs.IgnoredMembers
import QueryAlgebra.Proofs.StepwiseRestriction
import QueryAlgebra.Proofs.JoinedNames
import QueryAlgebra.Proofs.RekeyedHeading
import QueryAlgebra.Proofs.SelectedAttributes
import QueryAlgebra.Proofs.ProjectionAcceptance
import QueryAlgebra.Proofs.AggregatedKey
import QueryAlgebra.Proofs.Relabelling
import QueryAlgebra.Proofs.SubqueryTransparency
import QueryAlgebra.Proofs.GroupNames
import QueryAlgebra.Proofs.StatementColumns
import QueryAlgebra.Proofs.JoinGrammar
import QueryAlgebra.Proofs.JoinTrees
import QueryAlgebra.Proofs.PositionalColumns
import QueryAlgebra.Proofs.DeclarationClashes
import QueryAlgebra.Proofs.OriginText
import QueryAlgebra.Proofs.AliasCollisions
import QueryAlgebra.Proofs.ForcedKey
import QueryAlgebra.Proofs.ConjunctionHistory
import QueryAlgebra.Proofs.HeadingHistory
import QueryAlgebra.Proofs.UuidSpelling
import QueryAlgebra.Proofs.WrittenRenamings

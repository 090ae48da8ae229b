import EdgeExpression.Main
import EdgeExpression.Proofs.InputLines
import EdgeExpression.Proofs.Construction
import EdgeExpression.Proofs.OwnText
import EdgeExpression.Proofs.Place
import EdgeExpression.Proofs.Reading
import EdgeExpression.Proofs.Grammar
import EdgeExpression.Proofs.OpenedLevels
import EdgeExpression.Proofs.Runs
import EdgeExpression.Proofs.Recognition
import EdgeExpression.Proofs.Level
import EdgeExpression.Proofs.SpacedText
import EdgeExpression.Proofs.Groups
import EdgeExpression.Proofs.RoundTrip
import EdgeExpression.Proofs.Faults
import EdgeExpression.Proofs.Blame
import EdgeExpression.Proofs.Completion
import EdgeExpression.Proofs.Viable
import EdgeExpression.Proofs.Calls
import EdgeExpression.Proofs.SourceMap
import EdgeExpression.Proofs.Positions
import EdgeExpression.Proofs.Relocation
import EdgeExpression.Proofs.Insertion
import EdgeExpression.Proofs.Reformatting
import EdgeExpression.Proofs.Batch
import EdgeExpression.Proofs.WholeInput
import EdgeExpression.Proofs.LexicalGrammar
import EdgeExpression.Proofs.LongestMatch
import EdgeExpression.Proofs.ExcessLevel
import EdgeExpression.Proofs.ExtraGroups
import EdgeExpression.Proofs.Height
import EdgeExpression.Proofs.TextBehind
import EdgeExpression.Proofs.MixedCalls
import EdgeExpression.Proofs.SpaceTokens
import EdgeExpression.Proofs.Listing
import EdgeExpression.Proofs.CanonicalTokens

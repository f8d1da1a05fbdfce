import HamlTemplate.Main
import HamlTemplate.Proofs.Outline
import HamlTemplate.Proofs.Placement
import HamlTemplate.Proofs.Round
import HamlTemplate.Proofs.Lockstep
import HamlTemplate.Proofs.Forest
import HamlTemplate.Proofs.LineOrder
import HamlTemplate.Proofs.Nesting
import HamlTemplate.Proofs.Brackets
import HamlTemplate.Proofs.Printer
import HamlTemplate.Proofs.Trimming
import HamlTemplate.Proofs.ElementGrammar
import HamlTemplate.Proofs.ReadBack
import HamlTemplate.Proofs.Ready
import HamlTemplate.Proofs.RoundTrip
import HamlTemplate.Proofs.PhysicalLines
import HamlTemplate.Proofs.Terminators
import HamlTemplate.Proofs.PipedRuns
import HamlTemplate.Proofs.LineFeed
import HamlTemplate.Proofs.Gathering
import HamlTemplate.Proofs.AttributeBlock
import HamlTemplate.Proofs.Agreement
import HamlTemplate.Proofs.Tracking
import HamlTemplate.Proofs.Shift
import HamlTemplate.Proofs.ParallelRuns
import HamlTemplate.Proofs.Continuation
import HamlTemplate.Proofs.Uniform
import HamlTemplate.Proofs.Concatenation
import HamlTemplate.Proofs.EveryNode
import HamlTemplate.Proofs.Beginnings
import HamlTemplate.Proofs.Reindented
import HamlTemplate.Proofs.Reindentation
import HamlTemplate.Proofs.Completeness
import HamlTemplate.Proofs.GrowingCode
import HamlTemplate.Proofs.ElementParts
import HamlTemplate.Proofs.Statements
import HamlTemplate.Proofs.Siblings
import HamlTemplate.Proofs.WellFormed
import HamlTemplate.Proofs.BlockKeyword
import HamlTemplate.Proofs.FilterBody
import HamlTemplate.Proofs.BalancedCode
import HamlTemplate.Proofs.Events
import HamlTemplate.Proofs.FilterHistory
import HamlTemplate.Proofs.LevelStack
import HamlTemplate.Proofs.WidthHistory
import HamlTemplate.Proofs.CommentBody
import HamlTemplate.Proofs.ErrorLines
import HamlTemplate.Proofs.ListedNodes
import HamlTemplate.Proofs.LineAccounting
import HamlTemplate.Proofs.StringContents
import HamlTemplate.Proofs.BlankLines
import HamlTemplate.Proofs.IllegalNesting
import HamlTemplate.Proofs.LastNode
import HamlTemplate.Proofs.RewrittenLines
import HamlTemplate.Proofs.ContentLines
import HamlTemplate.Proofs.ImplicitTag
import HamlTemplate.Proofs.TrailingSpace
import HamlTemplate.Proofs.UsedFilters
import HamlTemplate.Proofs.BlockFollower

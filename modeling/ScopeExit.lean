import ScopeExit.Source.Token
import ScopeExit.Source.IdentChars
import ScopeExit.Source.HiddenChars
import ScopeExit.Source.Literal
import ScopeExit.Source.Lexer
import ScopeExit.Syntax.UseTree
import ScopeExit.Syntax.Basic
import ScopeExit.Syntax.Print
import ScopeExit.Grammar.Reader
import ScopeExit.Grammar.Basic
import ScopeExit.Grammar.Type
import ScopeExit.Grammar.Pattern
import ScopeExit.Grammar.Expression
import ScopeExit.Grammar.Item
import ScopeExit.Grammar.Statement
import ScopeExit.Grammar.Entry
import ScopeExit.Scope.Stack
import ScopeExit.Scope.Declare
import ScopeExit.Registration
import ScopeExit.Guarding.Divergence
import ScopeExit.Guarding.Block
import ScopeExit.Guarding.Report
import ScopeExit.Guarding.Tree
import ScopeExit.Expansion.Arguments
import ScopeExit.Expansion
import ScopeExit.Cleanup.Script
import ScopeExit.Cleanup.Run
import ScopeExit.Cleanup.Guard
import ScopeExit.Proofs.Places
import ScopeExit.Proofs.TwoPhases
import ScopeExit.Proofs.Walked
import ScopeExit.Proofs.Placement
import ScopeExit.Proofs.Agreement
import ScopeExit.Proofs.GuardsInPlace
import ScopeExit.Proofs.Shadowing
import ScopeExit.Proofs.Idempotence
import ScopeExit.Proofs.Changes
import ScopeExit.Proofs.LocalNames
import ScopeExit.Proofs.AttributeImport
import ScopeExit.Proofs.Aliases
import ScopeExit.Proofs.DeclarationOrder
import ScopeExit.Proofs.VisitOrder
import ScopeExit.Proofs.Accounts
import ScopeExit.Proofs.AllOrNothing
import ScopeExit.Proofs.Reading
import ScopeExit.Proofs.GeneratedText
import ScopeExit.Proofs.Operands
import ScopeExit.Proofs.Rewriting
import ScopeExit.Proofs.Replacement
import ScopeExit.Proofs.Surroundings
import ScopeExit.Proofs.TwoBuilds
import ScopeExit.Proofs.Members
import ScopeExit.Proofs.Results
import ScopeExit.Proofs.Modules
import ScopeExit.Proofs.OpaqueRegions
import ScopeExit.Proofs.Noninterference
import ScopeExit.Proofs.Spelling
import ScopeExit.Proofs.Respelling
import ScopeExit.Proofs.Unwinding
import ScopeExit.Proofs.ConditionBindings
import ScopeExit.Proofs.DeclaredFunctions
import ScopeExit.Proofs.RuntimePath
import ScopeExit.Proofs.ConstContexts
import ScopeExit.Proofs.Restoring
import ScopeExit.Proofs.StatementAttributes
import ScopeExit.Proofs.FlatImports
import ScopeExit.Proofs.RelativePaths
import ScopeExit.Proofs.NewNames
import ScopeExit.Proofs.Outcomes
import ScopeExit.Proofs.Cutting
import ScopeExit.Proofs.Settings
import ScopeExit.Proofs.Entries
import ScopeExit.Proofs.ArgumentGrammar
import ScopeExit.Proofs.ExplicitNames

import CategoryAudit.Analysis
import CategoryAudit.Collect
import CategoryAudit.CommandLine
import CategoryAudit.CommandLine.Arguments
import CategoryAudit.Concrete
import CategoryAudit.Condition
import CategoryAudit.Config
import CategoryAudit.Config.Load
import CategoryAudit.Declaration
import CategoryAudit.FileSystem
import CategoryAudit.Glob
import CategoryAudit.Grammar.Automaton
import CategoryAudit.Grammar.Basic
import CategoryAudit.Grammar.Parse
import CategoryAudit.Grammar.Stack
import CategoryAudit.Grammar.Tree
import CategoryAudit.Json
import CategoryAudit.Main
import CategoryAudit.Outline
import CategoryAudit.Path
import CategoryAudit.Project
import CategoryAudit.Proofs.Condition.Grammar
import CategoryAudit.Proofs.Condition.Lexing
import CategoryAudit.Proofs.Condition.Outcome
import CategoryAudit.Proofs.Files.Collect
import CategoryAudit.Proofs.Files.Isolation
import CategoryAudit.Proofs.Files.Path
import CategoryAudit.Proofs.Files.Tree
import CategoryAudit.Proofs.Findings
import CategoryAudit.Proofs.Inactive
import CategoryAudit.Proofs.Resolve
import CategoryAudit.Report
import CategoryAudit.ShellWords
import CategoryAudit.Source.Directive
import CategoryAudit.Source.Lexeme
import CategoryAudit.Source.Parse
import CategoryAudit.Source.Rules
import CategoryAudit.Symbols
import CategoryAudit.Text.Blank
import CategoryAudit.Text.Decimal
import CategoryAudit.Text.Digit
import CategoryAudit.Text.Identifier
import CategoryAudit.Text.Lowercase
import CategoryAudit.Text.Quoted
import CategoryAudit.Text.Ranges
import CategoryAudit.Text.Utf8
import CategoryAudit.Yaml.Document
import CategoryAudit.Yaml.Fault
import CategoryAudit.Yaml.Node
import CategoryAudit.Yaml.Plain
import CategoryAudit.Yaml.Token
import CategoryAudit.Yaml.Value
import CategoryAudit.Proofs.Trailing
import CategoryAudit.Proofs.Failures
import CategoryAudit.Proofs.Json.Decode
import CategoryAudit.Proofs.Json.Lossless
import CategoryAudit.Proofs.Files.Write
import CategoryAudit.Proofs.Files.Exclusion
import CategoryAudit.Proofs.Files.PartialParse
import CategoryAudit.Proofs.Presentation
import CategoryAudit.Proofs.Text.Lowercase
import CategoryAudit.Proofs.Text.Strip
import CategoryAudit.Proofs.Condition.Printing
import CategoryAudit.Proofs.Refusals
import CategoryAudit.Proofs.EntryPoints
import CategoryAudit.Proofs.Files.Rewrite
import CategoryAudit.Proofs.Rerun
import CategoryAudit.Proofs.Success
import CategoryAudit.Proofs.Repair
import CategoryAudit.Proofs.Condition.Symbols
import CategoryAudit.Proofs.Course
import CategoryAudit.Proofs.Reached
import CategoryAudit.Proofs.LastDefinition
import CategoryAudit.Proofs.Irrelevant
import CategoryAudit.Proofs.Wrapping
import CategoryAudit.Proofs.SymbolNames
import CategoryAudit.Proofs.ConditionalAttributes
import CategoryAudit.Proofs.Renaming
import CategoryAudit.Proofs.Files.Subtree
import CategoryAudit.Proofs.Config.Faults
import CategoryAudit.Proofs.Config.WrittenOut
import CategoryAudit.Proofs.FirstBroken
import CategoryAudit.Proofs.Text.Utf8
import CategoryAudit.Proofs.Files.Undecodable
import CategoryAudit.Proofs.Announcements
import CategoryAudit.Proofs.WellFormed
import CategoryAudit.Proofs.ReportLines

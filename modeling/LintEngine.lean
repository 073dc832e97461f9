import LintEngine.Command.Lint
import LintEngine.Command.Options
import LintEngine.Command.Reach
import LintEngine.Command.Run
import LintEngine.Expression.Basic
import LintEngine.Expression.Read
import LintEngine.Failure
import LintEngine.Files.Path
import LintEngine.Files.Tree
import LintEngine.Files.Utf8
import LintEngine.Glob.Basic
import LintEngine.Glob.Match
import LintEngine.Glob.Source
import LintEngine.Ignore.Config
import LintEngine.Ignore.Decision
import LintEngine.Ignore.Merge
import LintEngine.Ignore.Rule
import LintEngine.Ignore.Untyped
import LintEngine.Issue
import LintEngine.Linter.Class
import LintEngine.Linter.Context
import LintEngine.Linter.Registry
import LintEngine.Linter.Script
import LintEngine.Log
import LintEngine.Main
import LintEngine.Number.Binary64
import LintEngine.Number.Shortest
import LintEngine.Ordered.Map
import LintEngine.Ordered.Set
import LintEngine.Packing.Bits
import LintEngine.Packing.Bzip2
import LintEngine.Packing.Checksum
import LintEngine.Packing.Gzip
import LintEngine.Packing.Lzma
import LintEngine.Packing.Members
import LintEngine.Packing.RangeCoder
import LintEngine.Packing.Tarball.Extract
import LintEngine.Packing.Tarball.Header
import LintEngine.Packing.Tarball.Member
import LintEngine.Packing.Tarball.Write
import LintEngine.Packing.Xz
import LintEngine.Process.Program
import LintEngine.Process.Shell
import LintEngine.Project.Artifact
import LintEngine.Project.File
import LintEngine.Project.Formats
import LintEngine.Project.IgnoreFile
import LintEngine.Project.Linters
import LintEngine.Proofs.Command.Arguments
import LintEngine.Proofs.Command.BrokenIgnores
import LintEngine.Proofs.Command.Failing
import LintEngine.Proofs.Command.Stage
import LintEngine.Proofs.Command.Start
import LintEngine.Proofs.Command.Status
import LintEngine.Proofs.Command.Summary
import LintEngine.Proofs.Command.Unpacking
import LintEngine.Proofs.Files.Below
import LintEngine.Proofs.Files.Follow
import LintEngine.Proofs.Glob.Denotation
import LintEngine.Proofs.Glob.Expression
import LintEngine.Proofs.Glob.Language
import LintEngine.Proofs.Glob.Reading
import LintEngine.Proofs.Ignore.Canonical
import LintEngine.Proofs.Ignore.Decision
import LintEngine.Proofs.Ignore.Faults
import LintEngine.Proofs.Ignore.Layers
import LintEngine.Proofs.Ignore.Rule
import LintEngine.Proofs.Ignore.Semilattice
import LintEngine.Proofs.Ignore.Untyped
import LintEngine.Proofs.Ignore.Written
import LintEngine.Proofs.Linter.Dispatch
import LintEngine.Proofs.Run.Aggregation
import LintEngine.Proofs.Run.Filtering
import LintEngine.Proofs.Run.Hiding
import LintEngine.Proofs.Run.Isolation
import LintEngine.Proofs.Run.Ledger
import LintEngine.Proofs.Run.Pulls
import LintEngine.Proofs.Run.Reference
import LintEngine.Proofs.Run.Registries
import LintEngine.Proofs.Run.Streaming
import LintEngine.Proofs.Run.Trace
import LintEngine.Report
import LintEngine.Run.Orchestrator
import LintEngine.Run.Session
import LintEngine.Run.Strategy
import LintEngine.Stage
import LintEngine.Text.Blank
import LintEngine.Text.Units
import LintEngine.Value
import LintEngine.Yaml.BlockScalar
import LintEngine.Yaml.Fold
import LintEngine.Yaml.Node
import LintEngine.Yaml.Node.OfTree
import LintEngine.Yaml.Node.Properties
import LintEngine.Yaml.Node.Spelling
import LintEngine.Yaml.Node.Value
import LintEngine.Yaml.Quote
import LintEngine.Yaml.Read
import LintEngine.Yaml.Scalar
import LintEngine.Yaml.Tag
import LintEngine.Yaml.Token
import LintEngine.Yaml.Token.Scan
import LintEngine.Yaml.Tree
import LintEngine.Yaml.Tree.Build

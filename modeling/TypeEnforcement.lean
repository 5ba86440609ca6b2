import TypeEnforcement.Allocation
import TypeEnforcement.Assembly
import TypeEnforcement.Build
import TypeEnforcement.Bzip2.Bits
import TypeEnforcement.Bzip2.Huffman
import TypeEnforcement.Bzip2.Stream
import TypeEnforcement.Bzip2.Transform
import TypeEnforcement.CommandLine.Arguments
import TypeEnforcement.CommandLine.Basic
import TypeEnforcement.Diagnostic
import TypeEnforcement.Digest.Hex
import TypeEnforcement.Digest.Sha256
import TypeEnforcement.Engine
import TypeEnforcement.Fault
import TypeEnforcement.Grant.Basic
import TypeEnforcement.Grant.Capability
import TypeEnforcement.Grant.Domain
import TypeEnforcement.Grant.Filesystem
import TypeEnforcement.Grant.Network
import TypeEnforcement.Grant.Parts
import TypeEnforcement.Grant.Socket
import TypeEnforcement.Host.Catalog
import TypeEnforcement.Host.Listing
import TypeEnforcement.Host.Load
import TypeEnforcement.Host.Snapshot
import TypeEnforcement.Host.SystemPolicy
import TypeEnforcement.Json.Decode
import TypeEnforcement.Json.Parser
import TypeEnforcement.Json.Value
import TypeEnforcement.Label.Basic
import TypeEnforcement.Label.FileClass
import TypeEnforcement.Label.FileContext
import TypeEnforcement.Label.Port
import TypeEnforcement.Label.TypeName
import TypeEnforcement.Machine.Basic
import TypeEnforcement.Machine.FileTree
import TypeEnforcement.Main
import TypeEnforcement.Module.Artifact
import TypeEnforcement.Module.Basic
import TypeEnforcement.Module.Conflict
import TypeEnforcement.Module.Source
import TypeEnforcement.Names.Distinct
import TypeEnforcement.Names.Map
import TypeEnforcement.Names.Set
import TypeEnforcement.Path.Component
import TypeEnforcement.Path.Glob
import TypeEnforcement.Path.Join
import TypeEnforcement.Path.Link
import TypeEnforcement.Path.Resource
import TypeEnforcement.Pattern.Basic
import TypeEnforcement.Pattern.Bracket
import TypeEnforcement.Pattern.CharSet
import TypeEnforcement.Pattern.Parser
import TypeEnforcement.Pattern.Token
import TypeEnforcement.Project.Basic
import TypeEnforcement.Project.Document
import TypeEnforcement.Project.Name
import TypeEnforcement.Project.NetResource
import TypeEnforcement.Proofs.Additivity
import TypeEnforcement.Proofs.Allocated
import TypeEnforcement.Proofs.Ambiguity
import TypeEnforcement.Proofs.Anchoring
import TypeEnforcement.Proofs.Applications
import TypeEnforcement.Proofs.Artifacts
import TypeEnforcement.Proofs.Closure
import TypeEnforcement.Proofs.Collection
import TypeEnforcement.Proofs.Content
import TypeEnforcement.Proofs.DeclaredAccess
import TypeEnforcement.Proofs.Directories
import TypeEnforcement.Proofs.Discarded
import TypeEnforcement.Proofs.Duplicates
import TypeEnforcement.Proofs.EarlierLabels
import TypeEnforcement.Proofs.Effects
import TypeEnforcement.Proofs.EntryLines
import TypeEnforcement.Proofs.ExactPaths
import TypeEnforcement.Proofs.FileKinds
import TypeEnforcement.Proofs.FoldedParents
import TypeEnforcement.Proofs.Footprint
import TypeEnforcement.Proofs.Globs
import TypeEnforcement.Proofs.History
import TypeEnforcement.Proofs.Identifiers
import TypeEnforcement.Proofs.KeptLabels
import TypeEnforcement.Proofs.Labelling
import TypeEnforcement.Proofs.Layout
import TypeEnforcement.Proofs.LetterCase
import TypeEnforcement.Proofs.LiteralParts
import TypeEnforcement.Proofs.LiteralPaths
import TypeEnforcement.Proofs.Lookup
import TypeEnforcement.Proofs.Masking
import TypeEnforcement.Proofs.Merging
import TypeEnforcement.Proofs.ModuleHistory
import TypeEnforcement.Proofs.ModuleNames
import TypeEnforcement.Proofs.NamedFiles
import TypeEnforcement.Proofs.NamedModules
import TypeEnforcement.Proofs.Naming
import TypeEnforcement.Proofs.NetworkFields
import TypeEnforcement.Proofs.NewLabels
import TypeEnforcement.Proofs.Order
import TypeEnforcement.Proofs.Outcomes
import TypeEnforcement.Proofs.OutputDirectory
import TypeEnforcement.Proofs.Overlap
import TypeEnforcement.Proofs.OwnText
import TypeEnforcement.Proofs.PathPatterns
import TypeEnforcement.Proofs.PrivateTypes
import TypeEnforcement.Proofs.ReadBack
import TypeEnforcement.Proofs.Rebuild
import TypeEnforcement.Proofs.References
import TypeEnforcement.Proofs.Refusals
import TypeEnforcement.Proofs.RelabelScopes
import TypeEnforcement.Proofs.Requests
import TypeEnforcement.Proofs.RereadEntries
import TypeEnforcement.Proofs.Resolution
import TypeEnforcement.Proofs.Scraping
import TypeEnforcement.Proofs.SharedNames
import TypeEnforcement.Proofs.SharedPatterns
import TypeEnforcement.Proofs.ShellCommands
import TypeEnforcement.Proofs.SocketClasses
import TypeEnforcement.Proofs.Statements
import TypeEnforcement.Proofs.Support
import TypeEnforcement.Proofs.SystemNames
import TypeEnforcement.Proofs.Unification
import TypeEnforcement.Proofs.Wildcards
import TypeEnforcement.Proofs.Words
import TypeEnforcement.Rule.Actions
import TypeEnforcement.Rule.Basic
import TypeEnforcement.Rule.Bundle
import TypeEnforcement.Settings
import TypeEnforcement.Store.Basic
import TypeEnforcement.Store.Installed
import TypeEnforcement.Text.Blank
import TypeEnforcement.Text.CaseFold
import TypeEnforcement.Text.CaseMap
import TypeEnforcement.Text.CharRange
import TypeEnforcement.Text.Hexadecimal
import TypeEnforcement.Text.LowerCase
import TypeEnforcement.Text.Numeral
import TypeEnforcement.Text.Printable
import TypeEnforcement.Text.Quoted
import TypeEnforcement.Text.Reader
import TypeEnforcement.Text.Split
import TypeEnforcement.Text.Utf8
import TypeEnforcement.Text.WordChar
import TypeEnforcement.Toml.Decode
import TypeEnforcement.Toml.Document
import TypeEnforcement.Toml.Quote
import TypeEnforcement.Toml.Scalar
import TypeEnforcement.Toml.Table
import TypeEnforcement.Toml.Value

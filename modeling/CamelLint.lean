import CamelLint.Casing
import CamelLint.Category
import CamelLint.Config.Basic
import CamelLint.Config.Error
import CamelLint.Config.Load
import CamelLint.Decimal.Binary64
import CamelLint.Decimal.Shortest
import CamelLint.Declaration
import CamelLint.Entries
import CamelLint.FileTree
import CamelLint.Finding
import CamelLint.Json.Decode
import CamelLint.Json.Printer
import CamelLint.Json.Reader
import CamelLint.Json.Value
import CamelLint.Misfit
import CamelLint.Priority
import CamelLint.Proofs.Casing
import CamelLint.Proofs.ConfiguredRule
import CamelLint.Proofs.Reporting
import CamelLint.Proofs.Tokens
import CamelLint.Proofs.TokenLists
import CamelLint.Proofs.Paths
import CamelLint.Rule.Metadata
import CamelLint.Rule.NamingPattern
import CamelLint.Session
import CamelLint.Severity
import CamelLint.Text.Blank
import CamelLint.Text.Digits
import CamelLint.Text.Quoted
import CamelLint.Text.Unseen
import CamelLint.Text.Uppercase
import CamelLint.Toml.Document
import CamelLint.Toml.ModuleList
import CamelLint.Toml.Scalar
import CamelLint.Toml.Token
import CamelLint.Toml.Value
import CamelLint.Xml.ModuleTree
import CamelLint.Xml.Namespace
import CamelLint.Xml.Node
import CamelLint.Xml.Reference
import CamelLint.Xml.Scan
import CamelLint.Xml.Tag
import CamelLint.Proofs.Xml.Grammar
import CamelLint.Proofs.Xml.Tags
import CamelLint.Proofs.Xml.Scanning
import CamelLint.Proofs.Xml.Reading
import CamelLint.Proofs.Xml.Children
import CamelLint.Proofs.Entries
import CamelLint.Proofs.Xml.RoundTrip
import CamelLint.Proofs.Xml.Indifference
import CamelLint.Proofs.Xml.Prefixes
import CamelLint.Proofs.Json.Forms
import CamelLint.Proofs.Json.Priorities
import CamelLint.Proofs.Toml.Grammar
import CamelLint.Proofs.Toml.Lexing
import CamelLint.Proofs.Toml.Reading
import CamelLint.Proofs.Toml.Tables
import CamelLint.Proofs.Toml.RoundTrip
import CamelLint.Proofs.Log
import CamelLint.Proofs.Toml.Order
import CamelLint.Proofs.Toml.Fitting
import CamelLint.Proofs.Xml.Liveness
import CamelLint.Proofs.Xml.Fitting
import CamelLint.Proofs.TextOrder
import CamelLint.Proofs.Properties
import CamelLint.Proofs.Json.Misfits
import CamelLint.Proofs.Letters
import CamelLint.Proofs.Xml.Flattening

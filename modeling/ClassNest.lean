import ClassNest.Access
import ClassNest.Batch
import ClassNest.Batch.Json
import ClassNest.ClassFile
import ClassNest.ClassFile.Draft
import ClassNest.ClassFile.Json
import ClassNest.ClassFile.Script
import ClassNest.CommandLine
import ClassNest.Diagnostic
import ClassNest.Fault
import ClassNest.Forest.Basic
import ClassNest.Forest.Change
import ClassNest.Forest.History
import ClassNest.Forest.Json
import ClassNest.Forest.Node
import ClassNest.Forest.Render
import ClassNest.Growth
import ClassNest.Handlers.Handler
import ClassNest.Handlers.Index
import ClassNest.Handlers.Subtyping
import ClassNest.Handlers.Table
import ClassNest.Json.Printer
import ClassNest.Json.Reader
import ClassNest.Json.Shape
import ClassNest.Json.Value
import ClassNest.Lambda.Attach
import ClassNest.Lambda.Site
import ClassNest.Main
import ClassNest.Nesting.Index
import ClassNest.Nesting.Normalize
import ClassNest.Nesting.Record
import ClassNest.Nesting.Tables
import ClassNest.Pool
import ClassNest.Pool.Requests
import ClassNest.Proofs.Attaching
import ClassNest.Proofs.Convention
import ClassNest.Proofs.Decisions
import ClassNest.Proofs.Draft
import ClassNest.Proofs.Faults
import ClassNest.Proofs.FirstWins
import ClassNest.Proofs.Forest.History
import ClassNest.Proofs.Forest.Links
import ClassNest.Proofs.Forest.Pruned
import ClassNest.Proofs.Forest.Rendering
import ClassNest.Proofs.Forest.Restoring
import ClassNest.Proofs.Forest.Walks
import ClassNest.Proofs.Growth.Reach
import ClassNest.Proofs.Growth.Shape
import ClassNest.Proofs.Growth.Spread
import ClassNest.Proofs.Growth.Trees
import ClassNest.Proofs.Handlers.Lookup
import ClassNest.Proofs.Handlers.Tables
import ClassNest.Proofs.Json.Batch
import ClassNest.Proofs.Json.Shape
import ClassNest.Proofs.Lambda
import ClassNest.Proofs.Likeness
import ClassNest.Proofs.Nesting
import ClassNest.Proofs.Nesting.Tables
import ClassNest.Proofs.Planting
import ClassNest.Proofs.Pool
import ClassNest.Proofs.Pool.Requests
import ClassNest.Proofs.Registry
import ClassNest.Proofs.Registry.LastWins
import ClassNest.Proofs.Run.Accounting
import ClassNest.Proofs.Run.Again
import ClassNest.Proofs.Run.BreadthFirst
import ClassNest.Proofs.Run.ClassesOnly
import ClassNest.Proofs.Run.ErrorLog
import ClassNest.Proofs.Run.Failures
import ClassNest.Proofs.Run.Foreign
import ClassNest.Proofs.Run.Interleaving
import ClassNest.Proofs.Run.Isolation
import ClassNest.Proofs.Run.Lambdas
import ClassNest.Proofs.Run.Metadata
import ClassNest.Proofs.Run.Renaming
import ClassNest.Proofs.Run.Skipping
import ClassNest.Proofs.Run.WellFormed
import ClassNest.Proofs.Workers
import ClassNest.Registry
import ClassNest.Registry.Positions
import ClassNest.Renaming.Cache
import ClassNest.Renaming.Convention
import ClassNest.Renaming.Policy
import ClassNest.Renaming.Workers
import ClassNest.Report
import ClassNest.Run
import ClassNest.Session
import ClassNest.Settings
import ClassNest.Settings.Document
import ClassNest.Step
import ClassNest.Text.Quoted
import ClassNest.Text.Unprintable
import ClassNest.Yaml.Block
import ClassNest.Yaml.Node
import ClassNest.Yaml.Place
import ClassNest.Yaml.Scalar
import ClassNest.Yaml.Tag
import ClassNest.Yaml.Token

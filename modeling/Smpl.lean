import Smpl.CommandLine
import Smpl.Console
import Smpl.FileTree
import Smpl.Json.Basic
import Smpl.Json.Reader
import Smpl.Log
import Smpl.Machine.Basic
import Smpl.Machine.Eval
import Smpl.Machine.Run
import Smpl.Machine.State
import Smpl.Main
import Smpl.Numeric.Binary64
import Smpl.Numeric.IntegerText
import Smpl.Numeric.RealText
import Smpl.Numeric.Shortest
import Smpl.Package.Checksum
import Smpl.Package.Install
import Smpl.Package.Loading
import Smpl.Package.Lockfile
import Smpl.Package.Manifest
import Smpl.Package.Revision
import Smpl.Path
import Smpl.Program.Basic
import Smpl.Program.Build
import Smpl.Program.Decode
import Smpl.Program.Encode
import Smpl.Program.Render
import Smpl.Sha256
import Smpl.Snapshot
import Smpl.Table
import Smpl.Text.Printable
import Smpl.Text.Quoted
import Smpl.Text.Space
import Smpl.TimeStamp
import Smpl.Value.Basic
import Smpl.Value.Equality
import Smpl.Value.Failure
import Smpl.Value.Format
import Smpl.Value.Kind
import Smpl.Value.Operators
import Smpl.Yaml.Implicit
import Smpl.Yaml.Layout
import Smpl.Yaml.Lexeme
import Smpl.Yaml.Node
import Smpl.Yaml.Printer
import Smpl.Yaml.Reading
import Smpl.Yaml.Source
import Smpl.Yaml.Token
import Smpl.Proofs.Complete
import Smpl.Proofs.Judgement
import Smpl.Proofs.Evaluation
import Smpl.Proofs.Footprint
import Smpl.Proofs.Decoding
import Smpl.Proofs.Soundness
import Smpl.Proofs.Reached
import Smpl.Proofs.Agreement
import Smpl.Proofs.Locality
import Smpl.Proofs.Bisimulation
import Smpl.Proofs.CyclicVectors
import Smpl.Proofs.Conservation
import Smpl.Proofs.Numerals
import Smpl.Proofs.RoundTrip
import Smpl.Proofs.NormalForm
import Smpl.Proofs.LockfileMap
import Smpl.Proofs.DirectoryGrowth
import Smpl.Proofs.DependencyWalk
import Smpl.Proofs.ManifestFiles
import Smpl.Proofs.Locating
import Smpl.Proofs.Resolution
import Smpl.Proofs.Installation
import Smpl.Proofs.LoadOrder
import Smpl.Proofs.InstalledPackages
import Smpl.Proofs.Exhaustive
import Smpl.Proofs.Runs
import Smpl.Proofs.Upkeep
import Smpl.Proofs.LazyMemo
import Smpl.Proofs.UnseenRegister
import Smpl.Proofs.VectorSlots
import Smpl.Proofs.TreeChecksum
import Smpl.Proofs.CacheDirectory
import Smpl.Proofs.DependencyPreludes
import Smpl.Proofs.PairedValues
import Smpl.Proofs.PairedRuns
import Smpl.Proofs.ModuleRuns
import Smpl.Proofs.CallScopes
import Smpl.Proofs.LetApplication
import Smpl.Proofs.VectorComprehension
import Smpl.Proofs.NestedConditionals
import Smpl.Proofs.EqualityLaws
import Smpl.Proofs.Definitions
import Smpl.Proofs.FallThrough
import Smpl.Proofs.LazyAgreement
import Smpl.Proofs.IntegerStream
import Smpl.Proofs.RejectedIntegers
import Smpl.Proofs.Renderings
import Smpl.Proofs.Numbering
import Smpl.Proofs.Routines
import Smpl.Proofs.Freshness
import Smpl.Proofs.PackageOrder
import Smpl.Proofs.DependencyNames
import Smpl.Proofs.NameShorthand
import Smpl.Proofs.NearestManifest
import Smpl.Proofs.IntegerArithmetic

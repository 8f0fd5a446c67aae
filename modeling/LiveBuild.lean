import LiveBuild.Archive.Basic
import LiveBuild.Archive.Checksum
import LiveBuild.Archive.Directory
import LiveBuild.Archive.EndRecord
import LiveBuild.Archive.ExtraField
import LiveBuild.Archive.Fault
import LiveBuild.Archive.File
import LiveBuild.Archive.Inflate
import LiveBuild.Archive.Member
import LiveBuild.Archive.Record
import LiveBuild.Archive.WideEndRecord
import LiveBuild.Arena
import LiveBuild.Artifact
import LiveBuild.ClassPath
import LiveBuild.Compiler
import LiveBuild.Diagnostic.Basic
import LiveBuild.Diagnostic.CompilerOutput
import LiveBuild.Error
import LiveBuild.FileHandle
import LiveBuild.FileManager
import LiveBuild.FileSystem.Basic
import LiveBuild.FileSystem.Edit
import LiveBuild.FileSystem.Launch
import LiveBuild.FileSystem.OsError
import LiveBuild.FileSystem.Script
import LiveBuild.Finder
import LiveBuild.Gather
import LiveBuild.Host
import LiveBuild.Json.Reader
import LiveBuild.Json.Value
import LiveBuild.Kind
import LiveBuild.Loader
import LiveBuild.Location
import LiveBuild.Materializer
import LiveBuild.Options
import LiveBuild.Path
import LiveBuild.Process
import LiveBuild.QualifiedName
import LiveBuild.SourceUnit
import LiveBuild.StandardFiles.Basic
import LiveBuild.StandardFiles.Directories
import LiveBuild.Store
import LiveBuild.Table
import LiveBuild.Text.Affix
import LiveBuild.Text.Blank
import LiveBuild.Text.CodePage437
import LiveBuild.Text.Line
import LiveBuild.Text.Quoted
import LiveBuild.Text.Unprinted
import LiveBuild.Text.Utf8
import LiveBuild.Toolchain.Directed
import LiveBuild.Toolchain.Event
import LiveBuild.Toolchain.Interaction
import LiveBuild.Toolchain.Rustc
import LiveBuild.Proofs.Compiler.Image
import LiveBuild.Proofs.Compiler.Sources
import LiveBuild.Proofs.Compiler.Units
import LiveBuild.Proofs.FileManager.Delivery
import LiveBuild.Proofs.FileManager.Kinds
import LiveBuild.Proofs.FileManager.Visibility
import LiveBuild.Proofs.Finder.Lookup
import LiveBuild.Proofs.Toolchain.Feedback
import LiveBuild.Proofs.Finder.Tree
import LiveBuild.Proofs.Finder.Backing
import LiveBuild.Proofs.Host.Steady
import LiveBuild.Proofs.Toolchain.Given
import LiveBuild.Proofs.Compiler.Owners
import LiveBuild.Proofs.Handles.Sound
import LiveBuild.Proofs.Handles.Account
import LiveBuild.Proofs.Handles.Run
import LiveBuild.Proofs.Loader.Chain
import LiveBuild.Proofs.FileManager.Shared
import LiveBuild.Proofs.Finder.Confinement
import LiveBuild.Proofs.Diagnostic.Decoding
import LiveBuild.Proofs.Diagnostic.Lines
import LiveBuild.Proofs.Compiler.Requests
import LiveBuild.Proofs.Host.Cache
import LiveBuild.Proofs.Host.Keeps
import LiveBuild.Proofs.Toolchain.Order
import LiveBuild.Proofs.Finder.Enumeration
import LiveBuild.Proofs.StandardFiles.Leaves
import LiveBuild.Proofs.StandardFiles.Forest
import LiveBuild.Proofs.FileManager.Listing
import LiveBuild.Proofs.FileManager.Selection
import LiveBuild.Proofs.FileManager.Sinks
import LiveBuild.Proofs.Handles.Origin
import LiveBuild.Proofs.Loader.Resumption

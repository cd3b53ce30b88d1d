import Bindery.Main
import Bindery.Proofs.Artifact.Containment
import Bindery.Proofs.Artifact.Interruption
import Bindery.Proofs.Artifact.Result
import Bindery.Proofs.Artifact.Insertion
import Bindery.Proofs.Artifact.StagingName
import Bindery.Proofs.Target.Composition
import Bindery.Proofs.Artifact.Delivery
import Bindery.Proofs.Artifact.Agreement
import Bindery.Proofs.Files.Proper
import Bindery.Proofs.Artifact.Preservation
import Bindery.Proofs.Files.Walk
import Bindery.Proofs.Target.Bundle
import Bindery.Proofs.Target.RoundTrip
import Bindery.Proofs.QualifiedName
import Bindery.Proofs.RenderContext
import Bindery.Proofs.Template.Document
import Bindery.Proofs.Template.Execution
import Bindery.Proofs.Target.Declarations
import Bindery.Proofs.Target.Cpp.Headers
import Bindery.Proofs.Target.Cpp.Agreement
import Bindery.Proofs.Report.Namespaces
import Bindery.Proofs.Report.Duplicates
import Bindery.Proofs.Target.Registration
import Bindery.Proofs.Target.Discovery
import Bindery.Proofs.Sequence
import Bindery.Proofs.Target.Assembly
import Bindery.Proofs.Json.Grammar
import Bindery.Proofs.Json.Acceptance
import Bindery.Proofs.Json.StringAcceptance
import Bindery.Proofs.Json.NumberAcceptance
import Bindery.Proofs.Json.ListAcceptance
import Bindery.Proofs.Json.MemberAcceptance
import Bindery.Proofs.Json.ValueAcceptance
import Bindery.Proofs.Json.Unambiguous
import Bindery.Proofs.Json.Canonical
import Bindery.Proofs.Json.Writing
import Bindery.Proofs.Schema.Acceptance
import Bindery.Proofs.Schema.Contents
import Bindery.Proofs.Schema.RoundTrip
import Bindery.Proofs.Artifact.Aftermath
import Bindery.Proofs.Artifact.Rewriting
import Bindery.Proofs.Artifact.LinkTargets
import Bindery.Proofs.Artifact.Regeneration
import Bindery.Proofs.Files.Relative
import Bindery.Proofs.Report.Preview
import Bindery.Proofs.Files.Limits
import Bindery.Proofs.Files.Relisting
import Bindery.Proofs.Target.BundledFiles
import Bindery.Proofs.Target.DirectoryPlugin
import Bindery.Proofs.DeclaredBodies
import Bindery.Proofs.Target.Identifiers
import Bindery.Proofs.Target.SourceStyle
import Bindery.Proofs.Target.Golang.Source
import Bindery.Proofs.Target.TypeScript.Source
import Bindery.Proofs.Target.Collisions
import Bindery.Proofs.Target.Golang.Lines
import Bindery.Proofs.Target.TypeScript.References
import Bindery.Proofs.Schema.Location
import Bindery.Proofs.Target.Cpp.Lines
import Bindery.Proofs.Target.TypeScript.Lines
import Bindery.Proofs.Target.ArtifactPath
import Bindery.Proofs.Text.TitleCase
import Bindery.Proofs.Target.Golang.FieldNames
import Bindery.Proofs.LegibleName
import Bindery.Proofs.Artifact.Merging
import Bindery.Proofs.Target.PlainTemplate

import FrontendAssets.Text.Basic
import FrontendAssets.Text.Ranges
import FrontendAssets.Text.CaseTables
import FrontendAssets.Text.Lowercase
import FrontendAssets.Text.Printable
import FrontendAssets.Text.DecimalDigit
import FrontendAssets.Text.Hex
import FrontendAssets.Text.Decimal
import FrontendAssets.Text.Quoted
import FrontendAssets.Text.Utf8
import FrontendAssets.Text.Loose
import FrontendAssets.Text.Codec
import FrontendAssets.Text.Latin
import FrontendAssets.Url.Percent
import FrontendAssets.Url.Host
import FrontendAssets.Url.Authority
import FrontendAssets.Url.Reference
import FrontendAssets.Url.Origin
import FrontendAssets.Path.Normal
import FrontendAssets.Path.Basic
import FrontendAssets.Path.FileUrl
import FrontendAssets.Diagnostic
import FrontendAssets.Request.Mount
import FrontendAssets.Request.Target
import FrontendAssets.Request.ServeMarker
import FrontendAssets.MediaType
import FrontendAssets.Arguments.Grammar
import FrontendAssets.Arguments.Token
import FrontendAssets.Arguments.Reading
import FrontendAssets.Config.Override
import FrontendAssets.Config.Basic
import FrontendAssets.Config.Startup
import FrontendAssets.Files.Tree
import FrontendAssets.Files.Refusal
import FrontendAssets.Files.Volume
import FrontendAssets.Bundle
import FrontendAssets.Plan.Basic
import FrontendAssets.Plan.Together
import FrontendAssets.Resolve.Outcome
import FrontendAssets.Resolve.Query
import FrontendAssets.Resolve.Strategy
import FrontendAssets.Http.Scope
import FrontendAssets.Http.Response
import FrontendAssets.Http.Message
import FrontendAssets.App.Query
import FrontendAssets.App.Handle
import FrontendAssets.Session
import FrontendAssets.CommandLine.Usage
import FrontendAssets.CommandLine.Invocation
import FrontendAssets.CommandLine.Run
import FrontendAssets.Catalogue
import FrontendAssets.Main
import FrontendAssets.Proofs.Checks
import FrontendAssets.Proofs.MediaType
import FrontendAssets.Proofs.Text.Segments
import FrontendAssets.Proofs.Text.LowercaseCut
import FrontendAssets.Proofs.Text.Lowercase
import FrontendAssets.Proofs.Arguments.Reading
import FrontendAssets.Proofs.Path.Collapse
import FrontendAssets.Proofs.Path.Normal
import FrontendAssets.Proofs.Path.Place
import FrontendAssets.Proofs.Path.Containment
import FrontendAssets.Proofs.Url.Quoted
import FrontendAssets.Proofs.Url.Reference
import FrontendAssets.Proofs.Url.Origin
import FrontendAssets.Proofs.Url.Decorated
import FrontendAssets.Proofs.Url.LastSegment
import FrontendAssets.Proofs.Url.Lengths
import FrontendAssets.Proofs.Path.FileUrl
import FrontendAssets.Proofs.Config.Override
import FrontendAssets.Proofs.Config.Startup
import FrontendAssets.Proofs.Files.Locations
import FrontendAssets.Proofs.Files.Reading
import FrontendAssets.Proofs.Files.Writing
import FrontendAssets.Proofs.Bundle
import FrontendAssets.Proofs.Request.CleanNames
import FrontendAssets.Proofs.Request.Mount
import FrontendAssets.Proofs.Request.Quoted
import FrontendAssets.Proofs.Request.Target
import FrontendAssets.Proofs.Resolve.Run
import FrontendAssets.Proofs.Resolve.Confinement
import FrontendAssets.Proofs.Resolve.Strategies
import FrontendAssets.Proofs.Resolve.Decomposition
import FrontendAssets.Proofs.Resolve.Interchange
import FrontendAssets.Proofs.Resolve.Reach
import FrontendAssets.Proofs.Resolve.Decoration
import FrontendAssets.Proofs.Resolve.ContentType
import FrontendAssets.Proofs.Http.Message
import FrontendAssets.Proofs.Http.Escaped
import FrontendAssets.Proofs.App.Run
import FrontendAssets.Proofs.App.Head
import FrontendAssets.Proofs.App.Mount
import FrontendAssets.Proofs.App.Answer
import FrontendAssets.Proofs.App.Responder
import FrontendAssets.Proofs.Http.Address
import FrontendAssets.Proofs.App.Reach
import FrontendAssets.Proofs.Session
import FrontendAssets.Proofs.CommandLine.Ends
import FrontendAssets.Proofs.CommandLine.Agreement
import FrontendAssets.Proofs.CommandLine.Arrangement
import FrontendAssets.Proofs.Http.Root
import FrontendAssets.Proofs.App.Root
import FrontendAssets.Proofs.Request.ServeMarker
import FrontendAssets.Proofs.Request.Decoding
import FrontendAssets.Proofs.Request.MarkedNames
import FrontendAssets.Proofs.Resolve.Markers
import FrontendAssets.Proofs.Resolve.Alarms
import FrontendAssets.Proofs.App.Sending
import FrontendAssets.Proofs.App.Lifespan
import FrontendAssets.Proofs.Files.Ways
import FrontendAssets.Proofs.Bundle.Loading
import FrontendAssets.Proofs.Request.DotSegments
import FrontendAssets.Proofs.Request.LetterCase
import FrontendAssets.Proofs.MediaType.Extension

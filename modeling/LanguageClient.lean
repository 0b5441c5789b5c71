import LanguageClient.Main
import LanguageClient.Server.Transport
import LanguageClient.Proofs.Client.Cancellation
import LanguageClient.Proofs.Client.Handlers
import LanguageClient.Proofs.Frame.Segment
import LanguageClient.Proofs.Frame.Offsets
import LanguageClient.Proofs.Frame.Draining
import LanguageClient.Proofs.Server.Session
import LanguageClient.Proofs.Server.Stop
import LanguageClient.Proofs.Client.Identifiers
import LanguageClient.Proofs.Rpc.Envelope
import LanguageClient.Proofs.Client.Answers
import LanguageClient.Proofs.Document.SemanticTokens
import LanguageClient.Proofs.Frame.Discarding
import LanguageClient.Proofs.Document.Forest
import LanguageClient.Proofs.Document.Symbol
import LanguageClient.Proofs.Client.Failure
import LanguageClient.Proofs.Document.Plan
import LanguageClient.Proofs.Document.Placement
import LanguageClient.Proofs.Document.Arena
import LanguageClient.Proofs.Document.Signature
import LanguageClient.Proofs.Document.Edit
import LanguageClient.Proofs.Document.Diagnostic
import LanguageClient.Proofs.Uri.Normal
import LanguageClient.Proofs.Rpc.Reread
import LanguageClient.Proofs.Frame.Guarded

import SenderPolicy.Json.Printer
import SenderPolicy.Main
import SenderPolicy.Outcome.Json
import SenderPolicy.Proofs.Rejections
import SenderPolicy.Proofs.Verdict
import SenderPolicy.Reload
import SenderPolicy.Settings.Json
import SenderPolicy.Proofs.DirectiveText
import SenderPolicy.Proofs.Content
import SenderPolicy.Proofs.RedirectMode
import SenderPolicy.Proofs.Listing
import SenderPolicy.Proofs.LoadedTerms
import SenderPolicy.Proofs.Editing
import SenderPolicy.Proofs.Composition
import SenderPolicy.Proofs.NetworkTerm
import SenderPolicy.Proofs.Inspection
import SenderPolicy.Proofs.EditHistory
import SenderPolicy.Proofs.TxtStrings
import SenderPolicy.Proofs.ZoneText
import SenderPolicy.Proofs.RequestValue
import SenderPolicy.Proofs.Text.Lines
import SenderPolicy.Proofs.CommandLine
import SenderPolicy.Proofs.NetworkText
import SenderPolicy.Proofs.HostNameGrammar
import SenderPolicy.Proofs.RequestFile
import SenderPolicy.Proofs.PrefixLength
import SenderPolicy.Proofs.JsonForm
import SenderPolicy.Proofs.TopLabel
import SenderPolicy.Proofs.ValueKinds

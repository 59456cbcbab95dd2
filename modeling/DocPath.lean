import DocPath.Path
import DocPath.Json.Reader
import DocPath.Json.Writer
import DocPath.Yaml.Reader
import DocPath.Yaml.Writer
import DocPath.Config.Toml
import DocPath.Proofs.Action
import DocPath.Proofs.Reached
import DocPath.Proofs.Exchange
import DocPath.Proofs.VisitOrder
import DocPath.Proofs.Rewrite
import DocPath.Proofs.Identity
import DocPath.Proofs.PutGet
import DocPath.Proofs.Frame
import DocPath.Proofs.Independence
import DocPath.Proofs.Concatenation
import DocPath.Proofs.Fusion
import DocPath.Proofs.Hereditary
import DocPath.Proofs.EntryOrder
import DocPath.Proofs.Kinds
import DocPath.Proofs.FirstFailure
import DocPath.Proofs.Insertion
import DocPath.Proofs.Filtering
import DocPath.Proofs.Realignment
import DocPath.Proofs.Removal
import DocPath.Proofs.JsonText
import DocPath.Proofs.InsertionResult
import DocPath.Proofs.Parts
import DocPath.Proofs.Renaming
import DocPath.Proofs.Expansion
import DocPath.Proofs.StackedFilters
import DocPath.Proofs.Choice
import DocPath.Proofs.Addressing

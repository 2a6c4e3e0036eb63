import Phrasebook.Files.Disk
import Phrasebook.Main
import Phrasebook.Proofs.Catalog.Document
import Phrasebook.Proofs.Catalog.Draft
import Phrasebook.Proofs.Catalog.Reading
import Phrasebook.Proofs.Catalog.Content
import Phrasebook.Proofs.Yaml.Keys
import Phrasebook.Proofs.Catalog.Acceptance
import Phrasebook.Proofs.Catalog.Names
import Phrasebook.Proofs.Catalog.Retention
import Phrasebook.Proofs.Catalog.Strictness
import Phrasebook.Proofs.Catalog.Comparison
import Phrasebook.Proofs.Catalog.Occurrence
import Phrasebook.Proofs.Catalog.EntryKey
import Phrasebook.Proofs.Catalog.LanguageKey
import Phrasebook.Proofs.Catalog.Naming
import Phrasebook.Proofs.Catalog.Resolution
import Phrasebook.Proofs.Code.Arm
import Phrasebook.Proofs.Code.Balance
import Phrasebook.Proofs.Code.Call
import Phrasebook.Proofs.Code.Capture
import Phrasebook.Proofs.Code.Embedding
import Phrasebook.Proofs.Preview.Agreement
import Phrasebook.Proofs.Preview.Bytewise
import Phrasebook.Proofs.Preview.Meaning
import Phrasebook.Proofs.Preview.Skipping
import Phrasebook.Proofs.Command.Freshness
import Phrasebook.Proofs.Command.Findings
import Phrasebook.Proofs.Command.Session
import Phrasebook.Proofs.Code.WellFormed
import Phrasebook.Proofs.Settings.Discovery

import Keyring.Main
import Keyring.Proofs.Credential
import Keyring.Proofs.Load.Account
import Keyring.Proofs.Load.Isolation
import Keyring.Proofs.RawKey
import Keyring.Proofs.Registry.Place
import Keyring.Proofs.Registry.Register
import Keyring.Proofs.Registry.Sequence
import Keyring.Proofs.Contents
import Keyring.Proofs.Load.Image
import Keyring.Proofs.Secrets
import Keyring.Proofs.CommandLine
import Keyring.Proofs.CommandLine.Output
import Keyring.Proofs.Lockstep
import Keyring.Proofs.Yaml.PrivateKey.Graph
import Keyring.Proofs.Yaml.PrivateKey.Nodes
import Keyring.Proofs.Yaml.PrivateKey.Merge
import Keyring.Proofs.Yaml.PrivateKey.Values
import Keyring.Proofs.Yaml.PrivateKey.Document
import Keyring.Proofs.Yaml.Complaint
import Keyring.Proofs.PrivateKey
import Keyring.Proofs.Load.PrivateKey
import Keyring.Proofs.Load.Rename
import Keyring.Proofs.Scan.Listing
import Keyring.Proofs.Failure.Chain
import Keyring.Proofs.LineEnds
import Keyring.Proofs.Keystore
import Keyring.Proofs.MetadataFile.LineEnds
import Keyring.Proofs.Load.RootCause
import Keyring.Proofs.Registry.Clash
import Keyring.Proofs.HexText
import Keyring.Proofs.Yaml.WholeNumber
import Keyring.Proofs.Yaml.Endless
import Keyring.Proofs.Scan.Extension
import Keyring.Proofs.RelativePath
import Keyring.Proofs.HandlerFailure
import Keyring.Proofs.Failure.Cycle
import Keyring.Proofs.Credential.Identity
import Keyring.Proofs.Aggregator.Shared

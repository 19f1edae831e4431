import NameRegistry.Config.Document
import NameRegistry.Machine
import NameRegistry.Proofs.Balance
import NameRegistry.Proofs.Lookup
import NameRegistry.Proofs.Namesakes
import NameRegistry.Proofs.Names
import NameRegistry.Proofs.Alike
import NameRegistry.Proofs.Alternation
import NameRegistry.Proofs.FlatView
import NameRegistry.Proofs.Leads
import NameRegistry.Proofs.Resolution
import NameRegistry.Proofs.OrderedMap
import NameRegistry.Proofs.AsMap
import NameRegistry.Proofs.Causes
import NameRegistry.Proofs.Dependencies
import NameRegistry.Proofs.Delivery
import NameRegistry.Proofs.Hidden
import NameRegistry.Proofs.Visits
import NameRegistry.Proofs.AllOrNothing
import NameRegistry.Proofs.Removal
import NameRegistry.Proofs.Confined
import NameRegistry.Proofs.Readings
import NameRegistry.Proofs.ThroughView
import NameRegistry.Proofs.Observers
import NameRegistry.Proofs.Undoing
import NameRegistry.Proofs.Bulk
import NameRegistry.Proofs.ShortNames
import NameRegistry.Proofs.Proposals
import NameRegistry.Proofs.ByteOrder
import NameRegistry.Proofs.DocumentKeys
import NameRegistry.Proofs.EnoughFuel
import NameRegistry.Proofs.TomlReader
import NameRegistry.Proofs.Settings
import NameRegistry.Proofs.SetOfMembers
import NameRegistry.Proofs.OrderOfAddition

import StyleBlock.Import.Memory
import StyleBlock.Main
import StyleBlock.Queue.Session
import StyleBlock.Template.Record
import StyleBlock.Proofs.ClassMeaning
import StyleBlock.Proofs.Applying
import StyleBlock.Proofs.GeneratedNames
import StyleBlock.Proofs.ClassesOnly
import StyleBlock.Proofs.BlockNames
import StyleBlock.Proofs.Driving
import StyleBlock.Proofs.SingleFlight
import StyleBlock.Proofs.SheetReading
import StyleBlock.Proofs.WaitingLoads
import StyleBlock.Proofs.FailedCalls
import StyleBlock.Proofs.Intersection
import StyleBlock.Proofs.Renderings
import StyleBlock.Proofs.Conservation
import StyleBlock.Proofs.NameNumbers
import StyleBlock.Proofs.SettledInheritance
import StyleBlock.Proofs.Interfaces
import StyleBlock.Proofs.LegalSelectors
import StyleBlock.Proofs.ObjectModel
import StyleBlock.Proofs.Locations
import StyleBlock.Proofs.PropertyConflicts
import StyleBlock.Proofs.RuleNumbers
import StyleBlock.Proofs.ImportHistory
import StyleBlock.Proofs.WrittenAnalysis

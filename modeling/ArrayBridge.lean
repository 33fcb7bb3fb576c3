import ArrayBridge.Command
import ArrayBridge.Main
import ArrayBridge.Proofs.Argument
import ArrayBridge.Proofs.Construction
import ArrayBridge.Proofs.ElementAccess
import ArrayBridge.Proofs.FieldName.Supply
import ArrayBridge.Proofs.Marshalling
import ArrayBridge.Proofs.Parameter.Packed
import ArrayBridge.Proofs.QueryResult
import ArrayBridge.Proofs.Refusal
import ArrayBridge.Proofs.Session
import ArrayBridge.Proofs.Settings
import ArrayBridge.Proofs.SingleByte
import ArrayBridge.Proofs.SizeLimit
import ArrayBridge.Proofs.Sql.FloatText
import ArrayBridge.Proofs.Sql.LeadingNumber
import ArrayBridge.Proofs.Sql.Regex
import ArrayBridge.Proofs.Stateful
import ArrayBridge.Proofs.StoredArray
import ArrayBridge.Proofs.Traversal
import ArrayBridge.Proofs.TypedBlob.Extent
import ArrayBridge.Proofs.TypedBlob.Mirror
import ArrayBridge.Proofs.TypedBlob.NameField
import ArrayBridge.Proofs.TypedBlob.Origin
import ArrayBridge.Proofs.UniqueFields
import ArrayBridge.Proofs.TextLength
import ArrayBridge.Proofs.ElementStorage
import ArrayBridge.Proofs.Sql.Shorthand
import ArrayBridge.Proofs.StatementText

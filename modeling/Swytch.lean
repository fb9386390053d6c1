import Swytch.Sql.CatalogRuns
import Swytch.Sql.Residue
import Swytch.Sql.Refusals
import Swytch.Sql.KeyCodec
import Swytch.Sql.Savepoints
import Swytch.Sql.OwnWrites
import Swytch.Redis.AclRules
import Swytch.Redis.AclFile
import Swytch.Redis.Scripts
import Swytch.Redis.KeyLocks
import Swytch.Redis.Waiters
import Swytch.Redis.Moves
import Swytch.Redis.TypeChecks
import Swytch.Redis.KeyScan
import Swytch.Redis.Expiry
import Swytch.Redis.CountSafety
import Swytch.Redis.Protocol
import Swytch.Redis.KeyExtraction
import Swytch.Redis.OneValue
import Swytch.Redis.Subscriptions
import Swytch.Sql.KeySpace
import Swytch.Redis.ReplyFraming
import Swytch.Redis.StreamRemovals
import Swytch.Redis.Sorting
import Swytch.Redis.ListRemoval
import Swytch.Redis.SortedSets
import Swytch.Redis.JsonSlices
import Swytch.Redis.Geohash
import Swytch.Caddy.Refreshers

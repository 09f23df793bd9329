import Bgpgg.Rib.PathOrder
import Bgpgg.Server.LocalRoutes
import Bgpgg.Wire.EndOfRib
import Bgpgg.Wire.DuplicateAttrs
import Bgpgg.Policies.MatchOptions
import Bgpgg.Server.SecondOpen
import Bgpgg.Rib.OldSpeaker
import Bgpgg.Peer.Accepted
import Bgpgg.Peer.MessageSize
import Bgpgg.Server.StaleSafety
import Bgpgg.Server.Reevaluation
import Bgpgg.Rpki.OriginValidation
import Bgpgg.Table.PrefixIdentity
import Bgpgg.Rpki.CacheSync
import Bgpgg.Rpki.Expiry
import Bgpgg.Peer.Shutdown
import Bgpgg.Peer.Isolation
import Bgpgg.Peer.OpenRoundTrip
import Bgpgg.Rpki.RtrReader
import Bgpgg.Bmp.Stream
import Bgpgg.Server.Reflection
import Bgpgg.Wire.LsIdentity
import Bgpgg.Server.Monitored
import Bgpgg.Server.InOrder
import Bgpgg.Peer.Disclosure
import Bgpgg.Shell.SessionLock

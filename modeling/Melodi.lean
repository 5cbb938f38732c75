import Melodi.System.Nonce
import Melodi.Core.KeyCheck
import Melodi.System.Policy
import Melodi.System.StateChange
import Melodi.System.Reservations
import Melodi.System.Promises
import Melodi.Proto.AirtimeRuns
import Melodi.Proto.Histories
import Melodi.Proto.ReliabilityRuns
import Melodi.Core.NetlinkParse
import Melodi.System.StaleKeys
import Melodi.System.OrderedFlow
import Melodi.System.Joining
import Melodi.System.Fairness
import Melodi.System.PeerFairness
import Melodi.System.Admission
import Melodi.System.Acks
import Melodi.Core.FrameSizes
import Melodi.Usb.Charge
import Melodi.Usb.Credits
import Melodi.System.Fragments
import Melodi.System.Discovered

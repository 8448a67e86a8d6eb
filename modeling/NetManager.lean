import NetManager.Clat.Checksum
import NetManager.Common.Hostname
import NetManager.Common.TimingWheel
import NetManager.Conn.RulesFollow
import NetManager.Conn.SecurityConfig
import NetManager.ConnService.BestRuns
import NetManager.ConnService.Controller
import NetManager.ConnService.PacFunctions
import NetManager.ConnService.Returns
import NetManager.Dns.TtlBound
import NetManager.Dns.UidRange
import NetManager.Firewall.Conntrack
import NetManager.Firewall.DomainBlob
import NetManager.Firewall.DomainKeys
import NetManager.Firewall.FieldClassifier
import NetManager.Firewall.InterceptRecord
import NetManager.Firewall.Ip4Classifier
import NetManager.Firewall.Ip6Cut
import NetManager.Firewall.RuleCount
import NetManager.Http.Accounting
import NetManager.Http.CacheProxy
import NetManager.Http.Conserved
import NetManager.Http.Downloader
import NetManager.Mdns.Framing
import NetManager.Mdns.Goodbye
import NetManager.Mdns.RoundTrip
import NetManager.NetStats.OneMoment
import NetManager.NetStats.Pushed
import NetManager.NetStats.TrafficManager
import NetManager.Policy.DeniedList
import NetManager.Policy.FileCrash
import NetManager.Policy.Period
import NetManager.Policy.Restart
import NetManager.Share.LeavesNothing
import NetManager.Share.NoForwarding
import NetManager.Slice.Available
import NetManager.Slice.Matching
import NetManager.Slice.PolicySections
import NetManager.Slice.Unsolicited

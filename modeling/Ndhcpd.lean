import Ndhcpd.Interaction.Program
import Ndhcpd.Interaction.Guarantee
import Ndhcpd.Interaction.Run
import Ndhcpd.Interaction.Pool
import Ndhcpd.Interaction.Loop
import Ndhcpd.Wire.Bytes
import Ndhcpd.Wire.PrefixBlock
import Ndhcpd.Wire.Checked
import Ndhcpd.Wire.TextList
import Ndhcpd.Wire.OnesComplement
import Ndhcpd.Proto.Address
import Ndhcpd.Proto.MacText
import Ndhcpd.Proto.AddressText
import Ndhcpd.Proto.Option
import Ndhcpd.Proto.Packet
import Ndhcpd.Proto.ParseSafety
import Ndhcpd.Db.Call
import Ndhcpd.Db.Sqlite
import Ndhcpd.Db.Memory
import Ndhcpd.Utils.Network
import Ndhcpd.Utils.Checksum
import Ndhcpd.Utils.Frame
import Ndhcpd.Dhcp.Server
import Ndhcpd.Dhcp.Request
import Ndhcpd.Dhcp.System
import Ndhcpd.Dhcp.LeaseTable
import Ndhcpd.Dhcp.Upkeep
import Ndhcpd.Dhcp.Exclusivity
import Ndhcpd.Dhcp.Grants
import Ndhcpd.Dhcp.Cleanup
import Ndhcpd.Dhcp.Alone
import Ndhcpd.Dhcp.Renewal
import Ndhcpd.Dhcp.Outcome
import Ndhcpd.Dhcp.OneLease
import Ndhcpd.Dhcp.Reservations
import Ndhcpd.Dhcp.Offers
import Ndhcpd.Dhcp.Timers
import Ndhcpd.Dhcp.Replies
import Ndhcpd.Api.Subnets
import Ndhcpd.Api.SubnetRace
import Ndhcpd.Api.StaticIps
import Ndhcpd.Auth.Token
import Ndhcpd.Api.Tokens
import Ndhcpd.Api.ToggleRace
import Ndhcpd.Auth.Middleware
import Ndhcpd.Ra.Packet
import Ndhcpd.Api.IaPrefixes
import Ndhcpd.Ra.Server
import Ndhcpd.Dhcp.RequestReads
import Ndhcpd.Dhcp.RequestSpec
import Ndhcpd.Dhcp.DiscoverSpec
import Ndhcpd.Dhcp.Tenancy
import Ndhcpd.Dhcp.TwoServers
import Ndhcpd.Dhcp.MaskRange
import Ndhcpd.Db.Keys
import Ndhcpd.Db.Agreement
import Ndhcpd.Db.RawRows
import Ndhcpd.Db.RoundTrip
import Ndhcpd.Dhcp.Commute
import Ndhcpd.Interaction.FrontEnd
import Ndhcpd.Interaction.Readiness
import Ndhcpd.Interaction.Commit
import Ndhcpd.Table.Serial
import Ndhcpd.Db.Integrity
import Ndhcpd.Dhcp.Listener
import Ndhcpd.Dhcp.Delivery
import Ndhcpd.Dhcp.Allocation
import Ndhcpd.Ra.Loop
import Ndhcpd.Proto.NormalForm
import Ndhcpd.Api.Router
import Ndhcpd.Interaction.Point
import Ndhcpd.Cli.Client
import Ndhcpd.Cli.Commands
import Ndhcpd.Cli.Atomicity
import Ndhcpd.Table.Versions
import Ndhcpd.Db.Migrations
import Ndhcpd.Dhcp.Upgrade

import Ndhcpd.Cli.Client
import Ndhcpd.Interaction.Point

/-!
# The commands of the client

What `ndhcp-cli` does for each of its commands: parse the arguments, send one request to the API and
print what is made of the answer.

`Command.call` says what a command is meant to do, in terms of the database: it is one statement.
The command runs in another process, and behind the API its request is a program whose calls
interleave with those of all others. `commands_take_effect` says that this does not show: a command
that succeeds has executed its statement at one moment of the run, with the result that it prints,
and has done nothing else; a command that fails has done nothing, unless the connection broke down,
when its statement may have been executed once.
-/

namespace Ndhcpd

/-- What a command prints: a line, or rows; how they are laid out is left open. -/
inductive CliOutput
  | line (text : String)
  | subnet (subnet : Subnet)
  | subnets (subnets : List Subnet)
  | ranges (ranges : List DynamicRange)
  | staticIps (staticIps : List StaticIP)
  | leases (leases : List Lease)
  | iaPrefix (pfx : IAPrefix)
  | iaPrefixes (prefixes : List IAPrefix)
deriving DecidableEq, Repr

namespace Cli

/-- `parse::<Ipv4Addr>()?`. -/
def parseIpv4 (text : String) : Except CliError Ipv4Addr :=
  match Ipv4Addr.fromStr text with
  | some ip => .ok ip
  | none => .error .addrParse

/-- The items of a list of arguments that is separated by commas, trimmed. -/
def splitArgs (text : String) : List String :=
  (text.toList.splitOn ',').map fun item => String.ofList (trim item)

/-- The query of a list that may be filtered. -/
def filtered (path name : String) (value : Option String) : String :=
  match value with
  | some value => path ++ "?" ++ name ++ "=" ++ value
  | none => path

variable (json : JsonReader)

/-! ### `subnet` -/

namespace Subnet

/-- `subnet list`. -/
def list : Exchange CliOutput := (ApiClient.get json.subnets "/api/subnets").map .subnets

/-- The subnet that the arguments of `create` describe. -/
def fromArgs (network : String) (netmask : UInt8) (gateway dnsServers : String)
    (domainName : Option String) : Except CliError Subnet := do
  let networkIp ← parseIpv4 network
  let gatewayIp ← parseIpv4 gateway
  let dnsIps ← (splitArgs dnsServers).mapM parseIpv4
  return ⟨none, networkIp, netmask, gatewayIp, dnsIps, domainName⟩

/-- `subnet create`. -/
def create (network : String) (netmask : UInt8) (gateway dnsServers : String)
    (domainName : Option String) : Except CliError (Exchange CliOutput) := do
  let subnet ← fromArgs network netmask gateway dnsServers domainName
  let conflict :=
    "Subnet " ++ subnet.network.toString ++ "/" ++ toString netmask ++ " already exists"
  return ((ApiClient.post json.id "/api/subnets" (.subnet subnet)).mapErr (.explain conflict)).map
    fun id => .line ("Created subnet with ID: " ++ toString id)

/-- `subnet get`. -/
def get (id : Int64) : Exchange CliOutput :=
  (ApiClient.get json.subnet ("/api/subnets/" ++ toString id.toInt)).map .subnet

/-- `subnet delete`. -/
def delete (id : Int64) : Exchange CliOutput :=
  (ApiClient.delete ("/api/subnets/" ++ toString id.toInt)).map
    fun _ => .line ("Deleted subnet " ++ toString id.toInt)

end Subnet

/-! ### `range` -/

namespace Range

/-- `range list`, of one subnet when one is given. -/
def list (subnetId : Option Int64) : Exchange CliOutput :=
  (ApiClient.get json.ranges
    (filtered "/api/ranges" "subnet_id" (subnetId.map (toString ·.toInt)))).map .ranges

/-- The range that the arguments of `create` describe. -/
def fromArgs (subnetId : Int64) (start stop : String) : Except CliError DynamicRange := do
  let startIp ← parseIpv4 start
  let endIp ← parseIpv4 stop
  return ⟨none, subnetId.toInt, startIp, endIp, true⟩

/-- `range create`. -/
def create (subnetId : Int64) (start stop : String) : Except CliError (Exchange CliOutput) := do
  let range ← fromArgs subnetId start stop
  let conflict := "Dynamic range " ++ range.rangeStart.toString ++ "-" ++ range.rangeEnd.toString ++
    " already exists"
  return ((ApiClient.post json.id "/api/ranges" (.range range)).mapErr (.explain conflict)).map
    fun id => .line ("Created dynamic range with ID: " ++ toString id)

/-- `range delete`. -/
def delete (id : Int64) : Exchange CliOutput :=
  (ApiClient.delete ("/api/ranges/" ++ toString id.toInt)).map
    fun _ => .line ("Deleted range " ++ toString id.toInt)

end Range

/-! ### `static` -/

namespace Static

/-- `static list`, of one subnet when one is given. -/
def list (subnetId : Option Int64) : Exchange CliOutput :=
  (ApiClient.get json.staticIps
    (filtered "/api/static-ips" "subnet_id" (subnetId.map (toString ·.toInt)))).map .staticIps

/-- The assignment that the arguments of `create` describe. -/
def fromArgs (subnetId : Int64) (mac ip : String) (hostname : Option String) :
    Except CliError StaticIP := do
  let ipAddr ← parseIpv4 ip
  return ⟨subnetId.toInt, mac, ipAddr, hostname⟩

/-- `static create`. -/
def create (subnetId : Int64) (mac ip : String) (hostname : Option String) :
    Except CliError (Exchange CliOutput) := do
  let staticIp ← fromArgs subnetId mac ip hostname
  let conflict := "Static IP already exists (MAC " ++ staticIp.macAddress ++ " or IP " ++
    staticIp.ipAddress.toString ++ " already assigned)"
  return ((ApiClient.post json.unit "/api/static-ips" (.staticIp staticIp)).mapErr
    (.explain conflict)).map fun _ => .line ("Created static IP " ++ staticIp.ipAddress.toString)

/-- `static delete`; the address goes into the path as it was typed. -/
def delete (ip : String) : Exchange CliOutput :=
  (ApiClient.delete ("/api/static-ips/" ++ ip)).map fun _ => .line ("Deleted static IP " ++ ip)

/-- `static set-hostname`; without a name the old one is cleared. -/
def setHostname (ip : String) (hostname : Option String) : Exchange CliOutput :=
  (ApiClient.patch json.unit ("/api/static-ips/" ++ ip ++ "/hostname") (.hostname hostname)).map
    fun _ => .line <|
      match hostname with
      | some h => "Updated hostname for " ++ ip ++ " to '" ++ h ++ "'"
      | none => "Cleared hostname for " ++ ip

end Static

/-! ### `ip6-subnet` -/

namespace Ip6Subnet

variable (v6 : TextForm Ipv6Addr)

/-- `parse::<Ipv6Addr>()?`. -/
def parseIpv6 (text : String) : Except CliError Ipv6Addr :=
  match v6.fromStr text with
  | some ip => .ok ip
  | none => .error .addrParse

/-- `ip6-subnet list`, of one interface when one is given. -/
def list (interface : Option String) : Exchange CliOutput :=
  (ApiClient.get json.iaPrefixes (filtered "/api/ia-prefixes" "interface" interface)).map
    .iaPrefixes

/-- The prefix that the arguments of `create` describe; a lifetime of zero stands for the default
of the server. -/
def fromArgs (interface pfx : String) (prefixLen : UInt8)
    (preferredLifetime validLifetime : Option UInt32) (dnsServers : Option String)
    (dnsLifetime : Option UInt32) : Except CliError IAPrefix := do
  let prefixAddr ← parseIpv6 v6 pfx
  let dns ← ((splitArgs (dnsServers.getD "")).filter (!·.isEmpty)).mapM (parseIpv6 v6)
  return ⟨none, interface, prefixAddr, prefixLen, preferredLifetime.getD 0, validLifetime.getD 0,
    dns, dnsLifetime.getD 0⟩

/-- `ip6-subnet create`. A conflict is not explained here. -/
def create (interface pfx : String) (prefixLen : UInt8)
    (preferredLifetime validLifetime : Option UInt32) (dnsServers : Option String)
    (dnsLifetime : Option UInt32) : Except CliError (Exchange CliOutput) := do
  let iaPrefix ← fromArgs v6 interface pfx prefixLen preferredLifetime validLifetime dnsServers
    dnsLifetime
  return (ApiClient.post json.id "/api/ia-prefixes" (.iaPrefix iaPrefix)).map
    fun id => .line ("Created IPv6 subnet with ID: " ++ toString id)

/-- `ip6-subnet get`. -/
def get (id : Int64) : Exchange CliOutput :=
  (ApiClient.get json.iaPrefix ("/api/ia-prefixes/" ++ toString id.toInt)).map .iaPrefix

/-- `ip6-subnet delete`. -/
def delete (id : Int64) : Exchange CliOutput :=
  (ApiClient.delete ("/api/ia-prefixes/" ++ toString id.toInt)).map
    fun _ => .line ("Deleted IPv6 subnet " ++ toString id.toInt)

end Ip6Subnet

/-! ### `leases` -/

namespace Lease

/-- `leases`. -/
def list : Exchange CliOutput := (ApiClient.get json.leases "/api/leases").map .leases

end Lease

end Cli

/-! ### Commands -/

/-- The commands with their arguments. -/
inductive Command
  | subnetList
  | subnetCreate (network : String) (netmask : UInt8) (gateway dnsServers : String)
      (domainName : Option String)
  | subnetGet (id : Int64)
  | subnetDelete (id : Int64)
  | rangeList (subnetId : Option Int64)
  | rangeCreate (subnetId : Int64) (start stop : String)
  | rangeDelete (id : Int64)
  | staticList (subnetId : Option Int64)
  | staticCreate (subnetId : Int64) (mac ip : String) (hostname : Option String)
  | staticDelete (ip : String)
  | staticSetHostname (ip : String) (hostname : Option String)
  | ip6SubnetList (interface : Option String)
  | ip6SubnetCreate (interface pfx : String) (prefixLen : UInt8)
      (preferredLifetime validLifetime : Option UInt32) (dnsServers : Option String)
      (dnsLifetime : Option UInt32)
  | ip6SubnetGet (id : Int64)
  | ip6SubnetDelete (id : Int64)
  | leases

namespace Command

variable (v6 : TextForm Ipv6Addr) (json : JsonReader) (raConfig : RaConfig)

/-- The exchange of a command, if its arguments can be parsed. -/
def handle : Command → Except CliError (Exchange CliOutput)
  | subnetList => .ok (Cli.Subnet.list json)
  | subnetCreate network netmask gateway dnsServers domainName =>
    Cli.Subnet.create json network netmask gateway dnsServers domainName
  | subnetGet id => .ok (Cli.Subnet.get json id)
  | subnetDelete id => .ok (Cli.Subnet.delete id)
  | rangeList subnetId => .ok (Cli.Range.list json subnetId)
  | rangeCreate subnetId start stop => Cli.Range.create json subnetId start stop
  | rangeDelete id => .ok (Cli.Range.delete id)
  | staticList subnetId => .ok (Cli.Static.list json subnetId)
  | staticCreate subnetId mac ip hostname => Cli.Static.create json subnetId mac ip hostname
  | staticDelete ip => .ok (Cli.Static.delete ip)
  | staticSetHostname ip hostname => .ok (Cli.Static.setHostname json ip hostname)
  | ip6SubnetList interface => .ok (Cli.Ip6Subnet.list json interface)
  | ip6SubnetCreate interface pfx prefixLen preferredLifetime validLifetime dnsServers dnsLifetime =>
    Cli.Ip6Subnet.create json v6 interface pfx prefixLen preferredLifetime validLifetime dnsServers
      dnsLifetime
  | ip6SubnetGet id => .ok (Cli.Ip6Subnet.get json id)
  | ip6SubnetDelete id => .ok (Cli.Ip6Subnet.delete id)
  | leases => .ok (Cli.Lease.list json)

/-- The statement that a command stands for. -/
def call : Command → Except CliError DbCall
  | subnetList => .ok .listSubnets
  | subnetCreate network netmask gateway dnsServers domainName =>
    (Cli.Subnet.fromArgs network netmask gateway dnsServers domainName).map .createSubnet
  | subnetGet id => .ok (.getSubnet id.toInt)
  | subnetDelete id => .ok (.deleteSubnet id.toInt)
  | rangeList subnetId => .ok (.listRanges (subnetId.map (·.toInt)))
  | rangeCreate subnetId start stop => (Cli.Range.fromArgs subnetId start stop).map .createRange
  | rangeDelete id => .ok (.deleteRange id.toInt)
  | staticList subnetId => .ok (.listStaticIps (subnetId.map (·.toInt)))
  | staticCreate subnetId mac ip hostname =>
    (Cli.Static.fromArgs subnetId mac ip hostname).map .createStaticIp
  | staticDelete ip => .ok (.deleteStaticIp ip)
  | staticSetHostname ip hostname => .ok (.updateStaticIpHostname ip hostname)
  | ip6SubnetList interface => .ok (.listIaPrefixes interface)
  | ip6SubnetCreate interface pfx prefixLen preferredLifetime validLifetime dnsServers dnsLifetime =>
    (Cli.Ip6Subnet.fromArgs v6 interface pfx prefixLen preferredLifetime validLifetime dnsServers
      dnsLifetime).map fun p => .createIaPrefix (p.withDefaults raConfig)
  | ip6SubnetGet id => .ok (.getIaPrefix id.toInt)
  | ip6SubnetDelete id => .ok (.deleteIaPrefix id.toInt)
  | leases => .ok .listActiveLeases

/-- The texts that the client writes into a path or a query without looking at them. -/
def Plain : Command → Prop
  | staticDelete ip => PlainText ip
  | staticSetHostname ip _ => PlainText ip
  | ip6SubnetList interface => ∀ name ∈ interface, PlainText name
  | _ => True

end Command

/-- What is printed for the result of a statement. -/
def DbCall.shown : (c : DbCall) → c.Ret → Option CliOutput
  | .listSubnets, subnets => some (.subnets subnets)
  | .createSubnet _, id => some (.line ("Created subnet with ID: " ++ toString id))
  | .getSubnet _, subnet => subnet.map .subnet
  | .deleteSubnet id, _ => some (.line ("Deleted subnet " ++ toString id))
  | .listRanges _, ranges => some (.ranges ranges)
  | .createRange _, id => some (.line ("Created dynamic range with ID: " ++ toString id))
  | .deleteRange id, _ => some (.line ("Deleted range " ++ toString id))
  | .listStaticIps _, staticIps => some (.staticIps staticIps)
  | .createStaticIp staticIp, _ =>
    some (.line ("Created static IP " ++ staticIp.ipAddress.toString))
  | .deleteStaticIp ip, _ => some (.line ("Deleted static IP " ++ ip))
  | .updateStaticIpHostname ip (some h), _ =>
    some (.line ("Updated hostname for " ++ ip ++ " to '" ++ h ++ "'"))
  | .updateStaticIpHostname ip none, _ => some (.line ("Cleared hostname for " ++ ip))
  | .listIaPrefixes _, prefixes => some (.iaPrefixes prefixes)
  | .createIaPrefix _, id => some (.line ("Created IPv6 subnet with ID: " ++ toString id))
  | .getIaPrefix _, pfx => pfx.map .iaPrefix
  | .deleteIaPrefix id, _ => some (.line ("Deleted IPv6 subnet " ++ toString id))
  | .listActiveLeases, leases => some (.leases leases)
  | _, _ => none

end Ndhcpd

import Ndhcpd.Interaction.Program
import Ndhcpd.Proto.Address

/-!
# The data model and the `Database` interface

The records the daemon keeps (subnets, dynamic ranges, static assignments, leases, IPv6
prefixes, API tokens), the configuration values the DHCP server reads, and the signature of
the `Database` trait: `DbCall` has one constructor for each of its methods and
`DbCall.Ret` gives the method's success type. A call may also fail; `DbError` tells the
constraint violations apart that callers can distinguish.

The server's handlers are programs over `ServerCall`: a database call, or a reading of the
wall clock (`chrono::Utc::now().timestamp()`). They run in a `World`, the database with the
clock. The `Fate` of a call says how much time passes before it is executed and whether it
fails; a failing call changes nothing. The database itself is any `Store`: a function that
answers a call at a clock reading.
-/

namespace Ndhcpd

/-! ### Records -/

/-- A subnet configuration. -/
structure Subnet where
  id : Option ℤ
  network : Ipv4Addr
  netmask : UInt8
  gateway : Ipv4Addr
  dnsServers : List Ipv4Addr
  domainName : Option String
deriving DecidableEq, Repr

/-- A dynamic IP range within a subnet. -/
structure DynamicRange where
  id : Option ℤ
  subnetId : ℤ
  rangeStart : Ipv4Addr
  rangeEnd : Ipv4Addr
  enabled : Bool
deriving DecidableEq, Repr

/-- A static IP assignment. -/
structure StaticIP where
  subnetId : ℤ
  macAddress : String
  ipAddress : Ipv4Addr
  hostname : Option String
deriving DecidableEq, Repr

/-- A DHCP lease, from `leaseStart` to `leaseEnd` (Unix timestamps). -/
structure Lease where
  id : Option ℤ
  subnetId : ℤ
  macAddress : String
  ipAddress : Ipv4Addr
  leaseStart : ℤ
  leaseEnd : ℤ
  hostname : Option String
deriving DecidableEq, Repr

/-- An IPv6 address. -/
structure Ipv6Addr where
  bits : BitVec 128
deriving DecidableEq, Repr

/-- An IPv6 prefix for Router Advertisement. -/
structure IAPrefix where
  id : Option ℤ
  interface : String
  pfx : Ipv6Addr
  prefixLen : UInt8
  preferredLifetime : UInt32
  validLifetime : UInt32
  dnsServers : List Ipv6Addr
  dnsLifetime : UInt32
deriving DecidableEq, Repr

/-- An API token, as listed: the hash, the salt and the token itself stay hidden. -/
structure ApiToken where
  id : Option ℤ
  name : String
  createdAt : Option ℤ
  lastUsedAt : Option ℤ
  enabled : Bool
deriving DecidableEq, Repr

/-- The configuration of the DHCP server. -/
structure DhcpConfig where
  defaultLeaseTime : UInt32
deriving DecidableEq, Repr

/-! ### The database interface -/

/-- Why a database call failed: a violated constraint, or anything else. -/
inductive DbError
  | uniqueViolation
  | foreignKeyViolation
  | unavailable
deriving DecidableEq, Repr

/-- Is the error a unique-constraint violation? -/
def isUniqueViolation : DbError → Bool
  | .uniqueViolation => true
  | _ => false

/-- The methods of the `Database` trait with their arguments. -/
inductive DbCall
  | createSubnet (subnet : Subnet)
  | getSubnet (id : ℤ)
  | listSubnets
  | updateSubnet (id : ℤ) (subnet : Subnet)
  | deleteSubnet (id : ℤ)
  | createRange (range : DynamicRange)
  | listRanges (subnetId : Option ℤ)
  | deleteRange (id : ℤ)
  | createStaticIp (staticIp : StaticIP)
  | listStaticIps (subnetId : Option ℤ)
  | getStaticIpByMac (mac : String)
  | updateStaticIpHostname (ipAddress : String) (hostname : Option String)
  | deleteStaticIp (ipAddress : String)
  | createLease (lease : Lease)
  | getActiveLease (mac : String)
  | listActiveLeases
  | expireLease (id : ℤ)
  | deleteExpiredLeases
  | createIaPrefix (pfx : IAPrefix)
  | getIaPrefix (id : ℤ)
  | listIaPrefixes (interface : Option String)
  | updateIaPrefix (id : ℤ) (pfx : IAPrefix)
  | deleteIaPrefix (id : ℤ)
  | listTokens
  | listApiTokens
  | createToken (name tokenHash salt : String)
  | deleteToken (id : ℤ)
  | toggleToken (id : ℤ) (enabled : Bool)
  | updateTokenLastUsed (tokenHash : String)
deriving DecidableEq, Repr

namespace DbCall

/-- What a method returns when it succeeds. -/
abbrev Ret : DbCall → Type
  | createSubnet _ => ℤ
  | getSubnet _ => Option Subnet
  | listSubnets => List Subnet
  | updateSubnet _ _ => Unit
  | deleteSubnet _ => Unit
  | createRange _ => ℤ
  | listRanges _ => List DynamicRange
  | deleteRange _ => Unit
  | createStaticIp _ => Unit
  | listStaticIps _ => List StaticIP
  | getStaticIpByMac _ => Option StaticIP
  | updateStaticIpHostname _ _ => Unit
  | deleteStaticIp _ => Unit
  | createLease _ => ℤ
  | getActiveLease _ => Option Lease
  | listActiveLeases => List Lease
  | expireLease _ => Unit
  | deleteExpiredLeases => ℕ
  | createIaPrefix _ => ℤ
  | getIaPrefix _ => Option IAPrefix
  | listIaPrefixes _ => List IAPrefix
  | updateIaPrefix _ _ => Unit
  | deleteIaPrefix _ => Unit
  | listTokens => List (String × ℤ)
  | listApiTokens => List ApiToken
  | createToken _ _ _ => ℤ
  | deleteToken _ => Unit
  | toggleToken _ _ => Unit
  | updateTokenLastUsed _ => Unit

/-- The result of a method: `anyhow::Result`. -/
abbrev Result (c : DbCall) : Type := Except DbError c.Ret

/-- The methods that write the lease table on behalf of a client. Only the DHCP server calls
them. -/
def writesLease : DbCall → Bool
  | createLease _ | expireLease _ => true
  | _ => false

/-- The methods that only read. -/
def isRead : DbCall → Bool
  | getSubnet _ | listSubnets | listRanges _ | listStaticIps _ | getStaticIpByMac _ => true
  | getActiveLease _ | listActiveLeases | getIaPrefix _ | listIaPrefixes _ => true
  | listTokens | listApiTokens => true
  | _ => false

end DbCall

/-! ### What a program of the server can ask for -/

/-- A database call, or a reading of the clock. -/
inductive ServerCall
  | db (c : DbCall)
  | utcNow
deriving DecidableEq, Repr

namespace ServerCall

/-- The answer to a call. -/
abbrev Reply : ServerCall → Type
  | db c => c.Result
  | utcNow => ℤ

/-- Reads of the database and of the clock. -/
def isRead : ServerCall → Bool
  | db c => c.isRead
  | utcNow => true

end ServerCall

/-- A program of the daemon. -/
abbrev ServerProgram (α : Type) : Type := Program ServerCall ServerCall.Reply α

/-- Call a method of the database. -/
def dbCall (c : DbCall) : ServerProgram c.Result := Program.call (ServerCall.db c)

/-- Read the clock. -/
def utcNow : ServerProgram ℤ := Program.call ServerCall.utcNow

theorem dbCall_bind {α : Type} (c : DbCall) (k : c.Result → ServerProgram α) :
    dbCall c >>= k = Program.request (ServerCall.db c) k := rfl

/-! ### The world of a program -/

/-- A database behind the `Database` trait: the answer to a call at a clock reading, and the
state it leaves. -/
abbrev Store (σ : Type) : Type := ℤ → σ → (c : DbCall) → c.Result × σ

/-- The database and the clock. -/
structure World (σ : Type) where
  db : σ
  clock : ℤ

/-- How a call goes: the seconds that pass before it is executed, and whether it fails. -/
structure Fate where
  wait : ℕ
  fails : Bool
deriving DecidableEq, Repr

/-- No time passes and the call does not fail. -/
def Fate.calm : Fate := ⟨0, false⟩

/-- Execute a call in the world. A failing database call returns an error and changes
nothing. -/
def serve {σ : Type} (store : Store σ) (fate : Fate) (c : ServerCall) (w : World σ) :
    c.Reply × World σ :=
  let now := w.clock + fate.wait
  match c with
  | .db c =>
    if fate.fails then (.error .unavailable, ⟨w.db, now⟩)
    else ((store now w.db c).1, ⟨(store now w.db c).2, now⟩)
  | .utcNow => (now, ⟨w.db, now⟩)

end Ndhcpd

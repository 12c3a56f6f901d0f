import Ndhcpd.Proto.Address

/-!
# DHCP options

Message types, and the options of a DHCP packet with their type-length-value encoding. The
encoder narrows the payload length to one byte (`as u8`), so it is only for payloads of at
most 255 octets that the length byte tells the truth; the decoder keeps every option it
does not recognise, or whose length does not fit its code, as `unknown`.

Every option but the end mark is written as `code`, length byte, `payload`
(`DhcpOption.toBytes_eq`), and reading a payload under its own code gives the option back
(`DhcpOption.parse_payload`).
-/

namespace Ndhcpd

/-! ### Message types -/

/-- DHCP message types as defined in RFC 2132. -/
inductive MessageType
  | discover | offer | request | decline | ack | nak | release | inform
deriving DecidableEq, Repr

namespace MessageType

/-- The number a message type has on the wire. -/
def toU8 : MessageType → UInt8
  | discover => 1
  | offer => 2
  | request => 3
  | decline => 4
  | ack => 5
  | nak => 6
  | release => 7
  | inform => 8

/-- The message type with a given number. -/
def fromU8 (value : UInt8) : Option MessageType :=
  match value.toNat with
  | 1 => some discover
  | 2 => some offer
  | 3 => some request
  | 4 => some decline
  | 5 => some ack
  | 6 => some nak
  | 7 => some release
  | 8 => some inform
  | _ => none

@[simp] theorem fromU8_toU8 (mt : MessageType) : fromU8 mt.toU8 = some mt := by
  cases mt <;> rfl

end MessageType

/-! ### Options -/

/-- DHCP options as defined in RFC 2132. -/
inductive DhcpOption
  | subnetMask (addr : Ipv4Addr)
  | router (addrs : List Ipv4Addr)
  | dnsServer (addrs : List Ipv4Addr)
  | domainName (name : String)
  | requestedIpAddress (addr : Ipv4Addr)
  | leaseTime (time : UInt32)
  | messageType (mt : MessageType)
  | serverIdentifier (addr : Ipv4Addr)
  | renewalTime (time : UInt32)
  | rebindingTime (time : UInt32)
  | hostname (name : String)
  | endMark
  | unknown (code : UInt8) (data : List UInt8)
deriving DecidableEq, Repr

namespace DhcpOption

/-- The addresses in the complete four-byte chunks of a payload; a shorter last chunk is
dropped (`chunks_exact`). -/
def addrChunks : List UInt8 → List Ipv4Addr
  | a :: b :: c :: d :: rest => Ipv4Addr.new a b c d :: addrChunks rest
  | _ => []

/-- A big-endian 32-bit number. -/
def u32FromBytes (a b c d : UInt8) : UInt32 := UInt32.ofNat (beNat [a, b, c, d])

/-- Parse an option from its code and its data bytes. -/
def parse (code : UInt8) (data : List UInt8) : DhcpOption :=
  match code.toNat, data with
  | 1, [a, b, c, d] => subnetMask (Ipv4Addr.new a b c d)
  | 3, data => router (addrChunks data)
  | 6, data => dnsServer (addrChunks data)
  | 15, data => domainName (fromUtf8Lossy data)
  | 50, [a, b, c, d] => requestedIpAddress (Ipv4Addr.new a b c d)
  | 51, [a, b, c, d] => leaseTime (u32FromBytes a b c d)
  | 53, [b] =>
    match MessageType.fromU8 b with
    | some mt => messageType mt
    | none => unknown code [b]
  | 54, [a, b, c, d] => serverIdentifier (Ipv4Addr.new a b c d)
  | 58, [a, b, c, d] => renewalTime (u32FromBytes a b c d)
  | 59, [a, b, c, d] => rebindingTime (u32FromBytes a b c d)
  | 12, data => hostname (fromUtf8Lossy data)
  | _, data => unknown code data

/-- Serialize the option. The length byte is the payload length narrowed to `u8`. -/
def toBytes : DhcpOption → List UInt8
  | subnetMask addr => [1, 4] ++ addr.octets
  | router addrs => [3, UInt8.ofNat (addrs.length * 4)] ++ addrs.flatMap Ipv4Addr.octets
  | dnsServer addrs => [6, UInt8.ofNat (addrs.length * 4)] ++ addrs.flatMap Ipv4Addr.octets
  | domainName name => [15, UInt8.ofNat (utf8Bytes name).length] ++ utf8Bytes name
  | requestedIpAddress addr => [50, 4] ++ addr.octets
  | leaseTime time => [51, 4] ++ beBytes 4 time.toNat
  | messageType mt => [53, 1, mt.toU8]
  | serverIdentifier addr => [54, 4] ++ addr.octets
  | renewalTime time => [58, 4] ++ beBytes 4 time.toNat
  | rebindingTime time => [59, 4] ++ beBytes 4 time.toNat
  | hostname name => [12, UInt8.ofNat (utf8Bytes name).length] ++ utf8Bytes name
  | endMark => []
  | unknown code data => [code, UInt8.ofNat data.length] ++ data

/-- The code an option is written under. -/
def code : DhcpOption → UInt8
  | subnetMask _ => 1
  | router _ => 3
  | dnsServer _ => 6
  | domainName _ => 15
  | requestedIpAddress _ => 50
  | leaseTime _ => 51
  | messageType _ => 53
  | serverIdentifier _ => 54
  | renewalTime _ => 58
  | rebindingTime _ => 59
  | hostname _ => 12
  | endMark => 255
  | unknown code _ => code

/-- The octets that follow the length byte. -/
def payload : DhcpOption → List UInt8
  | subnetMask addr => addr.octets
  | router addrs => addrs.flatMap Ipv4Addr.octets
  | dnsServer addrs => addrs.flatMap Ipv4Addr.octets
  | domainName name => utf8Bytes name
  | requestedIpAddress addr => addr.octets
  | leaseTime time => beBytes 4 time.toNat
  | messageType mt => [mt.toU8]
  | serverIdentifier addr => addr.octets
  | renewalTime time => beBytes 4 time.toNat
  | rebindingTime time => beBytes 4 time.toNat
  | hostname name => utf8Bytes name
  | endMark => []
  | unknown _ data => data

@[simp] theorem length_flatMap_octets (addrs : List Ipv4Addr) :
    (addrs.flatMap Ipv4Addr.octets).length = addrs.length * 4 := by
  rw [length_flatMap_words Ipv4Addr.length_octets, Nat.mul_comm]

/-- Every option but the end mark is its code, its length byte and its payload. -/
theorem toBytes_eq {o : DhcpOption} (h : o ≠ endMark) :
    o.toBytes = o.code :: UInt8.ofNat o.payload.length :: o.payload := by
  cases o with
  | router addrs => simp only [toBytes, code, payload, length_flatMap_octets]; rfl
  | dnsServer addrs => simp only [toBytes, code, payload, length_flatMap_octets]; rfl
  | endMark => exact absurd rfl h
  | _ => rfl

/-! ### Reading a payload back -/

/-- The decoder finds at most one address in four bytes. -/
theorem length_addrChunks_le (data : List UInt8) :
    4 * (addrChunks data).length ≤ data.length := by
  induction data using addrChunks.induct with
  | case1 a b c d rest ih =>
    simp only [addrChunks, List.length_cons]
    omega
  | case2 data hshort =>
    have hnone : addrChunks data = [] := by
      unfold addrChunks
      split
      · exact absurd rfl (hshort _ _ _ _ _)
      · rfl
    simp [hnone]

theorem addrChunks_flatMap_octets (addrs : List Ipv4Addr) :
    addrChunks (addrs.flatMap Ipv4Addr.octets) = addrs := by
  induction addrs with
  | nil => rfl
  | cons addr addrs ih =>
    obtain ⟨a, b, c, d, hoct, hnew⟩ := addr.exists_octets
    rw [List.flatMap_cons, hoct]
    simp only [List.cons_append, List.nil_append, addrChunks, hnew, ih]

/-- A 32-bit number is rebuilt from its four bytes. -/
theorem exists_u32Bytes (x : UInt32) :
    ∃ a b c d, beBytes 4 x.toNat = [a, b, c, d] ∧ u32FromBytes a b c d = x := by
  refine ⟨_, _, _, _, rfl, ?_⟩
  have hlt : x.toNat < 256 ^ 4 := x.toNat_lt
  change UInt32.ofNat (beNat (beBytes 4 x.toNat)) = x
  rw [beNat_beBytes_of_lt hlt, UInt32.ofNat_toNat]

/-- Reading an option's payload under its code gives the option back. An unknown option is
its own reading only when its code and length are not those of a known one. -/
theorem parse_payload {o : DhcpOption} (hend : o ≠ endMark)
    (hunknown : ∀ c d, o = unknown c d → parse c d = unknown c d) :
    parse o.code o.payload = o := by
  cases o with
  | subnetMask addr =>
    obtain ⟨a, b, c, d, hoct, hnew⟩ := addr.exists_octets
    rw [payload, hoct]
    exact congrArg subnetMask hnew
  | router addrs => exact congrArg router (addrChunks_flatMap_octets addrs)
  | dnsServer addrs => exact congrArg dnsServer (addrChunks_flatMap_octets addrs)
  | domainName name => exact congrArg domainName (fromUtf8Lossy_utf8Bytes name)
  | requestedIpAddress addr =>
    obtain ⟨a, b, c, d, hoct, hnew⟩ := addr.exists_octets
    rw [payload, hoct]
    exact congrArg requestedIpAddress hnew
  | leaseTime time =>
    obtain ⟨a, b, c, d, hbytes, hval⟩ := exists_u32Bytes time
    rw [payload, hbytes]
    exact congrArg leaseTime hval
  | messageType mt => cases mt <;> rfl
  | serverIdentifier addr =>
    obtain ⟨a, b, c, d, hoct, hnew⟩ := addr.exists_octets
    rw [payload, hoct]
    exact congrArg serverIdentifier hnew
  | renewalTime time =>
    obtain ⟨a, b, c, d, hbytes, hval⟩ := exists_u32Bytes time
    rw [payload, hbytes]
    exact congrArg renewalTime hval
  | rebindingTime time =>
    obtain ⟨a, b, c, d, hbytes, hval⟩ := exists_u32Bytes time
    rw [payload, hbytes]
    exact congrArg rebindingTime hval
  | hostname name => exact congrArg hostname (fromUtf8Lossy_utf8Bytes name)
  | endMark => exact absurd rfl hend
  | unknown c d => exact hunknown c d rfl

end DhcpOption

end Ndhcpd

import Ndhcpd.Dhcp.System

/-!
# Replies on the wire

The replies of the server carry administrative data of unbounded size: the DNS servers of a
subnet and its domain name. The encoder narrows the length of an option to one byte, so a
reply survives the wire only if neither option exceeds 255 octets, which is 63 DNS servers
and 255 bytes of UTF-8. Nothing checks this when a subnet is stored.

`createOffer_roundTrips_iff` and `createAck_roundTrips_iff` say that this bound is exact. The
other options of a reply have payloads of fixed size.
-/

namespace Ndhcpd

/-- Decoding the encoded packet gives back its header and its options, with the end mark. -/
def DhcpPacket.RoundTrips (p : DhcpPacket) : Prop :=
  DhcpPacket.parse p.toBytes = .ok { p with options := p.options ++ [.endMark] }

/-- The DNS servers and the domain name of a subnet fit into one option each. -/
def Subnet.FitsOptions (subnet : Subnet) : Prop :=
  subnet.dnsServers.length ≤ 63 ∧ ∀ name ∈ subnet.domainName, (utf8Bytes name).length ≤ 255

/-- Too many DNS servers: the option is read with fewer of them. -/
theorem DhcpOption.parse_dnsServer_ne {addrs : List Ipv4Addr} (h : 63 < addrs.length) :
    parse (dnsServer addrs).code
        ((dnsServer addrs).payload.take ((dnsServer addrs).payload.length % 256)) ≠
      dnsServer addrs := by
  intro heq
  have haddrs : addrChunks ((addrs.flatMap Ipv4Addr.octets).take (addrs.length * 4 % 256)) =
      addrs := by
    rw [← length_flatMap_octets]
    exact dnsServer.inj heq
  have hle := length_addrChunks_le
    ((addrs.flatMap Ipv4Addr.octets).take (addrs.length * 4 % 256))
  rw [haddrs, List.length_take] at hle
  omega

/-- Too long a domain name: the option is read as another name. -/
theorem DhcpOption.parse_domainName_ne {name : String} (h : 255 < (utf8Bytes name).length) :
    parse (domainName name).code
        ((domainName name).payload.take ((domainName name).payload.length % 256)) ≠
      domainName name := by
  intro heq
  refine fromUtf8Lossy_take_ne name ?_ (domainName.inj heq)
  rw [payload]
  omega

section Reply

variable {p : DhcpPacket} {fixed : List DhcpOption} {subnet : Subnet}

/-- **Replies.** A packet that carries options of fixed size, then the DNS servers of a subnet
and then its domain name, if any, makes the round trip exactly if the two fit. -/
theorem roundTrips_iff (hp : p.options = fixed ++ .dnsServer subnet.dnsServers :: domainOption subnet)
    (hfixed : ∀ o ∈ fixed, o.Sendable) : p.RoundTrips ↔ subnet.FitsOptions := by
  have hdns : subnet.dnsServers.length ≤ 63 → (DhcpOption.dnsServer subnet.dnsServers).Sendable := by
    intro hle
    refine ⟨by simp, ?_, by simp⟩
    rw [DhcpOption.payload, DhcpOption.length_flatMap_octets]
    omega
  constructor
  · intro h
    -- the DNS servers come first, and only if they fit does the decoder find the domain name
    have hle : subnet.dnsServers.length ≤ 63 := by
      by_contra hlong
      exact DhcpPacket.parse_toBytes_ne hp hfixed (by simp) (by simp [DhcpOption.code])
        (by simp [DhcpOption.code]) (DhcpOption.parse_dnsServer_ne (by omega)) h
    refine ⟨hle, fun name hname => ?_⟩
    by_contra hlong
    have hp' : p.options = (fixed ++ [.dnsServer subnet.dnsServers]) ++ .domainName name :: [] := by
      rw [hp, domainOption, Option.mem_def.mp hname]
      simp
    refine DhcpPacket.parse_toBytes_ne hp' (fun o ho => ?_) (by simp) (by simp [DhcpOption.code])
      (by simp [DhcpOption.code]) (DhcpOption.parse_domainName_ne (by omega)) h
    rcases List.mem_append.mp ho with ho | ho
    · exact hfixed o ho
    · obtain rfl := List.mem_singleton.mp ho
      exact hdns hle
  · rintro ⟨hle, hname⟩
    refine DhcpPacket.parse_toBytes_of_sendable fun o ho => ?_
    rw [hp, List.mem_append, List.mem_cons] at ho
    rcases ho with ho | rfl | ho
    · exact hfixed o ho
    · exact hdns hle
    · unfold domainOption at ho
      split at ho
      · next name hdomain =>
        obtain rfl := List.mem_singleton.mp ho
        exact ⟨by simp, hname name hdomain, by simp⟩
      · cases ho

variable {request : DhcpPacket} {ip : Ipv4Addr} {config : DhcpConfig}

theorem createOffer_roundTrips_iff :
    (createOffer request ip subnet config).RoundTrips ↔ subnet.FitsOptions := by
  refine @roundTrips_iff _ [.messageType .offer, .serverIdentifier subnet.gateway,
    .leaseTime config.defaultLeaseTime, .subnetMask (netmaskFromPrefix subnet.netmask),
    .router [subnet.gateway]] subnet rfl fun o ho => ?_
  simp only [List.mem_cons, List.not_mem_nil, or_false] at ho
  rcases ho with rfl | rfl | rfl | rfl | rfl <;>
    exact ⟨by simp, by simp [DhcpOption.payload], by simp⟩

theorem createAck_roundTrips_iff :
    (createAck request ip subnet config).RoundTrips ↔ subnet.FitsOptions := by
  refine @roundTrips_iff _ [.messageType .ack, .serverIdentifier subnet.gateway,
    .leaseTime config.defaultLeaseTime, .renewalTime (config.defaultLeaseTime / 2),
    .rebindingTime (config.defaultLeaseTime * 7 / 8),
    .subnetMask (netmaskFromPrefix subnet.netmask), .router [subnet.gateway]] subnet rfl
    fun o ho => ?_
  simp only [List.mem_cons, List.not_mem_nil, or_false] at ho
  rcases ho with rfl | rfl | rfl | rfl | rfl | rfl | rfl <;>
    exact ⟨by simp, by simp [DhcpOption.payload], by simp⟩

end Reply

/-- **When replies are decodable.** For every request, every address, every subnet and every
configuration: the OFFER is decoded from its bytes, with its header and its options, exactly if
the subnet has at most 63 DNS servers and a domain name of at most 255 bytes; and so is the
ACK. -/
theorem replies_decodable_iff (request : DhcpPacket) (ip : Ipv4Addr) (subnet : Subnet)
    (config : DhcpConfig) :
    (DhcpPacket.parse (createOffer request ip subnet config).toBytes =
        .ok { createOffer request ip subnet config with
          options := (createOffer request ip subnet config).options ++ [.endMark] } ↔
      subnet.dnsServers.length ≤ 63 ∧
        ∀ name ∈ subnet.domainName, (utf8Bytes name).length ≤ 255) ∧
    (DhcpPacket.parse (createAck request ip subnet config).toBytes =
        .ok { createAck request ip subnet config with
          options := (createAck request ip subnet config).options ++ [.endMark] } ↔
      subnet.dnsServers.length ≤ 63 ∧
        ∀ name ∈ subnet.domainName, (utf8Bytes name).length ≤ 255) :=
  ⟨createOffer_roundTrips_iff, createAck_roundTrips_iff⟩

/-- With 64 DNS servers the length byte of the option is zero, and the OFFER is not read
back. -/
theorem offer_not_decodable :
    ¬ DhcpPacket.parse (createOffer (Sample.discover Sample.alice) (.new 10 0 0 10)
        { Sample.subnet.toSubnet with dnsServers := List.replicate 64 (.new 10 0 0 1) }
        Sample.config).toBytes =
      .ok { createOffer (Sample.discover Sample.alice) (.new 10 0 0 10)
          { Sample.subnet.toSubnet with dnsServers := List.replicate 64 (.new 10 0 0 1) }
          Sample.config with
        options := (createOffer (Sample.discover Sample.alice) (.new 10 0 0 10)
          { Sample.subnet.toSubnet with dnsServers := List.replicate 64 (.new 10 0 0 1) }
          Sample.config).options ++ [.endMark] } := by
  intro h
  have hfits := createOffer_roundTrips_iff.mp h
  exact absurd hfits.1 (by decide)

end Ndhcpd

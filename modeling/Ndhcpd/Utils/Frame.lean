import Ndhcpd.Utils.Checksum

/-!
# Raw frames

Clients without an address are answered with raw Ethernet frames that the server puts together
byte by byte. `buildL2UdpFrame` writes the three headers, patches the checksum into the finished
IPv4 header, and appends the UDP header and the payload.

What a receiver does with a frame is said by the decoders `decodeEthernet`, `decodeIpv4` and
`decodeUdp`, which follow the three formats and nothing else. `frame_decodes` puts the two
together.
-/

namespace Ndhcpd

/-! ### The frame -/

/-- A raw Ethernet frame containing an IPv4/UDP datagram. -/
def buildL2UdpFrame (srcMac dstMac : MacAddress) (srcIp dstIp : Ipv4Addr)
    (srcPort dstPort : UInt16) (payload : List UInt8) : List UInt8 :=
  let udpLen : UInt16 := 8 + UInt16.ofNat payload.length
  let ipTotalLen : UInt16 := 20 + udpLen
  -- Ethernet header (14 bytes)
  let frame := dstMac.asBytes ++ srcMac.asBytes ++ beBytes 2 0x0800
  -- IPv4 header (20 bytes), with a placeholder for the checksum
  let ipStart := frame.length
  let frame := frame ++ [0x45, 0x00] ++ beBytes 2 ipTotalLen.toNat ++ beBytes 2 0 ++
    beBytes 2 0x4000 ++ [128, 17] ++ beBytes 2 0 ++ srcIp.octets ++ dstIp.octets
  let cksum := beBytes 2 (ipChecksum ((frame.drop ipStart).take 20)).toNat
  let frame := (frame.set (ipStart + 10) (cksum.getD 0 0)).set (ipStart + 11) (cksum.getD 1 0)
  -- UDP header (8 bytes), without a checksum
  frame ++ beBytes 2 srcPort.toNat ++ beBytes 2 dstPort.toNat ++ beBytes 2 udpLen.toNat ++
    beBytes 2 0 ++ payload

/-- The ten bytes of the IPv4 header in front of the checksum. -/
def ipHeaderStart (payload : List UInt8) : List UInt8 :=
  [0x45, 0x00] ++ beBytes 2 (20 + (8 + UInt16.ofNat payload.length)).toNat ++ beBytes 2 0 ++
    beBytes 2 0x4000 ++ [128, 17]

theorem length_ipHeaderStart (payload : List UInt8) : (ipHeaderStart payload).length = 10 := by
  simp only [ipHeaderStart, List.length_append, length_beBytes, List.length_cons, List.length_nil]

/-- **The bytes of the frame**: the checksum stands where the placeholder was. -/
theorem buildL2UdpFrame_eq (srcMac dstMac : MacAddress) (srcIp dstIp : Ipv4Addr)
    (srcPort dstPort : UInt16) (payload : List UInt8) :
    buildL2UdpFrame srcMac dstMac srcIp dstIp srcPort dstPort payload =
      dstMac.asBytes ++ srcMac.asBytes ++ beBytes 2 0x0800 ++
      (ipHeaderStart payload ++ beBytes 2 (ipChecksum (ipHeaderStart payload ++ [0, 0] ++
        (srcIp.octets ++ dstIp.octets))).toNat ++ (srcIp.octets ++ dstIp.octets)) ++
      (beBytes 2 srcPort.toNat ++ beBytes 2 dstPort.toNat ++
        beBytes 2 (8 + UInt16.ofNat payload.length).toNat ++ beBytes 2 0 ++ payload) := by
  have hmacs : (dstMac.asBytes ++ srcMac.asBytes ++ beBytes 2 0x0800).length = 14 := rfl
  have hstart := length_ipHeaderStart payload
  have haddrs : (srcIp.octets ++ dstIp.octets).length = 8 := by
    rw [List.length_append, Ipv4Addr.length_octets, Ipv4Addr.length_octets]
  have hzeros : beBytes 2 0 = [0, 0] := rfl
  -- the IPv4 header as it stands before the checksum is known
  have hframe : dstMac.asBytes ++ srcMac.asBytes ++ beBytes 2 0x0800 ++ [0x45, 0x00] ++
      beBytes 2 (20 + (8 + UInt16.ofNat payload.length)).toNat ++ beBytes 2 0 ++
      beBytes 2 0x4000 ++ [128, 17] ++ beBytes 2 0 ++ srcIp.octets ++ dstIp.octets =
      dstMac.asBytes ++ srcMac.asBytes ++ beBytes 2 0x0800 ++
        (ipHeaderStart payload ++ [0, 0] ++ (srcIp.octets ++ dstIp.octets)) := by
    rw [ipHeaderStart, hzeros]
    simp only [List.append_assoc]
  have hheader : ((dstMac.asBytes ++ srcMac.asBytes ++ beBytes 2 0x0800 ++
      (ipHeaderStart payload ++ [0, 0] ++ (srcIp.octets ++ dstIp.octets))).drop 14).take 20 =
      ipHeaderStart payload ++ [0, 0] ++ (srcIp.octets ++ dstIp.octets) := by
    rw [List.drop_left' hmacs]
    refine List.take_of_length_le ?_
    rw [List.length_append, List.length_append, hstart, haddrs]
    simp
  simp only [buildL2UdpFrame]
  rw [hframe, hmacs, hheader]
  generalize ipChecksum (ipHeaderStart payload ++ [0, 0] ++ (srcIp.octets ++ dstIp.octets)) = c
  have hplace : (dstMac.asBytes ++ srcMac.asBytes ++ beBytes 2 0x0800 ++
      ipHeaderStart payload).length = 14 + 10 := by
    rw [List.length_append, hmacs, hstart]
  have hpatched : writeU16 (dstMac.asBytes ++ srcMac.asBytes ++ beBytes 2 0x0800 ++
      (ipHeaderStart payload ++ [0, 0] ++ (srcIp.octets ++ dstIp.octets))) (14 + 10) c =
      dstMac.asBytes ++ srcMac.asBytes ++ beBytes 2 0x0800 ++
        (ipHeaderStart payload ++ beBytes 2 c.toNat ++ (srcIp.octets ++ dstIp.octets)) := by
    have hwritten := @writeU16_append _ (srcIp.octets ++ dstIp.octets) _ hplace c
    simpa only [List.append_assoc] using hwritten
  rw [writeU16] at hpatched
  rw [hpatched]
  simp only [List.append_assoc]

/-! ### What a receiver reads -/

/-- An Ethernet II frame. -/
structure EthernetFrame where
  dst : MacAddress
  src : MacAddress
  etherType : UInt16
  payload : List UInt8
deriving DecidableEq, Repr

/-- An IPv4 datagram, without the fields that only matter on the way. -/
structure Ipv4Datagram where
  totalLength : UInt16
  protocol : UInt8
  src : Ipv4Addr
  dst : Ipv4Addr
  payload : List UInt8
deriving DecidableEq, Repr

/-- A UDP datagram. -/
structure UdpDatagram where
  srcPort : UInt16
  dstPort : UInt16
  length : UInt16
  payload : List UInt8
deriving DecidableEq, Repr

/-- Ethernet II: two addresses, the type of the payload, and the payload. -/
def decodeEthernet : List UInt8 → Option EthernetFrame
  | d0 :: d1 :: d2 :: d3 :: d4 :: d5 :: s0 :: s1 :: s2 :: s3 :: s4 :: s5 :: t0 :: t1 :: payload =>
    some ⟨⟨d0, d1, d2, d3, d4, d5⟩, ⟨s0, s1, s2, s3, s4, s5⟩, u16FromBytes t0 t1, payload⟩
  | _ => none

/-- IPv4 with a header of 20 bytes: version and header length, a checksum that verifies, and a
total length that is covered by the data. -/
def decodeIpv4 (data : List UInt8) : Option Ipv4Datagram :=
  match data with
  | versionIhl :: _ :: l0 :: l1 :: _ :: _ :: _ :: _ :: _ :: protocol :: _ :: _ ::
      s0 :: s1 :: s2 :: s3 :: d0 :: d1 :: d2 :: d3 :: _ =>
    let totalLength := u16FromBytes l0 l1
    if versionIhl = 0x45 ∧ ipChecksum (data.take 20) = 0 ∧ 20 ≤ totalLength.toNat ∧
        totalLength.toNat ≤ data.length then
      some ⟨totalLength, protocol, .new s0 s1 s2 s3, .new d0 d1 d2 d3,
        (data.take totalLength.toNat).drop 20⟩
    else none
  | _ => none

/-- UDP: ports, a length that is covered by the data, a checksum that may be left out, and the
payload. -/
def decodeUdp (data : List UInt8) : Option UdpDatagram :=
  match data with
  | s0 :: s1 :: d0 :: d1 :: l0 :: l1 :: _ :: _ :: _ =>
    let length := u16FromBytes l0 l1
    if 8 ≤ length.toNat ∧ length.toNat ≤ data.length then
      some ⟨u16FromBytes s0 s1, u16FromBytes d0 d1, length, (data.take length.toNat).drop 8⟩
    else none
  | _ => none

section Decode

variable {payload rest : List UInt8}

theorem decodeEthernet_append (dst src : MacAddress) (etherType : UInt16) (payload : List UInt8) :
    decodeEthernet (dst.asBytes ++ src.asBytes ++ beBytes 2 etherType.toNat ++ payload) =
      some ⟨dst, src, etherType, payload⟩ := by
  obtain ⟨t0, t1, ht, htype⟩ := DhcpPacket.exists_u16Bytes etherType
  rw [ht, ← htype]
  rfl

/-- A header of ten bytes, the checksum and two addresses verifies. -/
theorem ipChecksum_header {head : List UInt8} (hhead : head.length = 10) (src dst : Ipv4Addr) :
    ipChecksum (head ++ beBytes 2 (ipChecksum (head ++ [0, 0] ++ (src.octets ++ dst.octets))).toNat ++
      (src.octets ++ dst.octets)) = 0 := by
  refine ipChecksum_patched (by rw [hhead]) ?_
  simp only [List.length_append, hhead, Ipv4Addr.length_octets, List.length_cons, List.length_nil]
  omega

/-- The header with its checksum, in front of as many bytes as it announces. -/
theorem decodeIpv4_append {total : UInt16} {src dst : Ipv4Addr} {head : List UInt8}
    (hhead : head = [0x45, 0x00] ++ beBytes 2 total.toNat ++ beBytes 2 0 ++ beBytes 2 0x4000 ++
      [128, 17])
    (htotal : total.toNat = 20 + rest.length) :
    decodeIpv4 (head ++ beBytes 2 (ipChecksum (head ++ [0, 0] ++ (src.octets ++ dst.octets))).toNat ++
      (src.octets ++ dst.octets) ++ rest) = some ⟨total, 17, src, dst, rest⟩ := by
  have hlen : head.length = 10 := by
    rw [hhead]
    simp only [List.length_append, length_beBytes, List.length_cons, List.length_nil]
  have hcheck := ipChecksum_header hlen src dst
  obtain ⟨l0, l1, hl, hlength⟩ := DhcpPacket.exists_u16Bytes total
  obtain ⟨s0, s1, s2, s3, hs, hsrc⟩ := src.exists_octets
  obtain ⟨d0, d1, d2, d3, hd, hdst⟩ := dst.exists_octets
  obtain ⟨c0, c1, hc⟩ : ∃ c0 c1, beBytes 2
      (ipChecksum (head ++ [0, 0] ++ (src.octets ++ dst.octets))).toNat = [c0, c1] := ⟨_, _, rfl⟩
  rw [hc] at hcheck ⊢
  rw [hhead, hl, hs, hd] at hcheck ⊢
  -- with all its bytes spelled out, the header can be matched
  let header : List UInt8 := [0x45, 0x00, l0, l1, 0, 0, 0x40, 0, 128, 17, c0, c1, s0, s1, s2, s3,
    d0, d1, d2, d3]
  have hheader : header.length = 20 := rfl
  have hverifies : ipChecksum ((header ++ rest).take 20) = 0 := by
    rw [List.take_left' hheader]
    exact hcheck
  have hcovered : (header ++ rest).length = 20 + rest.length := List.length_append
  have hpayload : ((header ++ rest).take total.toNat).drop 20 = rest := by
    rw [List.take_of_length_le (by omega), List.drop_left' hheader]
  have hdecode : decodeIpv4 (header ++ rest) =
      if (0x45 : UInt8) = 0x45 ∧ ipChecksum ((header ++ rest).take 20) = 0 ∧
          20 ≤ (u16FromBytes l0 l1).toNat ∧ (u16FromBytes l0 l1).toNat ≤ (header ++ rest).length then
        some ⟨u16FromBytes l0 l1, 17, .new s0 s1 s2 s3, .new d0 d1 d2 d3,
          ((header ++ rest).take (u16FromBytes l0 l1).toNat).drop 20⟩
      else none := rfl
  change decodeIpv4 (header ++ rest) = _
  rw [hdecode, hlength, hsrc, hdst, hpayload, if_pos ⟨rfl, hverifies, by omega, by omega⟩]

theorem decodeUdp_append {srcPort dstPort length : UInt16}
    (hlength : length.toNat = 8 + payload.length) :
    decodeUdp (beBytes 2 srcPort.toNat ++ beBytes 2 dstPort.toNat ++ beBytes 2 length.toNat ++
      beBytes 2 0 ++ payload) = some ⟨srcPort, dstPort, length, payload⟩ := by
  obtain ⟨s0, s1, hs, hsrc⟩ := DhcpPacket.exists_u16Bytes srcPort
  obtain ⟨d0, d1, hd, hdst⟩ := DhcpPacket.exists_u16Bytes dstPort
  obtain ⟨l0, l1, hl, hlen⟩ := DhcpPacket.exists_u16Bytes length
  rw [hs, hd, hl]
  let header : List UInt8 := [s0, s1, d0, d1, l0, l1, 0, 0]
  have hheader : header.length = 8 := rfl
  have hcovered : (header ++ payload).length = 8 + payload.length := List.length_append
  have hpayload : ((header ++ payload).take length.toNat).drop 8 = payload := by
    rw [List.take_of_length_le (by omega), List.drop_left' hheader]
  have hdecode : decodeUdp (header ++ payload) =
      if 8 ≤ (u16FromBytes l0 l1).toNat ∧ (u16FromBytes l0 l1).toNat ≤ (header ++ payload).length then
        some ⟨u16FromBytes s0 s1, u16FromBytes d0 d1, u16FromBytes l0 l1,
          ((header ++ payload).take (u16FromBytes l0 l1).toNat).drop 8⟩
      else none := rfl
  change decodeUdp (header ++ payload) = _
  rw [hdecode, hsrc, hdst, hlen, hpayload, if_pos ⟨by omega, by omega⟩]

end Decode

/-- The lengths of a payload that fits do not wrap. -/
theorem toNat_lengths {n : ℕ} (h : n ≤ 65507) :
    (8 + UInt16.ofNat n).toNat = 8 + n ∧ (20 + (8 + UInt16.ofNat n)).toNat = 28 + n := by
  have hn : (UInt16.ofNat n).toNat = n := UInt16.toNat_ofNat_of_lt' (by
    have hsize : UInt16.size = 65536 := rfl
    omega)
  have hudp : (8 + UInt16.ofNat n).toNat = 8 + n := by
    have height : (8 : UInt16).toNat = 8 := rfl
    rw [UInt16.toNat_add, height, hn, Nat.mod_eq_of_lt (by omega)]
  have htwenty : (20 : UInt16).toNat = 20 := rfl
  refine ⟨hudp, ?_⟩
  rw [UInt16.toNat_add, htwenty, hudp, Nat.mod_eq_of_lt (by omega)]
  omega

/-- **Frames are valid datagrams.** For all addresses and ports and every payload of at most 65507
bytes: the frame is 42 bytes longer than the payload; a receiver decodes it, layer by layer, into
the given addresses, ports and payload; the two length fields are exact; and the checksum of the
IPv4 header is zero. -/
theorem frame_decodes (srcMac dstMac : MacAddress) (srcIp dstIp : Ipv4Addr)
    (srcPort dstPort : UInt16) (payload : List UInt8) (hpayload : payload.length ≤ 65507) :
    let frame := buildL2UdpFrame srcMac dstMac srcIp dstIp srcPort dstPort payload
    frame.length = 42 + payload.length ∧
    ∃ eth ip udp, decodeEthernet frame = some eth ∧
      eth.etherType = 0x0800 ∧ eth.src = srcMac ∧ eth.dst = dstMac ∧
      decodeIpv4 eth.payload = some ip ∧ ip.protocol = 17 ∧ ip.src = srcIp ∧ ip.dst = dstIp ∧
      ip.totalLength.toNat = 28 + payload.length ∧ ipChecksum (eth.payload.take 20) = 0 ∧
      decodeUdp ip.payload = some udp ∧ udp.srcPort = srcPort ∧ udp.dstPort = dstPort ∧
      udp.length.toNat = 8 + payload.length ∧ udp.payload = payload := by
  intro frame
  obtain ⟨hudpLen, htotal⟩ := toNat_lengths hpayload
  -- what the Ethernet frame and the IPv4 datagram carry
  let udp := beBytes 2 srcPort.toNat ++ beBytes 2 dstPort.toNat ++
    beBytes 2 (8 + UInt16.ofNat payload.length).toNat ++ beBytes 2 0 ++ payload
  let header := ipHeaderStart payload ++ beBytes 2 (ipChecksum (ipHeaderStart payload ++ [0, 0] ++
    (srcIp.octets ++ dstIp.octets))).toNat ++ (srcIp.octets ++ dstIp.octets)
  have hframe : frame = dstMac.asBytes ++ srcMac.asBytes ++ beBytes 2 (0x0800 : UInt16).toNat ++
      (header ++ udp) := by
    rw [← List.append_assoc]
    exact buildL2UdpFrame_eq srcMac dstMac srcIp dstIp srcPort dstPort payload
  have hudp : udp.length = 8 + payload.length := by
    simp only [udp, List.length_append, length_beBytes]
  have hstart := length_ipHeaderStart payload
  have hheader : header.length = 20 := by
    simp only [header, List.length_append, length_beBytes, Ipv4Addr.length_octets, hstart]
  have hverifies : ipChecksum ((header ++ udp).take 20) = 0 := by
    rw [List.take_left' hheader]
    exact ipChecksum_header hstart srcIp dstIp
  have hip : decodeIpv4 (header ++ udp) =
      some ⟨20 + (8 + UInt16.ofNat payload.length), 17, srcIp, dstIp, udp⟩ :=
    decodeIpv4_append rfl (by omega)
  refine ⟨?_, ⟨dstMac, srcMac, 0x0800, header ++ udp⟩,
    ⟨20 + (8 + UInt16.ofNat payload.length), 17, srcIp, dstIp, udp⟩,
    ⟨srcPort, dstPort, 8 + UInt16.ofNat payload.length, payload⟩, ?_, rfl, rfl, rfl, hip, rfl, rfl,
    rfl, htotal, hverifies, decodeUdp_append hudpLen, rfl, rfl, hudpLen, rfl⟩
  · rw [hframe]
    simp only [List.length_append, MacAddress.length_asBytes, length_beBytes, hheader, hudp]
    omega
  · rw [hframe]
    exact decodeEthernet_append dstMac srcMac 0x0800 (header ++ udp)

/-- A broadcast of three bytes. -/
theorem frame_decodes_broadcast :
    ([1, 2, 3] : List UInt8).length ≤ 65507 ∧
      ∃ eth, decodeEthernet (buildL2UdpFrame ⟨2, 0, 0, 0, 0, 1⟩ ⟨255, 255, 255, 255, 255, 255⟩
        (.new 10 0 0 1) (.new 255 255 255 255) 67 68 [1, 2, 3]) = some eth ∧
      ipChecksum (eth.payload.take 20) = 0 := by
  refine ⟨by decide, ?_⟩
  obtain ⟨-, eth, -, -, heth, -, -, -, -, -, -, -, -, hverifies, -⟩ :=
    frame_decodes ⟨2, 0, 0, 0, 0, 1⟩ ⟨255, 255, 255, 255, 255, 255⟩ (.new 10 0 0 1)
      (.new 255 255 255 255) 67 68 [1, 2, 3] (by decide)
  exact ⟨eth, heth, hverifies⟩

end Ndhcpd

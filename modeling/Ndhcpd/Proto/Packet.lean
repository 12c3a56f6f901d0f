import Ndhcpd.Proto.Option

/-!
# DHCP packets

The fixed header and the option list of a DHCP packet, with the decoder `DhcpPacket.parse`
and the encoder `DhcpPacket.toBytes`.

The decoder walks the option area by index: `parseOptions data i` is its loop from position
`i` on. Every index it reads carries the proof that it is in bounds, and the loop ends
because the index grows. The encoder writes the options one after the other and closes them
with the end mark; `parseOptions_tlv` and `parseOptions_endMark` say what the loop does on
one encoded option and on the end mark, and `parse_toBytes` assembles the round trip.
-/

namespace Ndhcpd

/-- A DHCP packet as defined in RFC 2131. -/
structure DhcpPacket where
  op : UInt8
  htype : UInt8
  hlen : UInt8
  hops : UInt8
  xid : UInt32
  secs : UInt16
  flags : UInt16
  ciaddr : Ipv4Addr
  yiaddr : Ipv4Addr
  siaddr : Ipv4Addr
  giaddr : Ipv4Addr
  chaddr : MacAddress
  options : List DhcpOption
deriving DecidableEq, Repr

/-- DHCP magic cookie (RFC 2131). -/
def dhcpMagicCookie : List UInt8 := [99, 130, 83, 99]

/-- A big-endian 16-bit number. -/
def u16FromBytes (a b : UInt8) : UInt16 := UInt16.ofNat (beNat [a, b])

namespace DhcpPacket

/-- A new empty packet. -/
def new : DhcpPacket where
  op := 1
  htype := 1
  hlen := 6
  hops := 0
  xid := 0
  secs := 0
  flags := 0
  ciaddr := .unspecified
  yiaddr := .unspecified
  siaddr := .unspecified
  giaddr := .unspecified
  chaddr := ⟨0, 0, 0, 0, 0, 0⟩
  options := []

/-- The option loop from index `i` on. -/
def parseOptions (data : List UInt8) (i : ℕ) : List DhcpOption :=
  if h : i < data.length then
    let optionCode := data[i]
    if optionCode = 255 then [.endMark]
    else if optionCode = 0 then parseOptions data (i + 1)
    else if h1 : i + 1 < data.length then
      let optionLen := data[i + 1].toNat
      if data.length < i + 2 + optionLen then []
      else
        let optionData := (data.drop (i + 2)).take optionLen
        DhcpOption.parse optionCode optionData :: parseOptions data (i + 2 + optionLen)
    else []
  else []
termination_by data.length - i

/-- Parse a packet from raw bytes. -/
def parse (data : List UInt8) : Except String DhcpPacket :=
  if h : data.length < 240 then .error "Packet too small"
  else
    match MacAddress.fromSlice ((data.drop 28).take 6) with
    | none => .error "Invalid MAC address"
    | some chaddr =>
      .ok {
        op := data[0]
        htype := data[1]
        hlen := data[2]
        hops := data[3]
        xid := DhcpOption.u32FromBytes data[4] data[5] data[6] data[7]
        secs := u16FromBytes data[8] data[9]
        flags := u16FromBytes data[10] data[11]
        ciaddr := .new data[12] data[13] data[14] data[15]
        yiaddr := .new data[16] data[17] data[18] data[19]
        siaddr := .new data[20] data[21] data[22] data[23]
        giaddr := .new data[24] data[25] data[26] data[27]
        chaddr := chaddr
        options :=
          if 240 < data.length ∧ (data.drop 236).take 4 = dhcpMagicCookie then
            parseOptions data 240
          else [] }

/-- Serialize the packet: 34 header bytes, zeroes up to offset 236, the magic cookie, the
options and the end mark. -/
def toBytes (p : DhcpPacket) : List UInt8 :=
  [p.op, p.htype, p.hlen, p.hops] ++ beBytes 4 p.xid.toNat ++ beBytes 2 p.secs.toNat ++
    beBytes 2 p.flags.toNat ++ p.ciaddr.octets ++ p.yiaddr.octets ++ p.siaddr.octets ++
    p.giaddr.octets ++ p.chaddr.asBytes ++ List.replicate 202 0 ++ dhcpMagicCookie ++
    p.options.flatMap DhcpOption.toBytes ++ [255]

/-- The message type, from the first option that carries one. -/
def getMessageType (p : DhcpPacket) : Option MessageType :=
  p.options.findSome? fun
    | .messageType mt => some mt
    | _ => none

/-! ### The option loop on encoded options -/

private theorem getElem_of_drop_eq_cons {data : List UInt8} {i : ℕ} {b : UInt8}
    {rest : List UInt8} (h : data.drop i = b :: rest) :
    ∃ hi : i < data.length, data[i] = b := by
  have hget : data[i]? = some b := by
    have := congrArg (fun l => l[0]?) h
    simpa using this
  exact List.getElem?_eq_some_iff.mp hget

/-- The loop stops at an end mark. -/
theorem parseOptions_endMark {data : List UInt8} {i : ℕ} {rest : List UInt8}
    (h : data.drop i = 255 :: rest) : parseOptions data i = [.endMark] := by
  obtain ⟨hi, hb⟩ := getElem_of_drop_eq_cons h
  rw [parseOptions, dif_pos hi]
  simp only [hb, if_true]

/-- The loop on a code and a length byte followed by at least that many bytes: one option
is read from exactly these bytes, and the loop goes on after them. -/
theorem parseOptions_tlv {data : List UInt8} {i : ℕ} {code len : UInt8} {rest : List UInt8}
    (h : data.drop i = code :: len :: rest) (h0 : code ≠ 0) (h255 : code ≠ 255)
    (hlen : len.toNat ≤ rest.length) :
    parseOptions data i =
      DhcpOption.parse code (rest.take len.toNat) ::
        parseOptions data (i + 2 + len.toNat) := by
  have h1 : data.drop (i + 1) = len :: rest := by
    rw [← List.drop_drop, h]
    rfl
  have h2 : data.drop (i + 2) = rest := by
    rw [← List.drop_drop, h]
    rfl
  obtain ⟨hi, hb⟩ := getElem_of_drop_eq_cons h
  obtain ⟨hi1, hb1⟩ := getElem_of_drop_eq_cons h1
  have hfits : ¬ data.length < i + 2 + len.toNat := by
    have := congrArg List.length h2
    rw [List.length_drop] at this
    omega
  rw [parseOptions, dif_pos hi]
  simp only [hb, if_neg h255, if_neg h0, dif_pos hi1, hb1, if_neg hfits, h2]

/-! ### Round trip -/

end DhcpPacket

/-- What the encoder can write faithfully: an option that is not the end mark, whose payload
fits one length byte, and that, when unknown, does not use the code of the pad byte, of the
end mark or of a known option. -/
structure DhcpOption.Sendable (o : DhcpOption) : Prop where
  ne_endMark : o ≠ .endMark
  length_le : o.payload.length ≤ 255
  unknown : ∀ c d, o = .unknown c d → c ≠ 0 ∧ c ≠ 255 ∧ DhcpOption.parse c d = .unknown c d

namespace DhcpOption.Sendable

variable {o : DhcpOption}

theorem code_ne (h : o.Sendable) : o.code ≠ 0 ∧ o.code ≠ 255 := by
  cases o with
  | endMark => exact absurd rfl h.ne_endMark
  | unknown c d => exact ⟨(h.unknown c d rfl).1, (h.unknown c d rfl).2.1⟩
  | _ => exact ⟨by simp [code], by simp [code]⟩

theorem toNat_ofNat_length (h : o.Sendable) :
    (UInt8.ofNat o.payload.length).toNat = o.payload.length := by
  have hle := h.length_le
  rw [UInt8.toNat_ofNat', Nat.mod_eq_of_lt (by omega)]

end DhcpOption.Sendable

namespace DhcpPacket

/-- One sendable option in front of anything: the loop reads it back and goes on behind. -/
theorem parseOptions_toBytes_append {data : List UInt8} {i : ℕ} {o : DhcpOption}
    {rest : List UInt8} (ho : o.Sendable) (h : data.drop i = o.toBytes ++ rest) :
    parseOptions data i = o :: parseOptions data (i + o.toBytes.length) := by
  rw [DhcpOption.toBytes_eq ho.ne_endMark, List.cons_append, List.cons_append] at h
  obtain ⟨h0, h255⟩ := ho.code_ne
  have hlen := ho.toNat_ofNat_length
  have hread := parseOptions_tlv h h0 h255 (by rw [hlen, List.length_append]; omega)
  have htake : (o.payload ++ rest).take o.payload.length = o.payload := List.take_left
  have hpos : i + o.toBytes.length = i + 2 + o.payload.length := by
    rw [DhcpOption.toBytes_eq ho.ne_endMark, List.length_cons, List.length_cons]
    omega
  rw [hread, hlen, htake, hpos,
    DhcpOption.parse_payload ho.ne_endMark fun c d hcd => (ho.unknown c d hcd).2.2]

/-- A list of sendable options in front of anything is read back option by option. -/
theorem parseOptions_flatMap_append {data : List UInt8} {i : ℕ} {opts : List DhcpOption}
    {rest : List UInt8} (hopts : ∀ o ∈ opts, o.Sendable)
    (h : data.drop i = opts.flatMap DhcpOption.toBytes ++ rest) :
    parseOptions data i =
      opts ++ parseOptions data (i + (opts.flatMap DhcpOption.toBytes).length) := by
  induction opts generalizing i with
  | nil => simp
  | cons o opts ih =>
    rw [List.flatMap_cons, List.append_assoc] at h
    have hnext : data.drop (i + o.toBytes.length) =
        opts.flatMap DhcpOption.toBytes ++ rest := by
      rw [← List.drop_drop, h, List.drop_left]
    rw [parseOptions_toBytes_append (hopts o (by simp)) h,
      ih (fun o' ho' => hopts o' (by simp [ho'])) hnext, List.flatMap_cons, List.length_append,
      List.cons_append, Nat.add_assoc]

/-- The bytes of a packet as the decoder indexes them. -/
theorem length_toBytes (p : DhcpPacket) :
    p.toBytes.length = 241 + (p.options.flatMap DhcpOption.toBytes).length := by
  simp only [toBytes, List.length_append, List.length_cons, List.length_nil, length_beBytes,
    Ipv4Addr.length_octets, MacAddress.length_asBytes, List.length_replicate, dhcpMagicCookie]
  omega

theorem drop_240_toBytes (p : DhcpPacket) :
    p.toBytes.drop 240 = p.options.flatMap DhcpOption.toBytes ++ [255] := by
  rw [toBytes, List.append_assoc _ (p.options.flatMap _) [255]]
  exact List.drop_left' (by
    simp only [List.length_append, List.length_cons, List.length_nil, length_beBytes,
      Ipv4Addr.length_octets, MacAddress.length_asBytes, List.length_replicate,
      dhcpMagicCookie])

theorem take_drop_236_toBytes (p : DhcpPacket) :
    (p.toBytes.drop 236).take 4 = dhcpMagicCookie := by
  rw [toBytes, List.append_assoc _ (p.options.flatMap _) [255],
    List.append_assoc _ dhcpMagicCookie, List.drop_left' (by
      simp only [List.length_append, List.length_cons, List.length_nil, length_beBytes,
        Ipv4Addr.length_octets, MacAddress.length_asBytes, List.length_replicate])]
  exact List.take_left' rfl

/-- A 16-bit number is rebuilt from its two bytes. -/
theorem exists_u16Bytes (x : UInt16) :
    ∃ a b, beBytes 2 x.toNat = [a, b] ∧ u16FromBytes a b = x := by
  refine ⟨_, _, rfl, ?_⟩
  have hlt : x.toNat < 256 ^ 2 := x.toNat_lt
  change UInt16.ofNat (beNat (beBytes 2 x.toNat)) = x
  rw [beNat_beBytes_of_lt hlt, UInt16.ofNat_toNat]

/-- **Decoding an encoded packet** never fails, keeps the header, and reads the options with
the loop started on the option area. -/
theorem parse_toBytes (p : DhcpPacket) :
    parse p.toBytes = .ok { p with options := parseOptions p.toBytes 240 } := by
  obtain ⟨x0, x1, x2, x3, hx, hxid⟩ := DhcpOption.exists_u32Bytes p.xid
  obtain ⟨s0, s1, hs, hsecs⟩ := exists_u16Bytes p.secs
  obtain ⟨f0, f1, hf, hflags⟩ := exists_u16Bytes p.flags
  obtain ⟨c0, c1, c2, c3, hc, hciaddr⟩ := p.ciaddr.exists_octets
  obtain ⟨y0, y1, y2, y3, hy, hyiaddr⟩ := p.yiaddr.exists_octets
  obtain ⟨i0, i1, i2, i3, hi, hsiaddr⟩ := p.siaddr.exists_octets
  obtain ⟨g0, g1, g2, g3, hg, hgiaddr⟩ := p.giaddr.exists_octets
  -- the 34 header bytes spelled out, so that every index of the decoder can be evaluated
  obtain ⟨tail, hbytes⟩ : ∃ tail, p.toBytes =
      [p.op, p.htype, p.hlen, p.hops, x0, x1, x2, x3, s0, s1, f0, f1, c0, c1, c2, c3,
        y0, y1, y2, y3, i0, i1, i2, i3, g0, g1, g2, g3, p.chaddr.b0, p.chaddr.b1,
        p.chaddr.b2, p.chaddr.b3, p.chaddr.b4, p.chaddr.b5] ++ tail := by
    refine ⟨List.replicate 202 0 ++ dhcpMagicCookie ++ p.options.flatMap DhcpOption.toBytes ++
      [255], ?_⟩
    simp only [toBytes, hx, hs, hf, hc, hy, hi, hg, MacAddress.asBytes, List.append_assoc,
      List.cons_append, List.nil_append]
  have hlen := p.length_toBytes
  have hcookie := p.take_drop_236_toBytes
  generalize p.toBytes = data at hbytes hlen hcookie ⊢
  rw [parse, dif_neg (by omega : ¬ data.length < 240)]
  have hlong : 240 < data.length := by omega
  simp only [hlong, hcookie, and_self, if_true]
  subst hbytes
  simp only [← hxid, ← hsecs, ← hflags, ← hciaddr, ← hyiaddr, ← hsiaddr, ← hgiaddr]
  rfl

/-- **Codec round trip.** A packet all of whose options can be written faithfully is decoded
from its own encoding, with the end mark the encoder added. -/
theorem parse_toBytes_of_sendable {p : DhcpPacket} (h : ∀ o ∈ p.options, o.Sendable) :
    parse p.toBytes = .ok { p with options := p.options ++ [.endMark] } := by
  have hdrop := p.drop_240_toBytes
  have hend : p.toBytes.drop (240 + (p.options.flatMap DhcpOption.toBytes).length) = [255] := by
    rw [← List.drop_drop, hdrop, List.drop_left]
  rw [parse_toBytes, parseOptions_flatMap_append h hdrop, parseOptions_endMark hend]

/-- **No round trip.** If the decoder reads an option differently from the part of its payload
that the narrowed length byte covers, the packet is not read back: the loop gets to this option
and the one it returns in its place is another. -/
theorem parse_toBytes_ne {p : DhcpPacket} {before after : List DhcpOption} {o : DhcpOption}
    (hp : p.options = before ++ o :: after) (hbefore : ∀ o ∈ before, o.Sendable)
    (hend : o ≠ .endMark) (h0 : o.code ≠ 0) (h255 : o.code ≠ 255)
    (hread : DhcpOption.parse o.code (o.payload.take (o.payload.length % 256)) ≠ o) :
    parse p.toBytes ≠ .ok { p with options := p.options ++ [.endMark] } := by
  rw [parse_toBytes]
  intro h
  have hopts : parseOptions p.toBytes 240 = p.options ++ [.endMark] :=
    congrArg DhcpPacket.options (Except.ok.inj h)
  have hdrop : p.toBytes.drop 240 = before.flatMap DhcpOption.toBytes ++
      (o.code :: UInt8.ofNat o.payload.length ::
        (o.payload ++ (after.flatMap DhcpOption.toBytes ++ [255]))) := by
    rw [drop_240_toBytes, hp, List.flatMap_append, List.flatMap_cons, DhcpOption.toBytes_eq hend]
    simp
  have hhere : p.toBytes.drop (240 + (before.flatMap DhcpOption.toBytes).length) =
      o.code :: UInt8.ofNat o.payload.length ::
        (o.payload ++ (after.flatMap DhcpOption.toBytes ++ [255])) := by
    rw [← List.drop_drop, hdrop, List.drop_left]
  have hlen : (UInt8.ofNat o.payload.length).toNat = o.payload.length % 256 :=
    UInt8.toNat_ofNat'
  have hle : o.payload.length % 256 ≤ o.payload.length := Nat.mod_le _ _
  rw [parseOptions_flatMap_append hbefore hdrop,
    parseOptions_tlv hhere h0 h255 (by rw [hlen, List.length_append]; omega), hlen, hp,
    List.take_append_of_le_length hle, List.append_assoc, List.cons_append] at hopts
  exact hread (List.cons.inj (List.append_cancel_left hopts)).1

/-- **Round trip over the whole option language.** Whatever the header and however many
options in whatever order: if none of them is the end mark, no payload exceeds 255 octets,
and every unknown option is one the decoder would also call unknown, then decoding the
encoded packet succeeds and yields the same header and the same options, followed by the end
mark. -/
theorem parse_toBytes_eq_ok (p : DhcpPacket) (hend : ∀ o ∈ p.options, o ≠ .endMark)
    (hlen : ∀ o ∈ p.options, o.payload.length ≤ 255)
    (hunknown : ∀ c d, DhcpOption.unknown c d ∈ p.options →
      c ≠ 0 ∧ c ≠ 255 ∧ DhcpOption.parse c d = .unknown c d) :
    parse p.toBytes = .ok { p with options := p.options ++ [.endMark] } :=
  parse_toBytes_of_sendable fun o ho =>
    ⟨hend o ho, hlen o ho, fun c d hcd => hunknown c d (hcd ▸ ho)⟩

theorem parse_toBytes_eq_ok_inform :
    parse ({ new with
        xid := 0x12345678
        options := [.messageType .inform, .hostname "host", .unknown 43 [1, 2]] }).toBytes =
      .ok { new with
        xid := 0x12345678
        options := [.messageType .inform, .hostname "host", .unknown 43 [1, 2], .endMark] } :=
  parse_toBytes_eq_ok _ (by simp) (by decide +kernel) (by
    intro c d h
    obtain ⟨rfl, rfl⟩ : c = 43 ∧ d = [1, 2] := by simpa using h
    decide)

end DhcpPacket

end Ndhcpd

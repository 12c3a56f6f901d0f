import Ndhcpd.Wire.Checked
import Ndhcpd.Proto.Packet

/-!
# Malformed and truncated datagrams

`DhcpPacket.parse` reads a datagram by position, and a datagram can be anything. Here the parser is
written a second time with checked access: every index and every slice of the source is an
operation that faults out of bounds, and the option loop is given a number of turns.
`parseChecked_eq` says that on no input does it fault, and that it computes what `parse` computes.

The second half compares the parser on a datagram and on a longer one. The exits of the option
loop depend on the length of the datagram, so the two runs need not agree; but the options of the
shorter one are the first options of the longer one, and once the end mark was read, nothing
behind it matters (`exists_parseOptions_append`).
-/

namespace Ndhcpd

open Checked

/-! ### The parser with checked access -/

/-- `chunks_exact(4)`. -/
def chunksExact4 : List UInt8 → List (List UInt8)
  | a :: b :: c :: d :: rest => [a, b, c, d] :: chunksExact4 rest
  | _ => []

/-- `Ipv4Addr::new(data[i], data[i + 1], data[i + 2], data[i + 3])`. -/
def indexAddr (data : List UInt8) (i : ℕ) : Except Fault Ipv4Addr := do
  let a ← index data i
  let b ← index data (i + 1)
  let c ← index data (i + 2)
  let d ← index data (i + 3)
  return .new a b c d

/-- `u32::from_be_bytes([data[i], data[i + 1], data[i + 2], data[i + 3]])`. -/
def indexU32 (data : List UInt8) (i : ℕ) : Except Fault UInt32 := do
  let a ← index data i
  let b ← index data (i + 1)
  let c ← index data (i + 2)
  let d ← index data (i + 3)
  return DhcpOption.u32FromBytes a b c d

/-- `u16::from_be_bytes([data[i], data[i + 1]])`. -/
def indexU16 (data : List UInt8) (i : ℕ) : Except Fault UInt16 := do
  let a ← index data i
  let b ← index data (i + 1)
  return u16FromBytes a b

namespace DhcpOption

/-- `DhcpOption::parse`, with checked access. -/
def parseChecked (code : UInt8) (data : List UInt8) : Except Fault DhcpOption :=
  if code = 1 ∧ data.length = 4 then return subnetMask (← indexAddr data 0)
  else if code = 3 then return router (← (chunksExact4 data).mapM (indexAddr · 0))
  else if code = 6 then return dnsServer (← (chunksExact4 data).mapM (indexAddr · 0))
  else if code = 15 then return domainName (fromUtf8Lossy data)
  else if code = 50 ∧ data.length = 4 then return requestedIpAddress (← indexAddr data 0)
  else if code = 51 ∧ data.length = 4 then return leaseTime (← indexU32 data 0)
  else if code = 53 ∧ data.length = 1 then do
    match MessageType.fromU8 (← index data 0) with
    | some mt => return messageType mt
    | none => return unknown code data
  else if code = 54 ∧ data.length = 4 then return serverIdentifier (← indexAddr data 0)
  else if code = 58 ∧ data.length = 4 then return renewalTime (← indexU32 data 0)
  else if code = 59 ∧ data.length = 4 then return rebindingTime (← indexU32 data 0)
  else if code = 12 then return hostname (fromUtf8Lossy data)
  else return unknown code data

end DhcpOption

namespace DhcpPacket

/-- The option loop, with checked access and at most the given number of turns. -/
def optionLoop : ℕ → List UInt8 → ℕ → List DhcpOption → Except Fault (List DhcpOption)
  | 0, _, _, _ => .error .outOfTurns
  | turns + 1, data, i, options =>
    if i < data.length then do
      let optionCode ← index data i
      if optionCode = 255 then return options ++ [.endMark]
      else if optionCode = 0 then optionLoop turns data (i + 1) options
      else if data.length ≤ i + 1 then return options
      else do
        let optionLen := (← index data (i + 1)).toNat
        if data.length < i + 2 + optionLen then return options
        else do
          let optionData ← slice data (i + 2) (i + 2 + optionLen)
          let option ← DhcpOption.parseChecked optionCode optionData
          optionLoop turns data (i + 2 + optionLen) (options ++ [option])
    else return options

/-- The options of a datagram: the cookie is looked at only behind 240 bytes. -/
def optionsChecked (turns : ℕ) (data : List UInt8) : Except Fault (List DhcpOption) :=
  if 240 < data.length then do
    if (← slice data 236 240) = dhcpMagicCookie then optionLoop turns data 240 []
    else return []
  else return []

/-- `MacAddress::from_slice`, with checked access. -/
def fromSliceChecked (bytes : List UInt8) : Except Fault (Option MacAddress) :=
  if 6 ≤ bytes.length then return MacAddress.fromSlice (← slice bytes 0 6) else return none

/-- `DhcpPacket::parse`, with checked access. -/
def parseChecked (turns : ℕ) (data : List UInt8) : Except Fault (Except String DhcpPacket) :=
  if data.length < 240 then return .error "Packet too small"
  else do
    let xid ← indexU32 data 4
    let secs ← indexU16 data 8
    let flags ← indexU16 data 10
    let ciaddr ← indexAddr data 12
    let yiaddr ← indexAddr data 16
    let siaddr ← indexAddr data 20
    let giaddr ← indexAddr data 24
    match ← fromSliceChecked (← slice data 28 34) with
    | none => return .error "Invalid MAC address"
    | some chaddr =>
      let options ← optionsChecked turns data
      let op ← index data 0
      let htype ← index data 1
      let hlen ← index data 2
      let hops ← index data 3
      return .ok ⟨op, htype, hlen, hops, xid, secs, flags, ciaddr, yiaddr, siaddr, giaddr, chaddr,
        options⟩

end DhcpPacket

/-! ### It does not fault -/

section Index

variable {data : List UInt8} {i : ℕ}

theorem indexAddr_of_lt (h : i + 3 < data.length) :
    indexAddr data i = .ok (.new data[i] data[i + 1] data[i + 2] data[i + 3]) := by
  rw [indexAddr, index_of_lt (by omega), index_of_lt (by omega), index_of_lt (by omega),
    index_of_lt (by omega)]
  rfl

theorem indexU32_of_lt (h : i + 3 < data.length) :
    indexU32 data i =
      .ok (DhcpOption.u32FromBytes data[i] data[i + 1] data[i + 2] data[i + 3]) := by
  rw [indexU32, index_of_lt (by omega), index_of_lt (by omega), index_of_lt (by omega),
    index_of_lt (by omega)]
  rfl

theorem indexU16_of_lt (h : i + 1 < data.length) :
    indexU16 data i = .ok (u16FromBytes data[i] data[i + 1]) := by
  rw [indexU16, index_of_lt (by omega), index_of_lt (by omega)]
  rfl

end Index

/-- The addresses in the chunks of four bytes. -/
theorem mapM_chunksExact4 (data : List UInt8) :
    (chunksExact4 data).mapM (indexAddr · 0) = .ok (DhcpOption.addrChunks data) := by
  induction data using DhcpOption.addrChunks.induct with
  | case1 a b c d rest ih =>
    rw [chunksExact4, List.mapM_cons, ih]
    rfl
  | case2 data hshort =>
    have hchunks : chunksExact4 data = [] := by
      unfold chunksExact4
      split
      · exact absurd rfl (hshort _ _ _ _ _)
      · rfl
    have hnone : DhcpOption.addrChunks data = [] := by
      unfold DhcpOption.addrChunks
      split
      · exact absurd rfl (hshort _ _ _ _ _)
      · rfl
    rw [hchunks, hnone]
    rfl

/-- No code stands for the end mark among the options. -/
theorem DhcpOption.parse_ne_endMark (code : UInt8) (data : List UInt8) :
    parse code data ≠ endMark := by
  unfold parse
  split
  case h_7 => split <;> simp
  all_goals simp

/-- A code that is told by its number. -/
private theorem code_eq_of_toNat {code : UInt8} {n : ℕ} (h : code.toNat = n) :
    code = UInt8.ofNat n := by
  rw [← h, UInt8.ofNat_toNat]

/-- Codes whose arm takes any data. -/
private theorem code_ne {code : UInt8} (n : UInt8) (h : code.toNat ≠ n.toNat) : code ≠ n := by
  rintro rfl
  exact h rfl

/-- Codes whose arm takes four bytes. -/
private theorem code_ne_of_four {code : UInt8} {data : List UInt8} (n : UInt8)
    (h : ∀ a b c d : UInt8, code.toNat = n.toNat → data = [a, b, c, d] → False) :
    ¬ (code = n ∧ data.length = 4) := by
  rintro ⟨rfl, hlen⟩
  match data, hlen with
  | [a, b, c, d], _ => exact h a b c d rfl rfl

/-- Codes whose arm takes one byte. -/
private theorem code_ne_of_one {code : UInt8} {data : List UInt8} (n : UInt8)
    (h : ∀ b : UInt8, code.toNat = n.toNat → data = [b] → False) :
    ¬ (code = n ∧ data.length = 1) := by
  rintro ⟨rfl, hlen⟩
  obtain ⟨b, rfl⟩ := List.length_eq_one_iff.mp hlen
  exact h b rfl rfl

/-- **An option** is parsed without a fault. -/
theorem DhcpOption.parseChecked_eq (code : UInt8) (data : List UInt8) :
    parseChecked code data = .ok (parse code data) := by
  fun_cases parse code data with
  | case1 a b c d hcode | case5 a b c d hcode | case6 a b c d hcode | case9 a b c d hcode
  | case10 a b c d hcode | case11 a b c d hcode =>
    -- an arm for four bytes, which the guard makes sure of
    obtain rfl := code_eq_of_toNat hcode
    rfl
  | case2 data hcode =>
    obtain rfl := code_eq_of_toNat hcode
    change ((chunksExact4 data).mapM (indexAddr · 0) >>= fun addrs => pure (router addrs)) = _
    rw [mapM_chunksExact4]
    rfl
  | case3 data hcode =>
    obtain rfl := code_eq_of_toNat hcode
    change ((chunksExact4 data).mapM (indexAddr · 0) >>= fun addrs => pure (dnsServer addrs)) = _
    rw [mapM_chunksExact4]
    rfl
  | case4 data hcode | case12 data hcode =>
    obtain rfl := code_eq_of_toNat hcode
    rfl
  | case7 b hcode mt hmt | case8 b hcode hmt =>
    obtain rfl := code_eq_of_toNat hcode
    simp [parseChecked, index, hmt]
  | case13 data h1 h3 h6 h15 h50 h51 h53 h54 h58 h59 h12 =>
    rw [parseChecked, if_neg (code_ne_of_four 1 h1), if_neg (code_ne 3 h3), if_neg (code_ne 6 h6),
      if_neg (code_ne 15 h15), if_neg (code_ne_of_four 50 h50), if_neg (code_ne_of_four 51 h51),
      if_neg (code_ne_of_one 53 h53), if_neg (code_ne_of_four 54 h54),
      if_neg (code_ne_of_four 58 h58), if_neg (code_ne_of_four 59 h59), if_neg (code_ne 12 h12)]
    rfl

namespace DhcpPacket

/-- **The option loop** ends within as many turns as there are bytes left and one more, and every
access is in bounds. -/
theorem optionLoop_eq {data : List UInt8} {i turns : ℕ} (hturns : data.length - i < turns)
    (options : List DhcpOption) :
    optionLoop turns data i options = .ok (options ++ parseOptions data i) := by
  induction turns generalizing i options with
  | zero => omega
  | succ turns ih =>
    rw [optionLoop, parseOptions]
    by_cases hi : i < data.length
    · rw [if_pos hi, dif_pos hi, index_of_lt hi, ok_bind]
      by_cases h255 : data[i] = 255
      · simp only [h255, if_true, pure_eq_ok]
      · by_cases h0 : data[i] = 0
        · simp only [h0, if_true, if_neg (by decide : ¬ (0 : UInt8) = 255)]
          exact ih (by omega) options
        · simp only [if_neg h255, if_neg h0]
          by_cases hi1 : i + 1 < data.length
          · rw [if_neg (by omega), dif_pos hi1, index_of_lt hi1, ok_bind]
            by_cases hlen : data.length < i + 2 + data[i + 1].toNat
            · simp only [if_pos hlen, pure_eq_ok, List.append_nil]
            · simp only [if_neg hlen]
              rw [slice_of_le (by omega) (by omega), ok_bind, DhcpOption.parseChecked_eq, ok_bind,
                ih (by omega), Nat.add_sub_cancel_left, List.append_assoc, List.singleton_append]
          · rw [if_pos (by omega), dif_neg hi1, pure_eq_ok, List.append_nil]
    · rw [if_neg hi, dif_neg hi, pure_eq_ok, List.append_nil]

theorem optionsChecked_eq {data : List UInt8} {turns : ℕ} (hturns : data.length < turns) :
    optionsChecked turns data =
      .ok (if 240 < data.length ∧ (data.drop 236).take 4 = dhcpMagicCookie then
        parseOptions data 240 else []) := by
  rw [optionsChecked]
  by_cases hlen : 240 < data.length
  · rw [if_pos hlen, slice_of_le (by omega) (by omega), ok_bind]
    simp only [hlen, true_and, Nat.reduceSub]
    split
    · rw [optionLoop_eq (by omega), List.nil_append]
    · rfl
  · rw [if_neg hlen, if_neg fun h => hlen h.1]
    rfl

theorem fromSliceChecked_eq {bytes : List UInt8} (h : bytes.length = 6) :
    fromSliceChecked bytes = .ok (MacAddress.fromSlice bytes) := by
  rw [fromSliceChecked, if_pos h.ge, slice_of_le (by omega) h.ge, ok_bind, pure_eq_ok,
    List.drop_zero, Nat.sub_zero, List.take_of_length_le h.le]

/-- **No input makes the parser fault.** -/
theorem parseChecked_eq {data : List UInt8} {turns : ℕ} (hturns : data.length < turns) :
    parseChecked turns data = .ok (parse data) := by
  rw [parseChecked, parse]
  by_cases hshort : data.length < 240
  · rw [if_pos hshort, dif_pos hshort]
    rfl
  · rw [if_neg hshort, dif_neg hshort, indexU32_of_lt (by omega), ok_bind,
      indexU16_of_lt (by omega), ok_bind, indexU16_of_lt (by omega), ok_bind,
      indexAddr_of_lt (by omega), ok_bind, indexAddr_of_lt (by omega), ok_bind,
      indexAddr_of_lt (by omega), ok_bind, indexAddr_of_lt (by omega), ok_bind,
      slice_of_le (by omega) (by omega), ok_bind]
    have hmac : ((data.drop 28).take (34 - 28)).length = 6 := by
      rw [List.length_take, List.length_drop]
      omega
    rw [fromSliceChecked_eq hmac, ok_bind]
    cases MacAddress.fromSlice ((data.drop 28).take (34 - 28)) with
    | none => rfl
    | some chaddr =>
      simp only
      rw [optionsChecked_eq hturns, ok_bind, index_of_lt (by omega), ok_bind,
        index_of_lt (by omega), ok_bind, index_of_lt (by omega), ok_bind, index_of_lt (by omega),
        ok_bind]
      rfl

/-! ### Longer datagrams -/

section Longer

variable {data : List UInt8} (extra : List UInt8)

private theorem lt_length_of_drop_eq_cons {i : ℕ} {b : UInt8} {rest : List UInt8}
    (h : data.drop i = b :: rest) : i < data.length := by
  by_contra hover
  rw [List.drop_eq_nil_of_le (by omega)] at h
  cases h

/-- A turn of the loop at a pad byte. -/
theorem parseOptions_pad {i : ℕ} {rest : List UInt8} (h : data.drop i = 0 :: rest) :
    parseOptions data i = parseOptions data (i + 1) := by
  have hi := lt_length_of_drop_eq_cons h
  have hpad : data[i] = 0 := by
    rw [List.drop_eq_getElem_cons hi] at h
    exact (List.cons.inj h).1
  rw [parseOptions, dif_pos hi]
  simp only [hpad, if_true, if_neg (by decide : ¬ (0 : UInt8) = 255)]

/-- **One turn of the option loop.** It finds nothing any more, or it is at an end mark, at a pad
byte, or at an option all of whose bytes are there. -/
theorem parseOptions_cases (data : List UInt8) (i : ℕ) :
    parseOptions data i = [] ∨ (∃ rest, data.drop i = 255 :: rest) ∨
      (∃ rest, data.drop i = 0 :: rest) ∨
      ∃ code len rest, data.drop i = code :: len :: rest ∧ code ≠ 0 ∧ code ≠ 255 ∧
        len.toNat ≤ rest.length := by
  by_cases hi : i < data.length
  · by_cases h255 : data[i] = 255
    · exact .inr (.inl ⟨_, by rw [List.drop_eq_getElem_cons hi, h255]⟩)
    · by_cases h0 : data[i] = 0
      · exact .inr (.inr (.inl ⟨_, by rw [List.drop_eq_getElem_cons hi, h0]⟩))
      · by_cases hi1 : i + 1 < data.length
        · by_cases hfits : data.length < i + 2 + data[i + 1].toNat
          · refine .inl ?_
            rw [parseOptions, dif_pos hi]
            simp only [if_neg h255, if_neg h0, dif_pos hi1, if_pos hfits]
          · refine .inr (.inr (.inr ⟨data[i], data[i + 1], data.drop (i + 2), ?_, h0, h255, ?_⟩))
            · rw [List.drop_eq_getElem_cons hi, List.drop_eq_getElem_cons hi1]
            · rw [List.length_drop]
              omega
        · refine .inl ?_
          rw [parseOptions, dif_pos hi]
          simp only [if_neg h255, if_neg h0, dif_neg hi1]
  · refine .inl ?_
    rw [parseOptions, dif_neg hi]

/-- What is left of a datagram is what is left of a longer one, but for the end. -/
private theorem drop_append_of_eq_cons {i : ℕ} {b : UInt8} {rest : List UInt8}
    (h : data.drop i = b :: rest) : (data ++ extra).drop i = b :: (rest ++ extra) := by
  rw [List.drop_append_of_le_length (lt_length_of_drop_eq_cons h).le, h, List.cons_append]

/-- **The option loop on a longer datagram** finds the same options and possibly more, but none
after an end mark. -/
theorem exists_parseOptions_append (i : ℕ) :
    ∃ tail, parseOptions (data ++ extra) i = parseOptions data i ++ tail ∧
      (DhcpOption.endMark ∈ parseOptions data i → tail = []) := by
  induction hn : data.length - i using Nat.strong_induction_on generalizing i with
  | h n ih =>
  rcases parseOptions_cases data i with
    hstop | ⟨rest, h⟩ | ⟨rest, h⟩ | ⟨code, len, rest, h, h0, h255, hlen⟩
  · -- a loop that ends for lack of bytes has found no end mark
    rw [hstop]
    exact ⟨_, rfl, by simp⟩
  · refine ⟨[], ?_, fun _ => rfl⟩
    rw [parseOptions_endMark h, parseOptions_endMark (drop_append_of_eq_cons extra h),
      List.append_nil]
  · have hi := lt_length_of_drop_eq_cons h
    rw [parseOptions_pad h, parseOptions_pad (drop_append_of_eq_cons extra h)]
    exact ih _ (by omega) (i + 1) rfl
  · have hi := lt_length_of_drop_eq_cons h
    obtain ⟨tail, htail, hend⟩ := ih _ (by omega) (i + 2 + len.toNat) rfl
    have hlonger : (data ++ extra).drop i = code :: len :: (rest ++ extra) :=
      drop_append_of_eq_cons extra h
    have hlen' : len.toNat ≤ (rest ++ extra).length := by
      rw [List.length_append]
      omega
    rw [parseOptions_tlv h h0 h255 hlen, parseOptions_tlv hlonger h0 h255 hlen',
      List.take_append_of_le_length hlen, htail]
    refine ⟨tail, rfl, fun hmem => hend ?_⟩
    rcases List.mem_cons.mp hmem with heq | hmem
    · exact absurd heq.symm (DhcpOption.parse_ne_endMark code _)
    · exact hmem

private theorem take_drop_append {start n : ℕ} (h : start + n ≤ data.length) :
    ((data ++ extra).drop start).take n = (data.drop start).take n := by
  rw [List.drop_append_of_le_length (by omega), List.take_append_of_le_length]
  rw [List.length_drop]
  omega

/-- The options of a datagram: none without the cookie. -/
def optionsOf (data : List UInt8) : List DhcpOption :=
  if (data.drop 236).take 4 = dhcpMagicCookie then parseOptions data 240 else []

/-- A datagram of exactly 240 bytes has no options, so the test for its length is not needed. -/
theorem options_eq_optionsOf :
    (if 240 < data.length ∧ (data.drop 236).take 4 = dhcpMagicCookie then parseOptions data 240
      else []) = optionsOf data := by
  by_cases hlen : 240 < data.length
  · simp only [hlen, true_and, optionsOf]
  · have hnone : parseOptions data 240 = [] := by rw [parseOptions, dif_neg hlen]
    rw [if_neg fun h => hlen h.1, optionsOf, hnone, ite_self]

/-- The options of a longer datagram. -/
theorem exists_optionsOf_append (h : 240 ≤ data.length) :
    ∃ tail, optionsOf (data ++ extra) = optionsOf data ++ tail ∧
      (DhcpOption.endMark ∈ optionsOf data → tail = []) := by
  rw [optionsOf, optionsOf, take_drop_append extra (by omega)]
  split
  · exact exists_parseOptions_append extra 240
  · exact ⟨[], rfl, by simp⟩

/-- **A datagram of at least 240 bytes** is a packet, and all that a longer one can change are its
options. -/
theorem exists_parse (h : 240 ≤ data.length) :
    ∃ p, parse data = .ok p ∧ p.options = optionsOf data ∧
      ∀ extra, parse (data ++ extra) = .ok { p with options := optionsOf (data ++ extra) } := by
  have hlen : ∀ extra : List UInt8, (data ++ extra).length = data.length + extra.length :=
    fun extra => List.length_append
  obtain ⟨chaddr, hmac⟩ : ∃ chaddr, MacAddress.fromSlice ((data.drop 28).take 6) = some chaddr := by
    have hsix : ((data.drop 28).take 6).length = 6 := by
      rw [List.length_take, List.length_drop]
      omega
    match (data.drop 28).take 6, hsix with
    | [b0, b1, b2, b3, b4, b5], _ => exact ⟨⟨b0, b1, b2, b3, b4, b5⟩, rfl⟩
  have hparse : ∀ data' : List UInt8, ∀ hlen' : 240 ≤ data'.length,
      MacAddress.fromSlice ((data'.drop 28).take 6) = some chaddr →
      parse data' = .ok ⟨data'[0], data'[1], data'[2], data'[3],
        DhcpOption.u32FromBytes data'[4] data'[5] data'[6] data'[7],
        u16FromBytes data'[8] data'[9], u16FromBytes data'[10] data'[11],
        .new data'[12] data'[13] data'[14] data'[15],
        .new data'[16] data'[17] data'[18] data'[19],
        .new data'[20] data'[21] data'[22] data'[23],
        .new data'[24] data'[25] data'[26] data'[27], chaddr, optionsOf data'⟩ := by
    intro data' hlen' hmac'
    rw [parse, dif_neg (by omega), hmac']
    simp only [options_eq_optionsOf]
  refine ⟨_, hparse data h hmac, rfl, fun extra => ?_⟩
  rw [hparse (data ++ extra) (by rw [hlen]; omega) (by rw [take_drop_append extra (by omega), hmac])]
  simp (disch := omega) only [List.getElem_append_left]

end Longer

end DhcpPacket

/-- **Parsing is safe and monotone.** For every datagram: with checked access and one turn of the
option loop for each byte and one more, the parser computes its result without a fault; it returns
an error exactly if the datagram has fewer than 240 bytes. Of every longer datagram it reads the
same header, and the same options followed by possibly more of them; the two results are equal if
the end mark is among the options. -/
theorem parse_safe_and_monotone (d : List UInt8) :
    (∀ turns, d.length < turns → DhcpPacket.parseChecked turns d = .ok (DhcpPacket.parse d)) ∧
    ((∃ msg, DhcpPacket.parse d = .error msg) ↔ d.length < 240) ∧
    (240 ≤ d.length → ∀ e, ∃ p p', DhcpPacket.parse d = .ok p ∧
      DhcpPacket.parse (d ++ e) = .ok p' ∧ p' = { p with options := p'.options } ∧
      p.options <+: p'.options ∧ (DhcpOption.endMark ∈ p.options → p' = p)) := by
  refine ⟨fun turns hturns => DhcpPacket.parseChecked_eq hturns, ⟨?_, ?_⟩, fun hlong e => ?_⟩
  · rintro ⟨msg, h⟩
    by_contra hlong
    obtain ⟨p, hp, -⟩ := DhcpPacket.exists_parse (not_lt.mp hlong)
    cases hp.symm.trans h
  · intro hshort
    exact ⟨_, by rw [DhcpPacket.parse, dif_pos hshort]⟩
  · obtain ⟨p, hp, hoptions, hlonger⟩ := DhcpPacket.exists_parse hlong
    obtain ⟨tail, htail, hend⟩ := DhcpPacket.exists_optionsOf_append e hlong
    rw [← hoptions] at htail hend
    refine ⟨p, _, hp, hlonger e, rfl, ⟨tail, htail.symm⟩, fun hmem => ?_⟩
    rw [htail, hend hmem, List.append_nil]

end Ndhcpd

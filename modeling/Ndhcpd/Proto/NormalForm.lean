import Ndhcpd.Proto.ParseSafety

/-!
# Packets that were read

The parser accepts far more than the encoder writes: padding between options, anything behind the
end mark, no end mark at all, address lists with a few octets too many, options whose length does
not fit their code. What it makes of them is a packet in which each option is one the encoder can
write (`mem_parseOptions`), with one exception: a name that is not well-formed text grows when its
bad octets are replaced, up to three octets for one, and may then be too long for the length byte.

`reserialized_iff` follows a datagram through the parser, the encoder and the parser again: the
packet comes back in its `normalForm`, with one end mark and that at the end, exactly if no name
has grown too long.
-/

namespace Ndhcpd

namespace DhcpOption

variable {code c : UInt8} {data d : List UInt8}

/-- The option is a name. -/
def IsName : DhcpOption → Prop
  | domainName _ | hostname _ => True
  | _ => False

/-- An unknown option is what was read. -/
theorem eq_of_parse_eq_unknown (h : parse code data = unknown c d) : c = code ∧ d = data := by
  unfold parse at h
  split at h
  case h_7 b =>
    split at h
    · cases h
    · obtain ⟨rfl, rfl⟩ := unknown.inj h
      exact ⟨rfl, rfl⟩
  case h_12 =>
    obtain ⟨rfl, rfl⟩ := unknown.inj h
    exact ⟨rfl, rfl⟩
  all_goals cases h

/-- Only a name can be longer than the octets it was read from. -/
theorem length_payload_parse (code : UInt8) (data : List UInt8) :
    (parse code data).payload.length ≤ data.length ∨ (parse code data).IsName := by
  unfold parse
  split
  case h_2 =>
    left
    rw [payload, length_flatMap_octets, Nat.mul_comm]
    exact length_addrChunks_le _
  case h_3 =>
    left
    rw [payload, length_flatMap_octets, Nat.mul_comm]
    exact length_addrChunks_le _
  case h_4 => exact .inr trivial
  case h_11 => exact .inr trivial
  case h_7 b => split <;> exact .inl (by simp [payload])
  all_goals exact .inl (by simp [payload])

/-- What the parser makes of the octets of an option. -/
structure Readable (o : DhcpOption) : Prop where
  ne_endMark : o ≠ endMark
  unknown : ∀ c d, o = .unknown c d → c ≠ 0 ∧ c ≠ 255 ∧ parse c d = .unknown c d
  short_or_name : o.payload.length ≤ 255 ∨ o.IsName

theorem readable_parse (h0 : code ≠ 0) (h255 : code ≠ 255) (hlen : data.length ≤ 255) :
    (parse code data).Readable where
  ne_endMark := parse_ne_endMark code data
  unknown c d h := by
    obtain ⟨rfl, rfl⟩ := eq_of_parse_eq_unknown h
    exact ⟨h0, h255, h⟩
  short_or_name := (length_payload_parse code data).imp_left fun h => h.trans hlen

variable {o : DhcpOption}

/-- An option that was read can be written, unless it is a name that has grown too long. -/
theorem Readable.sendable (h : o.Readable) (hlen : o.payload.length ≤ 255) : o.Sendable :=
  ⟨h.ne_endMark, hlen, h.unknown⟩

/-- A name that is too long is cut, and what is left is another name. -/
theorem Readable.parse_take_ne (h : o.Readable) (hlong : 255 < o.payload.length) :
    (o.code ≠ 0 ∧ o.code ≠ 255) ∧
      parse o.code (o.payload.take (o.payload.length % 256)) ≠ o := by
  have hcut : o.payload.length % 256 + 16 ≤ o.payload.length := by omega
  cases o with
  | domainName name =>
    refine ⟨by simp [code], fun heq => ?_⟩
    exact fromUtf8Lossy_take_ne name hcut (domainName.inj heq)
  | hostname name =>
    refine ⟨by simp [code], fun heq => ?_⟩
    exact fromUtf8Lossy_take_ne name hcut (hostname.inj heq)
  | _ =>
    rcases h.short_or_name with hshort | hname
    · omega
    · cases hname

end DhcpOption

namespace DhcpPacket

variable {data : List UInt8} {i : ℕ} {p : DhcpPacket}

/-- **What the option loop finds**: end marks, and options that were read. -/
theorem mem_parseOptions {o : DhcpOption} (ho : o ∈ parseOptions data i) :
    o = .endMark ∨ o.Readable := by
  fun_induction parseOptions data i with
  | case1 => exact .inl (List.mem_singleton.mp ho)
  | case2 _ _ _ _ _ ih => exact ih ho
  | case3 => cases ho
  | case4 i hi optionCode h255 h0 hi1 optionLen hfits optionData ih =>
    rcases List.mem_cons.mp ho with rfl | ho
    · refine .inr (DhcpOption.readable_parse h0 h255 ?_)
      have hlt := data[i + 1].toNat_lt
      rw [List.length_take]
      omega
    · exact ih ho
  | case5 => cases ho
  | case6 => cases ho

/-- The packet without its end marks. -/
def unmarked (p : DhcpPacket) : DhcpPacket := { p with options := p.options.filter (· ≠ .endMark) }

/-- The packet with one end mark, at the end. -/
def normalForm (p : DhcpPacket) : DhcpPacket :=
  { p with options := p.options.filter (· ≠ .endMark) ++ [.endMark] }

/-- End marks among the options are not written. -/
theorem toBytes_unmarked (p : DhcpPacket) : p.unmarked.toBytes = p.toBytes := by
  have hflat : ∀ opts : List DhcpOption, (opts.filter (· ≠ .endMark)).flatMap DhcpOption.toBytes =
      opts.flatMap DhcpOption.toBytes := by
    intro opts
    induction opts with
    | nil => rfl
    | cons o opts ih =>
      by_cases ho : o = .endMark
      · rw [List.filter_cons_of_neg (by simpa using ho), List.flatMap_cons, ih, ho]
        rfl
      · rw [List.filter_cons_of_pos (by simpa using ho), List.flatMap_cons, List.flatMap_cons, ih]
  rw [toBytes, toBytes, unmarked, hflat]

theorem toBytes_normalForm (p : DhcpPacket) : p.normalForm.toBytes = p.toBytes := by
  rw [← toBytes_unmarked p.normalForm, ← toBytes_unmarked p]
  simp [unmarked, normalForm, List.filter_append]

/-- The options of a packet that was read. -/
theorem readable_of_parse (h : parse data = .ok p) : ∀ o ∈ p.unmarked.options, o.Readable := by
  intro o ho
  obtain ⟨ho, hne⟩ := List.mem_filter.mp ho
  have hlong : 240 ≤ data.length := by
    by_contra hshort
    rw [parse, dif_pos (not_le.mp hshort)] at h
    cases h
  obtain ⟨p', hp', hoptions, -⟩ := exists_parse hlong
  obtain rfl := Except.ok.inj (h.symm.trans hp')
  rw [hoptions, optionsOf] at ho
  split at ho
  · rcases mem_parseOptions ho with rfl | hread
    · simp at hne
    · exact hread
  · cases ho

/-- A packet with options that were read comes back, if all of them are short enough. -/
theorem parse_toBytes_of_readable (h : ∀ o ∈ p.unmarked.options, o.Readable) :
    parse p.toBytes = .ok p.normalForm ↔ ∀ o ∈ p.unmarked.options, o.payload.length ≤ 255 := by
  rw [← toBytes_unmarked]
  constructor
  · intro hback
    by_contra hlong
    push Not at hlong
    obtain ⟨o, ho, hlen⟩ := hlong
    -- the first option that is too long is read as another one
    obtain ⟨first, hfirst⟩ : ∃ first, p.unmarked.options.find? (fun o => 255 < o.payload.length) =
        some first :=
      Option.isSome_iff_exists.mp (List.find?_isSome.mpr ⟨o, ho, by simpa using hlen⟩)
    obtain ⟨hfirst_long, before, after, hsplit, hbefore⟩ := List.find?_eq_some_iff_append.mp hfirst
    have hmem : first ∈ p.unmarked.options := List.mem_of_find?_eq_some hfirst
    obtain ⟨hcode, hread⟩ := (h first hmem).parse_take_ne (by simpa using hfirst_long)
    have hsendable : ∀ o ∈ before, o.Sendable := by
      intro o ho
      refine (h o (by rw [hsplit]; exact List.mem_append_left _ ho)).sendable ?_
      simpa using hbefore o ho
    exact parse_toBytes_ne hsplit hsendable (h first hmem).ne_endMark hcode.1 hcode.2 hread hback
  · intro hshort
    exact parse_toBytes_of_sendable fun o ho => (h o ho).sendable (hshort o ho)

/-- **Packets come back in normal form.** Let a datagram be accepted. The packet it was read as is
written to octets that are read as its normal form, exactly if no option has a payload of more than
255 octets, which only a host or domain name can have; and the normal form is written to the same
octets, so that nothing changes any more after that. -/
theorem reserialized_iff (h : parse data = .ok p) :
    (parse p.toBytes = .ok p.normalForm ↔ ∀ o ∈ p.options, o.payload.length ≤ 255) ∧
      (∀ o ∈ p.options, 255 < o.payload.length → o.IsName) ∧
      p.normalForm.toBytes = p.toBytes := by
  have hread := readable_of_parse h
  have hmem : ∀ o ∈ p.options, o = .endMark ∨ o ∈ p.unmarked.options := by
    intro o ho
    by_cases hne : o = .endMark
    · exact .inl hne
    · exact .inr (List.mem_filter.mpr ⟨ho, by simpa using hne⟩)
  refine ⟨(parse_toBytes_of_readable hread).trans ⟨fun hshort o ho => ?_, fun hshort o ho => ?_⟩,
    fun o ho hlong => ?_, toBytes_normalForm p⟩
  · rcases hmem o ho with rfl | ho
    · exact Nat.zero_le _
    · exact hshort o ho
  · exact hshort o (List.mem_filter.mp ho).1
  · rcases hmem o ho with rfl | ho
    · cases hlong
    · exact (hread o ho).short_or_name.resolve_left (by omega)

/-- A packet with a host name. -/
theorem reserialized_iff_host :
    let p : DhcpPacket := { new with options := [.hostname "host", .endMark] }
    parse ({ new with options := [.hostname "host"] } : DhcpPacket).toBytes = .ok p ∧
      parse p.toBytes = .ok p.normalForm := by
  intro p
  have hread : parse ({ new with options := [.hostname "host"] } : DhcpPacket).toBytes = .ok p := by
    refine parse_toBytes_of_sendable fun o ho => ?_
    rw [List.mem_singleton.mp ho]
    exact ⟨by simp, by decide +kernel, by simp⟩
  refine ⟨hread, (reserialized_iff hread).1.mpr ?_⟩
  decide +kernel

end DhcpPacket

end Ndhcpd

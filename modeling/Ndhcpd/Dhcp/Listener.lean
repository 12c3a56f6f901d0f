import Ndhcpd.Dhcp.System
import Ndhcpd.Interaction.FrontEnd
import Ndhcpd.Utils.Frame

/-!
# The listener on the wire

`listen_loop` around the packet handlers. It owns one receive buffer of 1500 bytes that every
datagram is written into, drops what arrives on interfaces it does not manage and what does not
parse, lets `handlePacket` answer the rest, and sends the answer: as a raw Ethernet frame to a
client that has no address yet, otherwise through a UDP socket. For answers that go to
255.255.255.255 it keeps a socket for each interface, created when it is first needed.

The step function follows the loop body. What the system says is part of the action: the
datagram with the interface it came in on, the addresses of that interface, and whether a new
socket can be opened.

`Listener.fronts` says that all this is a front end of the `daemon`: the buffer, the filter and the
parser in front of it and the sockets behind it. `listener_refines_daemon` is the statement for
whole runs, and `broadcast_socket_use` says when the extra sockets are used.
-/

namespace Ndhcpd

/-- The part of the configuration that the DHCP server reads. -/
structure Config where
  listenInterfaces : List String
  dhcp : DhcpConfig
deriving DecidableEq, Repr

/-- An address and a port. -/
structure SocketAddr where
  ip : Ipv4Addr
  port : UInt16
deriving DecidableEq, Repr

/-- The port of the server. -/
def dhcpServerPort : UInt16 := 67

/-- The port of the clients. -/
def dhcpClientPort : UInt16 := 68

/-- The limited broadcast address. -/
def Ipv4Addr.broadcast : Ipv4Addr := .new 255 255 255 255

/-! ### Receiving -/

/-- A datagram with the interface it arrived on, as far as the ancillary data tells, and the
addresses of that interface. -/
structure Received where
  data : List UInt8
  interface : Option String
  ifaceIps : List Ipv4Addr
  ifaceMac : Option MacAddress
deriving DecidableEq, Repr

/-- The name of the interface; `"unknown"` if it could not be determined. -/
def Received.ifaceName (a : Received) : String := a.interface.getD "unknown"

/-- Receive one datagram: the system writes as much of it as fits over the start of the buffer.
Returned are the number of bytes received, the name of the interface and the buffer. -/
def recvWithInterface (buf : List UInt8) (a : Received) : ℕ × String × List UInt8 :=
  let len := min a.data.length buf.length
  (len, a.ifaceName, a.data.take len ++ buf.drop len)

/-! ### Sending -/

/-- The destination of a response (RFC 2131, section 4.1). -/
def responseDest (request response : DhcpPacket) : SocketAddr :=
  if request.giaddr ≠ .unspecified then
    -- relay agent present
    ⟨request.giaddr, dhcpServerPort⟩
  else if request.ciaddr ≠ .unspecified then
    -- the client already has an address
    ⟨request.ciaddr, dhcpClientPort⟩
  else if request.flags &&& 0x8000 ≠ 0 then
    -- the client asked for a broadcast
    ⟨.broadcast, dhcpClientPort⟩
  else ⟨response.yiaddr, dhcpClientPort⟩

/-- The frame that `send_dhcp_raw_l2_broadcast` puts on the wire. -/
def dhcpRawL2Broadcast (ifaceMac : Option MacAddress) (srcIp dstIp : Ipv4Addr)
    (dhcpPayload : List UInt8) : List UInt8 :=
  buildL2UdpFrame (ifaceMac.getD ⟨0, 0, 0, 0, 0, 0⟩) ⟨0xff, 0xff, 0xff, 0xff, 0xff, 0xff⟩ srcIp dstIp
    dhcpServerPort dhcpClientPort dhcpPayload

/-- What the listener sends: a raw frame on an interface, a datagram through the socket it listens
on, or a datagram through the broadcast socket of an interface. -/
inductive Transmission
  | rawFrame (iface : String) (frame : List UInt8)
  | listenSocket (dest : SocketAddr) (payload : List UInt8)
  | broadcastSocket (iface : String) (dest : SocketAddr) (payload : List UInt8)
deriving DecidableEq, Repr

/-- The broadcast sockets by interface. An entry says whether the socket could be opened. -/
abbrev BcastSockets : Type := List (String × Bool)

/-- `entry(name).or_insert_with(create)`: the entry of the interface, which is created if there is
none; `created` says whether creating the socket succeeds. -/
def BcastSockets.entryOrInsert (sockets : BcastSockets) (name : String) (created : Bool) :
    Bool × BcastSockets :=
  match sockets.lookup name with
  | some opened => (opened, sockets)
  | none => (created, (name, created) :: sockets)

/-- Send the response to a packet. -/
def sendResponse (a : Received) (packet response : DhcpPacket) (created : Bool)
    (sockets : BcastSockets) : Transmission × BcastSockets :=
  let responseBytes := response.toBytes
  let dest := responseDest packet response
  let isBroadcast : Bool := dest.ip = .broadcast
  if packet.ciaddr = .unspecified ∧ packet.giaddr = .unspecified then
    let dstIp := if isBroadcast then .broadcast else response.yiaddr
    let srcIp := a.ifaceIps.head?.getD .unspecified
    (.rawFrame a.ifaceName (dhcpRawL2Broadcast a.ifaceMac srcIp dstIp responseBytes), sockets)
  else if isBroadcast then
    match sockets.entryOrInsert a.ifaceName created with
    | (true, sockets) => (.broadcastSocket a.ifaceName dest responseBytes, sockets)
    | (false, sockets) => (.listenSocket dest responseBytes, sockets)
  else (.listenSocket dest responseBytes, sockets)

/-! ### The loop -/

/-- The state of the listener: the world, the receive buffer, the broadcast sockets, and the
packet in progress with what is left to do for it. -/
structure Listener (σ : Type) where
  scene : Scene σ
  buf : List UInt8
  bcastSockets : BcastSockets
  job : Option (Received × DhcpPacket × ServerProgram (Option DhcpPacket))

/-- What can happen next: `recvmsg` returns, with a datagram or with an error; the handler of the
packet in progress goes on, and if it is done its response is sent; another task makes a
move. -/
inductive ListenAction
  | recv (a : Option Received)
  | call (fails created : Bool)
  | move (m : Move)
deriving DecidableEq, Repr

/-- The datagram that an action delivers. -/
def ListenAction.arrival : ListenAction → Option Received
  | .recv a => a
  | _ => none

/-- A packet that has been handled. -/
structure Handled where
  arrival : Received
  packet : DhcpPacket
  response : Option DhcpPacket
  sent : Option Transmission
deriving DecidableEq, Repr

namespace Listener

variable {σ : Type}

/-- The listener after the start: an empty buffer of 1500 bytes and no broadcast sockets. -/
def start (w : World σ) : Listener σ := ⟨⟨w, none⟩, List.replicate 1500 0, [], none⟩

/-- The beginning of the loop body, up to `handle_packet`. -/
def receive (config : Config) (a : Received) (s : Listener σ) : Listener σ :=
  let (len, ifaceName, buf) := recvWithInterface s.buf a
  let s := { s with buf }
  if config.listenInterfaces.any (· == ifaceName) then
    match DhcpPacket.parse (buf.take len) with
    | .error _ => s
    | .ok packet =>
      { s with
        scene := { s.scene with granted := none }
        job := some (a, packet, handlePacket packet a.ifaceIps config.dhcp) }
  else s

/-- The rest of the loop body, once `handle_packet` has returned. -/
def respond (a : Received) (packet : DhcpPacket) (response : Option DhcpPacket) (created : Bool)
    (s : Listener σ) : Handled × Listener σ :=
  match response with
  | none => (⟨a, packet, none, none⟩, { s with job := none })
  | some response =>
    let (sent, bcastSockets) := sendResponse a packet response created s.bcastSockets
    (⟨a, packet, some response, some sent⟩, { s with bcastSockets, job := none })

/-- One step. -/
def step (store : Store σ) (config : Config) (s : Listener σ) :
    ListenAction → Option Handled × Listener σ
  | .recv none => (none, s)
  | .recv (some a) =>
    match s.job with
    -- the datagram waits in the queue of the socket
    | some _ => (none, s)
    | none => (none, s.receive config a)
  | .call fails created =>
    match s.job with
    | none => (none, s)
    | some (a, packet, .done response) =>
      let out := s.respond a packet response created
      (some out.1, out.2)
    | some (a, packet, .request c next) =>
      let out := s.scene.serve store fails c
      (none, { s with scene := out.2, job := some (a, packet, next out.1) })
  | .move m => (none, { s with scene := (s.scene.move store m).2 })

/-- The state a run ends in. -/
abbrev after (store : Store σ) (config : Config) (s : Listener σ) (acts : List ListenAction) :
    Listener σ :=
  Run.after (fun s a => (step store config s a).2) s acts

/-- The packets handled in a run. -/
abbrev handled (store : Store σ) (config : Config) (s : Listener σ) (acts : List ListenAction) :
    List Handled :=
  Run.outputs (step store config) s acts

end Listener

/-! ### The daemon inside -/

/-- The packet that a datagram carries, if it is one for the handlers: it came in on a managed
interface, and its first 1500 bytes parse. -/
def Received.decode (config : Config) (a : Received) : Option DhcpPacket :=
  if config.listenInterfaces.any (· == a.ifaceName) then
    (DhcpPacket.parse (a.data.take 1500)).toOption
  else none

/-- What the daemon gets to see of an action of the listener. -/
def ListenAction.view (config : Config) : ListenAction → Option DaemonAction
  | .recv none => none
  | .recv (some a) => (a.decode config).map fun packet => .receive ⟨packet, a.ifaceIps⟩
  | .call fails _ => some (.call fails)
  | .move m => some (.move m)

/-- The daemon inside the listener. -/
def Listener.inside {σ : Type} (s : Listener σ) : DaemonState σ :=
  ⟨s.scene, s.job.map fun job => (⟨job.2.1, job.1.ifaceIps⟩, job.2.2)⟩

/-- What the daemon knows of a packet that has been handled. -/
def Handled.shown (h : Handled) : Datagram × Option DhcpPacket :=
  (⟨h.packet, h.arrival.ifaceIps⟩, h.response)

namespace Listener

variable {σ : Type} {store : Store σ} {config : Config} {s : Listener σ}

/-- The buffer keeps its length, and what is read from it is the datagram, cut off at the length
of the buffer: nothing of earlier datagrams shows through. -/
theorem recvWithInterface_spec (buf : List UInt8) (a : Received) :
    (recvWithInterface buf a).2.2.length = buf.length ∧
      (recvWithInterface buf a).2.2.take (recvWithInterface buf a).1 = a.data.take buf.length := by
  simp only [recvWithInterface]
  have hlen : (a.data.take (min a.data.length buf.length)).length = min a.data.length buf.length := by
    rw [List.length_take]
    omega
  constructor
  · rw [List.length_append, hlen, List.length_drop]
    omega
  · rw [List.take_left' hlen, Nat.min_comm, ← List.take_eq_take_min]

/-- **The body of the loop** starts handling exactly the packets that `decode` finds. -/
theorem receive_eq (hbuf : s.buf.length = 1500) (a : Received) :
    s.receive config a =
      match a.decode config with
      | none => { s with buf := (recvWithInterface s.buf a).2.2 }
      | some packet =>
        { s with
          scene := { s.scene with granted := none }
          buf := (recvWithInterface s.buf a).2.2
          job := some (a, packet, handlePacket packet a.ifaceIps config.dhcp) } := by
  obtain ⟨-, hread⟩ := recvWithInterface_spec s.buf a
  rw [hbuf] at hread
  have hname : (recvWithInterface s.buf a).2.1 = a.ifaceName := rfl
  simp only [receive, Received.decode, hread, hname]
  split
  · cases DhcpPacket.parse (a.data.take 1500) <;> rfl
  · rfl

/-- **The listener is a front end of the daemon.** -/
theorem fronts (store : Store σ) (config : Config) :
    (daemon store config.dhcp).Fronts (step store config) (ListenAction.view config) inside
      Handled.shown fun s => s.buf.length = 1500 where
  inv s a hbuf := by
    cases a with
    | move m => exact hbuf
    | recv a =>
      rcases a with _ | a
      · exact hbuf
      · rcases hjob : s.job with _ | job
        · have hlen : (recvWithInterface s.buf a).2.2.length = 1500 :=
            (recvWithInterface_spec s.buf a).1.trans hbuf
          simp only [step, hjob, receive_eq hbuf]
          split <;> exact hlen
        · simpa only [step, hjob] using hbuf
    | call fails created =>
      rcases hjob : s.job with _ | ⟨a, packet, _ | ⟨c, next⟩⟩
      · simpa only [step, hjob] using hbuf
      · rename_i response
        simp only [step, hjob, respond]
        cases response <;> exact hbuf
      · simpa only [step, hjob] using hbuf
  pass s a b hbuf hview := by
    cases a with
    | move m =>
      obtain rfl := Option.some.inj hview
      exact ⟨rfl, rfl⟩
    | recv a =>
      rcases a with _ | a
      · cases hview
      · obtain ⟨packet, hdecode, rfl⟩ := Option.map_eq_some_iff.mp hview
        rcases hjob : s.job with _ | job
        · simp only [step, hjob, receive_eq hbuf, hdecode]
          refine ⟨?_, ?_⟩ <;> simp only [inside, hjob] <;> rfl
        · simp only [step, hjob, inside]
          exact ⟨rfl, rfl⟩
    | call fails created =>
      obtain rfl := Option.some.inj hview
      rcases hjob : s.job with _ | ⟨a, packet, _ | ⟨c, next⟩⟩
      · simp only [step, hjob, inside]
        exact ⟨rfl, rfl⟩
      · rename_i response
        simp only [step, hjob, respond]
        cases response <;> simp only [inside, hjob] <;> exact ⟨rfl, rfl⟩
      · simp only [step, hjob, inside]
        exact ⟨rfl, rfl⟩
  drop s a hbuf hview := by
    cases a with
    | move m => cases hview
    | call fails created => cases hview
    | recv a =>
      rcases a with _ | a
      · exact ⟨rfl, rfl⟩
      · have hdecode : a.decode config = none := Option.map_eq_none_iff.mp hview
        rcases hjob : s.job with _ | job
        · simp only [step, hjob, receive_eq hbuf, hdecode]
          exact ⟨by simp only [inside, hjob], trivial⟩
        · simp only [step, hjob, inside]
          exact ⟨trivial, trivial⟩

/-! ### Who is answered -/

/-- The datagram in progress. -/
def current (s : Listener σ) : Option Received := s.job.map (·.1)

/-- The packet in progress is the one that its datagram carries. -/
structure Decoded (config : Config) (s : Listener σ) : Prop where
  buf : s.buf.length = 1500
  job : ∀ a packet p, s.job = some (a, packet, p) → a.decode config = some packet

/-- A datagram is put in progress only with the packet it carries. -/
theorem Decoded.receive (h : s.Decoded config) (hjob : s.job = none) (a : Received) :
    (s.receive config a).Decoded config ∧ (s.receive config a).current.toList.Sublist [a] := by
  have hlen := (recvWithInterface_spec s.buf a).1.trans h.buf
  rw [receive_eq h.buf]
  cases hdecode : a.decode config with
  | none =>
    refine ⟨⟨hlen, fun b packet p hb => ?_⟩, ?_⟩
    · rw [hjob] at hb
      cases hb
    · simp [current, hjob]
  | some packet =>
    refine ⟨⟨hlen, fun b packet' p hb => ?_⟩, List.Sublist.refl _⟩
    simp only [Option.some.injEq, Prod.mk.injEq] at hb
    obtain ⟨rfl, rfl, -⟩ := hb
    exact hdecode

/-- The response was sent by `sendResponse`; without a response nothing was sent. -/
def SentBy (x : Handled) (sockets : BcastSockets) : Prop :=
  ∃ created, x.sent = x.response.map fun r =>
    (sendResponse x.arrival x.packet r created sockets).1

/-- **One step.** The datagrams answered and in progress after it are among those in progress and
arriving before it, in this order; an answer is to the packet that the datagram carries, and
something is sent exactly if the handlers have a response. -/
theorem Decoded.step (h : s.Decoded config) (a : ListenAction) :
    (Listener.step store config s a).2.Decoded config ∧
    ((Listener.step store config s a).1.toList.map Handled.arrival ++
      (Listener.step store config s a).2.current.toList).Sublist
        (s.current.toList ++ a.arrival.toList) ∧
    ∀ x, (Listener.step store config s a).1 = some x →
      x.arrival.decode config = some x.packet ∧ SentBy x s.bcastSockets := by
  cases a with
  | move m => exact ⟨⟨h.buf, h.job⟩, by simp [Listener.step, current, ListenAction.arrival], by
      simp [Listener.step]⟩
  | recv a =>
    rcases a with _ | a
    · exact ⟨h, by simp [Listener.step], by simp [Listener.step]⟩
    · rcases hjob : s.job with _ | job
      · obtain ⟨hdecoded, hsub⟩ := h.receive hjob a
        simp only [Listener.step, hjob]
        refine ⟨hdecoded, ?_, by simp⟩
        exact hsub.trans (List.sublist_append_right _ _)
      · simp only [Listener.step, hjob]
        exact ⟨h, by simp, by simp⟩
  | call fails created =>
    rcases hjob : s.job with _ | ⟨a, packet, _ | ⟨c, next⟩⟩
    · simp only [Listener.step, hjob]
      exact ⟨h, by simp, by simp⟩
    · rename_i response
      have hdecode := h.job a packet _ hjob
      simp only [Listener.step, hjob]
      rcases response with _ | response
      · refine ⟨⟨h.buf, by simp [respond]⟩, by simp [respond, current, hjob], fun x hx => ?_⟩
        obtain rfl := Option.some.inj hx
        exact ⟨hdecode, false, rfl⟩
      · refine ⟨⟨h.buf, by simp [respond]⟩, by simp [respond, current, hjob], fun x hx => ?_⟩
        obtain rfl := Option.some.inj hx
        exact ⟨hdecode, created, rfl⟩
    · have hdecode := h.job a packet _ hjob
      simp only [Listener.step, hjob]
      refine ⟨⟨h.buf, fun b packet' p hb => ?_⟩, by simp [current, hjob], by simp⟩
      simp only [Option.some.injEq, Prod.mk.injEq] at hb
      obtain ⟨rfl, rfl, -⟩ := hb
      exact hdecode

theorem decoded_start (config : Config) (w : World σ) : (start w).Decoded config :=
  ⟨List.length_replicate, fun _ _ _ h => nomatch h⟩

/-- **Runs.** The datagrams that are answered arrived in this order, and none is answered
twice. -/
theorem Decoded.arrivals (h : s.Decoded config) (acts : List ListenAction) :
    ((handled store config s acts).map Handled.arrival ++
      (after store config s acts).current.toList).Sublist
        (s.current.toList ++ acts.filterMap ListenAction.arrival) := by
  induction acts generalizing s with
  | nil => simp [handled, Run.outputs]
  | cons a acts ih =>
    obtain ⟨hnext, hsub, -⟩ := @Decoded.step _ store config s h a
    have hrest := ih hnext
    have harrival : (a :: acts).filterMap ListenAction.arrival =
        a.arrival.toList ++ acts.filterMap ListenAction.arrival := by
      cases ha : a.arrival <;> simp [ha]
    have houtputs : (handled store config s (a :: acts)).map Handled.arrival =
        (Listener.step store config s a).1.toList.map Handled.arrival ++
          (handled store config (Listener.step store config s a).2 acts).map Handled.arrival :=
      List.map_append
    rw [houtputs, harrival, List.append_assoc, ← List.append_assoc s.current.toList]
    refine (hrest.append_left _).trans ?_
    rw [← List.append_assoc]
    exact hsub.append_right _

/-- What is handled in a run from the start are the answers of the daemon. -/
theorem map_shown_handled (w : World σ) (acts : List ListenAction) :
    (handled store config (.start w) acts).map Handled.shown =
      (daemon store config.dhcp).answers (idle w) (acts.filterMap (ListenAction.view config)) :=
  (fronts store config).outputs_eq List.length_replicate acts

theorem of_mem_handled {w : World σ} {acts : List ListenAction} {x : Handled}
    (hx : x ∈ handled store config (.start w) acts) :
    x.arrival.decode config = some x.packet ∧ ∃ sockets, SentBy x sockets := by
  refine Run.outputs_forall (Q := fun _ _ => True)
    (P := fun x => x.arrival.decode config = some x.packet ∧ ∃ sockets, SentBy x sockets)
    (fun s a hs _ => ?_) (Run.along_of_forall fun _ _ _ => trivial) (decoded_start config w) x hx
  obtain ⟨hnext, -, hout⟩ := @Decoded.step _ store config s hs a
  exact ⟨fun x hx => ⟨(hout x hx).1, _, (hout x hx).2⟩, hnext⟩

end Listener

/-- **The listener refines the daemon.** For every store, configuration and world and every run:
whatever bytes arrive on whichever interfaces, inside the listener the daemon runs on the packets
that the first 1500 bytes of the datagrams on managed interfaces carry, and everything else is as
if it had never arrived; the packets handled are the answers of that run, one by one; the
datagrams they came in are answered in the order of their arrival and at most once; and something
is sent for a packet exactly if the handlers have a response to it. -/
theorem listener_refines_daemon {σ : Type} (store : Store σ) (config : Config) (w : World σ)
    (acts : List ListenAction) :
    (Listener.after store config (.start w) acts).inside =
      (daemon store config.dhcp).after (idle w) (acts.filterMap (ListenAction.view config)) ∧
    (Listener.handled store config (.start w) acts).map Handled.shown =
      (daemon store config.dhcp).answers (idle w) (acts.filterMap (ListenAction.view config)) ∧
    ((Listener.handled store config (.start w) acts).map Handled.arrival).Sublist
      (acts.filterMap ListenAction.arrival) ∧
    ∀ x ∈ Listener.handled store config (.start w) acts,
      x.arrival.decode config = some x.packet ∧ (x.sent.isSome ↔ x.response.isSome) := by
  have hinside := (Listener.fronts store config).inside_after (t := .start w)
    List.length_replicate acts
  refine ⟨hinside, Listener.map_shown_handled w acts, ?_, fun x hx => ?_⟩
  · exact (List.sublist_append_left _ _).trans ((Listener.decoded_start config w).arrivals acts)
  · obtain ⟨hdecode, sockets, created, hsent⟩ := Listener.of_mem_handled hx
    exact ⟨hdecode, by simp [hsent]⟩

/-! ### The broadcast sockets -/

namespace BcastSockets

variable {sockets : BcastSockets} {name : String}

/-- The entry of an interface is there afterwards and says what was used, other entries stay, and
no interface gets a second one. -/
theorem entryOrInsert_spec (sockets : BcastSockets) (name : String) (created : Bool) :
    (sockets.entryOrInsert name created).2.lookup name = some (sockets.entryOrInsert name created).1 ∧
    (∀ other opened, sockets.lookup other = some opened →
      (sockets.entryOrInsert name created).2.lookup other = some opened) ∧
    ((sockets.map Prod.fst).Nodup →
      ((sockets.entryOrInsert name created).2.map Prod.fst).Nodup) := by
  rw [entryOrInsert]
  cases hname : sockets.lookup name with
  | some opened => exact ⟨hname, fun _ _ h => h, fun h => h⟩
  | none =>
    refine ⟨List.lookup_cons_self, fun other opened hother => ?_, fun hnodup => ?_⟩
    · have hne : other ≠ name := by
        rintro rfl
        rw [hname] at hother
        cases hother
      have hbeq : (other == name) = false := beq_false_of_ne hne
      rw [List.lookup_cons, hbeq]
      exact hother
    · refine List.nodup_cons.mpr ⟨fun hmem => ?_, hnodup⟩
      obtain ⟨entry, hentry, hfst⟩ := List.mem_map.mp hmem
      have hne : ¬ name = entry.1 := by simpa using List.lookup_eq_none_iff.mp hname entry hentry
      exact hne hfst.symm

end BcastSockets

/-- A broadcast socket is used only for a response to 255.255.255.255 that does not go out as a
raw frame, so that the address is one the client or its relay agent gave as its own. -/
theorem sendResponse_broadcastSocket {a : Received} {packet response : DhcpPacket} {created : Bool}
    {sockets : BcastSockets} {iface : String} {dest : SocketAddr} {payload : List UInt8}
    (h : (sendResponse a packet response created sockets).1 =
      .broadcastSocket iface dest payload) :
    iface = a.ifaceName ∧ dest.ip = .broadcast ∧
      (packet.giaddr = .broadcast ∨
        packet.giaddr = .unspecified ∧ packet.ciaddr = .broadcast) ∧
      (sendResponse a packet response created sockets).2.lookup iface = some true := by
  obtain ⟨hentry, -, -⟩ := sockets.entryOrInsert_spec a.ifaceName created
  simp only [sendResponse] at h ⊢
  split at h
  · cases h
  · next hraw =>
    rw [if_neg hraw]
    split at h
    · next hbroadcast =>
      rw [if_pos hbroadcast]
      rcases hsocket : sockets.entryOrInsert a.ifaceName created with ⟨_ | _, sockets'⟩
      · simp only [hsocket] at h
        cases h
      · simp only [hsocket, Transmission.broadcastSocket.injEq] at h ⊢
        obtain ⟨rfl, rfl, -⟩ := h
        have hip : (responseDest packet response).ip = .broadcast := of_decide_eq_true hbroadcast
        refine ⟨rfl, hip, ?_, by simpa [hsocket] using hentry⟩
        unfold responseDest at hip
        split at hip
        · exact .inl hip
        · next hgiaddr =>
          rw [ne_eq, not_not] at hgiaddr
          refine .inr ⟨hgiaddr, ?_⟩
          split at hip
          · exact hip
          · next hciaddr => exact absurd ⟨not_not.mp hciaddr, hgiaddr⟩ hraw
    · cases h

/-- Sending keeps the entries of the broadcast sockets, and no interface gets two. -/
theorem sendResponse_sockets (a : Received) (packet response : DhcpPacket) (created : Bool)
    (sockets : BcastSockets) :
    (∀ name opened, sockets.lookup name = some opened →
      (sendResponse a packet response created sockets).2.lookup name = some opened) ∧
    ((sockets.map Prod.fst).Nodup →
      ((sendResponse a packet response created sockets).2.map Prod.fst).Nodup) := by
  obtain ⟨-, hkept, hnodup⟩ := sockets.entryOrInsert_spec a.ifaceName created
  simp only [sendResponse]
  split
  · exact ⟨fun _ _ h => h, fun h => h⟩
  · split
    · rcases hsocket : sockets.entryOrInsert a.ifaceName created with ⟨_ | _, sockets'⟩ <;>
        · simp only [hsocket] at hkept hnodup ⊢
          exact ⟨hkept, hnodup⟩
    · exact ⟨fun _ _ h => h, fun h => h⟩

namespace Listener

variable {σ : Type} {store : Store σ} {config : Config} {s : Listener σ}

/-- The broadcast sockets change only when a response is sent. -/
theorem step_sockets (a : ListenAction) :
    ((step store config s a).2.bcastSockets = s.bcastSockets ∧
      ∀ x, (step store config s a).1 = some x → x.sent = none) ∨
    ∃ arrival packet response created,
      (step store config s a).2.bcastSockets =
        (sendResponse arrival packet response created s.bcastSockets).2 ∧
      (step store config s a).1 = some ⟨arrival, packet, some response,
        some (sendResponse arrival packet response created s.bcastSockets).1⟩ := by
  cases a with
  | move m => exact .inl ⟨rfl, by simp [step]⟩
  | recv a =>
    rcases a with _ | a
    · exact .inl ⟨rfl, by simp [step]⟩
    · rcases hjob : s.job with _ | job
      · refine .inl ⟨?_, by simp [step, hjob]⟩
        simp only [step, hjob, receive]
        split
        · split <;> rfl
        · rfl
      · exact .inl ⟨by simp only [step, hjob], by simp [step, hjob]⟩
  | call fails created =>
    rcases hjob : s.job with _ | ⟨a, packet, _ | ⟨c, next⟩⟩
    · exact .inl ⟨by simp only [step, hjob], by simp [step, hjob]⟩
    · rename_i response
      rcases response with _ | response
      · exact .inl ⟨by simp only [step, hjob, respond], by simp [step, hjob, respond]⟩
      · exact .inr ⟨a, packet, response, created, by simp only [step, hjob, respond], by
          simp only [step, hjob, respond]⟩
    · exact .inl ⟨by simp only [step, hjob], by simp [step, hjob]⟩

/-- **One step** keeps the sockets and creates at most one for an interface. -/
theorem step_sockets_kept (a : ListenAction) :
    (∀ name opened, s.bcastSockets.lookup name = some opened →
      (step store config s a).2.bcastSockets.lookup name = some opened) ∧
    ((s.bcastSockets.map Prod.fst).Nodup →
      ((step store config s a).2.bcastSockets.map Prod.fst).Nodup) := by
  rcases @step_sockets _ store config s a with ⟨hsame, -⟩ | ⟨arrival, packet, response, created,
    hsend, -⟩
  · rw [hsame]
    exact ⟨fun _ _ h => h, fun h => h⟩
  · rw [hsend]
    exact sendResponse_sockets arrival packet response created s.bcastSockets

theorem sockets_after (acts : List ListenAction) :
    (∀ name opened, s.bcastSockets.lookup name = some opened →
      (after store config s acts).bcastSockets.lookup name = some opened) ∧
    ((s.bcastSockets.map Prod.fst).Nodup →
      ((after store config s acts).bcastSockets.map Prod.fst).Nodup) := by
  induction acts generalizing s with
  | nil => exact ⟨fun _ _ h => h, fun h => h⟩
  | cons a acts ih =>
    obtain ⟨hkept, hnodup⟩ := @step_sockets_kept _ store config s a
    obtain ⟨hkept', hnodup'⟩ := @ih (step store config s a).2
    exact ⟨fun name opened h => hkept' name opened (hkept name opened h), fun h => hnodup' (hnodup h)⟩

/-- Whatever goes out through a broadcast socket goes out through the one that the listener has for
the interface at the end of the run. -/
theorem handled_broadcastSocket (acts : List ListenAction) {x : Handled}
    (hx : x ∈ handled store config s acts) {iface : String} {dest : SocketAddr}
    {payload : List UInt8} (hsent : x.sent = some (.broadcastSocket iface dest payload)) :
    iface = x.arrival.ifaceName ∧ dest.ip = .broadcast ∧
      (x.packet.giaddr = .broadcast ∨
        x.packet.giaddr = .unspecified ∧ x.packet.ciaddr = .broadcast) ∧
      (after store config s acts).bcastSockets.lookup iface = some true := by
  induction acts generalizing s with
  | nil => cases hx
  | cons a acts ih =>
    rcases List.mem_append.mp hx with hx | hx
    · rw [Option.mem_toList] at hx
      rcases @step_sockets _ store config s a with ⟨-, hnone⟩ | ⟨arrival, packet, response, created,
        hsend, hout⟩
      · rw [hnone x hx] at hsent
        cases hsent
      · obtain rfl : _ = x := Option.some.inj (hout.symm.trans hx)
        obtain ⟨hiface, hip, haddr, hlookup⟩ :=
          sendResponse_broadcastSocket (Option.some.inj hsent)
        rw [← hsend] at hlookup
        exact ⟨hiface, hip, haddr, (sockets_after acts).1 iface true hlookup⟩
    · exact ih hx

end Listener

/-- **The broadcast sockets.** In every run of the listener an interface gets at most one broadcast
socket, and an attempt to create it, successful or not, is never repeated. A datagram goes out
through such a socket only if the address 255.255.255.255 stands in the packet itself, as that of
the relay agent or of the client; the broadcast flag, which the sockets are meant for, has no part
in it. -/
theorem broadcast_socket_use {σ : Type} (store : Store σ) (config : Config) (w : World σ)
    (acts more : List ListenAction) :
    ((Listener.after store config (.start w) acts).bcastSockets.map Prod.fst).Nodup ∧
    (∀ name opened, (Listener.after store config (.start w) acts).bcastSockets.lookup name =
        some opened →
      (Listener.after store config (.start w) (acts ++ more)).bcastSockets.lookup name =
        some opened) ∧
    ∀ x ∈ Listener.handled store config (.start w) acts, ∀ iface dest payload,
      x.sent = some (.broadcastSocket iface dest payload) →
      iface = x.arrival.ifaceName ∧ dest.ip = .broadcast ∧
        (x.packet.giaddr = .broadcast ∨
          x.packet.giaddr = .unspecified ∧ x.packet.ciaddr = .broadcast) ∧
        (Listener.after store config (.start w) acts).bcastSockets.lookup iface = some true := by
  refine ⟨(Listener.sockets_after acts).2 List.nodup_nil, fun name opened h => ?_,
    fun x hx iface dest payload hsent => Listener.handled_broadcastSocket acts hx hsent⟩
  rw [Listener.after, Run.after_append]
  exact (Listener.sockets_after more).1 name opened h

end Ndhcpd

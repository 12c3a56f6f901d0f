import Ndhcpd.Interaction.Loop
import Ndhcpd.Db.Sqlite
import Ndhcpd.Dhcp.Server

/-!
# The daemon as a system of tasks

`listen_loop` handles one packet at a time; the clean-up task and the REST API work on the
same database meanwhile, and their statements fall between any two database calls of the
listener. `daemon` is this system as a `Loop`: the requests are the datagrams with the
addresses of the interface they came in on, the calls are those of the packet handlers, and
a move of another task is a database call of its own or the passing of time.

The other tasks are not programs here: a move may be any database call at all. The results
about the daemon restrict them to what the other tasks really do, which is everything but
`create_lease` and `expire_lease` (`Move.fromApi`).

The world of the system carries one auxiliary field that no handler reads: the lease that
the packet in progress has recorded. It tells an acknowledgement of the dynamic branch from
one of the static branch.
-/

namespace Ndhcpd

/-- A packet with the addresses of the interface it was received on. -/
structure Datagram where
  packet : DhcpPacket
  ifaceIps : List Ipv4Addr
deriving DecidableEq, Repr

/-- The world, with the lease recorded for the packet in progress. -/
structure Scene (σ : Type) extends World σ where
  granted : Option Lease

/-- What the tasks beside the listener do: let time pass, or call the database. -/
inductive Move
  | tick (seconds : ℕ)
  | request (c : DbCall) (fails : Bool)
deriving DecidableEq, Repr

namespace Move

/-- What a move shows. -/
def Obs : Move → Type
  | tick _ => Unit
  | request c _ => c.Result

/-- The moves of the REST API and of the clean-up task: they never write a lease on behalf of
a client. -/
def fromApi : Move → Bool
  | tick _ => true
  | request c _ => !c.writesLease

/-- The moves that let every subnet stay. -/
def keepsSubnets : Move → Bool
  | request (.deleteSubnet _) _ => false
  | _ => true

end Move

namespace Scene

variable {σ : Type}

/-- The lease recorded after a call. -/
def noteGrant : (c : ServerCall) → c.Reply → Option Lease → Option Lease
  | .db (.createLease lease), .ok _, _ => some lease
  | _, _, granted => granted

/-- Execute a call of the listener. -/
def serve (store : Store σ) (fails : Bool) (c : ServerCall) (s : Scene σ) :
    c.Reply × Scene σ :=
  let out := Ndhcpd.serve store ⟨0, fails⟩ c s.toWorld
  (out.1, ⟨out.2, noteGrant c out.1 s.granted⟩)

/-- Execute a move of another task. -/
def move (store : Store σ) (s : Scene σ) : (m : Move) → m.Obs × Scene σ
  | .tick seconds => ((), { s with clock := s.clock + seconds })
  | .request c fails =>
    let out := Ndhcpd.serve store ⟨0, fails⟩ (.db c) s.toWorld
    (out.1, ⟨out.2, s.granted⟩)

end Scene

/-- The listener, next to the other tasks. -/
def daemon {σ : Type} (store : Store σ) (config : DhcpConfig) :
    Loop ServerCall ServerCall.Reply (Scene σ) Datagram (Option DhcpPacket) Bool Move Move.Obs where
  handler d := handlePacket d.packet d.ifaceIps config
  accept _ s := { s with granted := none }
  exec := Scene.serve store
  move m s := s.move store m

/-- A run of the daemon, action by action. -/
abbrev DaemonAction : Type := Loop.Action Datagram Bool Move

/-- A state of the daemon. -/
abbrev DaemonState (σ : Type) : Type :=
  Loop.State ServerCall ServerCall.Reply (Scene σ) Datagram (Option DhcpPacket)

/-- What a step of the daemon shows. -/
abbrev DaemonEvent (σ : Type) : Type :=
  Loop.Event ServerCall ServerCall.Reply (Scene σ) Datagram (Option DhcpPacket) Move Move.Obs

/-- The daemon between two packets. -/
def idle {σ : Type} (w : World σ) : DaemonState σ := ⟨⟨w, none⟩, none⟩

/-! ### A small network

One subnet with one range of eleven addresses and two clients. The examples of runs refer to
it. -/

namespace Sample

/-- The subnet 10.0.0.0/24. -/
def subnet : SubnetRow := ⟨1, .new 10 0 0 0, 24, .new 10 0 0 1, [.new 10 0 0 1], none⟩

/-- Its range, from 10.0.0.10 to 10.0.0.20. -/
def range : RangeRow := ⟨1, 1, .new 10 0 0 10, .new 10 0 0 20, true⟩

/-- The database with the subnet and its range, and no leases. -/
def db : SqliteDb where
  subnets := [subnet]
  dynamicRanges := [range]
  staticIps := []
  leases := []
  iaPrefixes := []
  apiTokens := []
  subnetSeq := 1
  rangeSeq := 1
  leaseSeq := 0
  iaPrefixSeq := 0
  tokenSeq := 0

/-- The world at the epoch. -/
def world : World SqliteDb := ⟨db, 0⟩

/-- Leases of one minute. -/
def config : DhcpConfig := ⟨60⟩

/-- The interface on the network. -/
def iface : List Ipv4Addr := [.new 10 0 0 1]

/-- The hardware address of one client. -/
def alice : MacAddress := ⟨2, 0, 0, 0, 0, 1⟩

/-- The hardware address of the other client. -/
def bob : MacAddress := ⟨2, 0, 0, 0, 0, 2⟩

/-- A packet of a client. -/
def message (type : MessageType) (mac : MacAddress) (options : List DhcpOption) : DhcpPacket :=
  { DhcpPacket.new with chaddr := mac, options := .messageType type :: options }

/-- A DISCOVER. -/
def discover (mac : MacAddress) : DhcpPacket := message .discover mac []

/-- A REQUEST for an address. -/
def request (mac : MacAddress) (ip : Ipv4Addr) : DhcpPacket :=
  message .request mac [.requestedIpAddress ip]

/-- A lease of Alice from 0 to 60. -/
def lease : LeaseRow := ⟨1, 1, alice.toString, .new 10 0 0 10, 0, 60, none⟩

/-- The network after Alice has got her lease. -/
def leased : SqliteDb := { db with leases := [lease], leaseSeq := 1 }

end Sample

/-! ### One call -/

section Serve

/-- A database call fails and changes nothing, or it is executed; either way some time may have
passed. -/
theorem serve_cases {σ : Type} (store : Store σ) (fate : Fate) (c : DbCall) (w : World σ) :
    (fate.fails = true ∧
      serve store fate (.db c) w = (.error .unavailable, ⟨w.db, w.clock + fate.wait⟩)) ∨
    (fate.fails = false ∧
      serve store fate (.db c) w = ((store (w.clock + fate.wait) w.db c).1,
        ⟨(store (w.clock + fate.wait) w.db c).2, w.clock + fate.wait⟩)) := by
  cases hf : fate.fails with
  | true => exact .inl ⟨rfl, by simp [serve, hf]⟩
  | false => exact .inr ⟨rfl, by simp [serve, hf]⟩

theorem serve_calm {σ : Type} (store : Store σ) (c : DbCall) (w : World σ) :
    serve store .calm (.db c) w = ((store w.clock w.db c).1,
      ⟨(store w.clock w.db c).2, w.clock⟩) := by
  simp [serve, Fate.calm]

variable {ord : ScanOrder}

/-- A read leaves the database as it is. -/
theorem serve_of_isRead {c : ServerCall} (hc : c.isRead = true) (fate : Fate)
    (w : World SqliteDb) : (serve (SqliteDb.exec ord) fate c w).2 = ⟨w.db, w.clock + fate.wait⟩ := by
  cases c with
  | utcNow => rfl
  | db c =>
    have hdb : (SqliteDb.exec ord (w.clock + fate.wait) w.db c).2 = w.db :=
      SqliteDb.exec_of_isRead hc
    cases hf : fate.fails <;> simp [serve, hf, hdb]

/-- A program that starts with a call: the call fails and changes nothing, or it is executed at
some later time. -/
theorem run_call {α : Type} {w : World SqliteDb} {c : DbCall} {k : c.Result → ServerProgram α}
    {P : Program.Outcome α (World SqliteDb) Fate → Prop}
    (hfails : ∀ t, w.clock ≤ t → ∀ fates, P ((k (.error .unavailable)).run
      (serve (SqliteDb.exec ord)) fates ⟨w.db, t⟩))
    (hok : ∀ t, w.clock ≤ t → ∀ fates, P ((k (SqliteDb.exec ord t w.db c).1).run
      (serve (SqliteDb.exec ord)) fates ⟨(SqliteDb.exec ord t w.db c).2, t⟩))
    (fates : ℕ → Fate) : P ((dbCall c >>= k).run (serve (SqliteDb.exec ord)) fates w) := by
  have ht : w.clock ≤ w.clock + (fates 0).wait := by omega
  rw [dbCall_bind, Program.run_request]
  rcases serve_cases (SqliteDb.exec ord) (fates 0) c w with ⟨-, hserve⟩ | ⟨-, hserve⟩
  · rw [hserve]
    exact hfails _ ht _
  · rw [hserve]
    exact hok _ ht _

/-- A program that starts with a read: the database stays as it is. -/
theorem run_read {α : Type} {w : World SqliteDb} {c : DbCall} (hc : c.isRead = true)
    {k : c.Result → ServerProgram α} {P : Program.Outcome α (World SqliteDb) Fate → Prop}
    (hfails : ∀ t, w.clock ≤ t → ∀ fates, P ((k (.error .unavailable)).run
      (serve (SqliteDb.exec ord)) fates ⟨w.db, t⟩))
    (hok : ∀ t, w.clock ≤ t → ∀ fates, P ((k (SqliteDb.exec ord t w.db c).1).run
      (serve (SqliteDb.exec ord)) fates ⟨w.db, t⟩))
    (fates : ℕ → Fate) : P ((dbCall c >>= k).run (serve (SqliteDb.exec ord)) fates w) := by
  refine run_call hfails (fun t ht fates => ?_) fates
  rw [SqliteDb.exec_of_isRead hc]
  exact hok t ht fates

/-- A program that is a single statement: it fails and changes nothing, or it is executed. -/
theorem run_statement {α : Type} {w : World SqliteDb} {c : DbCall} {fates : ℕ → Fate}
    {k : c.Result → ServerProgram α} (hk : ∀ r, ∃ a, k r = .done a) :
    ((dbCall c >>= k).run (serve (SqliteDb.exec ord)) fates w).state.db =
      if (fates 0).fails then w.db
      else (SqliteDb.exec ord (w.clock + (fates 0).wait) w.db c).2 := by
  rw [dbCall_bind, Program.run_request]
  obtain ⟨a, ha⟩ := hk (serve (SqliteDb.exec ord) (fates 0) (.db c) w).1
  rw [ha, Program.run_done]
  rcases serve_cases (SqliteDb.exec ord) (fates 0) c w with ⟨hf, hserve⟩ | ⟨hf, hserve⟩ <;>
    simp [hf, hserve]

theorem Scene.noteGrant_of_isRead {c : ServerCall} (hc : c.isRead = true) (r : c.Reply)
    (granted : Option Lease) : noteGrant c r granted = granted := by
  cases c with
  | utcNow => rfl
  | db c => cases c <;> first | rfl | cases hc

/-- A read leaves the scene as it is. -/
theorem Scene.serve_of_isRead {c : ServerCall} (hc : c.isRead = true) (fails : Bool)
    (s : Scene SqliteDb) : (s.serve (SqliteDb.exec ord) fails c).2 = s := by
  simp only [Scene.serve, Ndhcpd.serve_of_isRead hc, noteGrant_of_isRead hc]
  simp

theorem Scene.serve_fails {σ : Type} {store : Store σ} {s : Scene σ} (c : DbCall) :
    s.serve store true (.db c) = (.error .unavailable, s) := by
  have hnote : noteGrant (.db c) (.error .unavailable) s.granted = s.granted := by
    cases c <;> rfl
  simp [Scene.serve, Ndhcpd.serve, hnote]

theorem Scene.serve_succeeds {σ : Type} {store : Store σ} {s : Scene σ} (c : DbCall) :
    s.serve store false (.db c) = ((store s.clock s.db c).1,
      ⟨⟨(store s.clock s.db c).2, s.clock⟩,
        noteGrant (.db c) (store s.clock s.db c).1 s.granted⟩) := by
  simp only [Scene.serve, Ndhcpd.serve, Nat.cast_zero, add_zero]
  rfl

theorem Scene.move_fails {σ : Type} {store : Store σ} {s : Scene σ} (c : DbCall) :
    s.move store (.request c true) = (.error .unavailable, s) := by
  simp [Scene.move, Ndhcpd.serve]

theorem Scene.move_succeeds {σ : Type} {store : Store σ} {s : Scene σ} (c : DbCall) :
    s.move store (.request c false) = ((store s.clock s.db c).1,
      ⟨⟨(store s.clock s.db c).2, s.clock⟩, s.granted⟩) := by
  simp only [Scene.move, Ndhcpd.serve, Nat.cast_zero, add_zero]
  rfl

end Serve

end Ndhcpd

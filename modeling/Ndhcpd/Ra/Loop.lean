import Ndhcpd.Interaction.Readiness
import Ndhcpd.Interaction.Run
import Ndhcpd.Ra.Server

/-!
# The loop of the Router Advertisement server

`run_on_interface` calls `send_ra` when it starts, at every tick of its timer, and for every Router
Solicitation. The loop waits for the timer or for its socket to be readable. When it is, the loop
drains the socket: it receives until `recvfrom` would block or fails, and then clears the readiness.
Meanwhile further datagrams arrive, the driver of the runtime has its turns, and the other tasks use
the database. How readiness comes about is left to the runtime: it is any `Readiness`.

`solicitations_answered` is about what the loop has done at any time: the solicitations for which
`send_ra` was called, followed by those still in the socket, are the solicitations that came in; and
it says when each of these calls has handed an advertisement to the socket. It holds with and
without the ICMPv6 filter of the kernel, since the loop looks at the type again, and for any
mechanism.

`wakeups_due` and `pending_answered` are about whether the loop goes on. The readiness may be
cleared only after a read was seen to block; the loop clears it after other errors of `recvfrom`
too. Where there are none while something is in the socket, a lawful mechanism wakes the loop up
for every datagram; after one of them the loop may sleep on (`wakeup_lost`).
-/

namespace Ndhcpd

/-- Router Solicitation. -/
def icmpv6TypeRs : UInt8 := 133

/-! ### The ICMPv6 filter -/

/-- `icmp6_filter`: one bit for each ICMPv6 type, set if the type is blocked. -/
structure Icmp6Filter where
  icmp6Filt : Vector UInt32 8
deriving DecidableEq

namespace Icmp6Filter

/-- Block all types. -/
def blockAll : Icmp6Filter := ⟨Vector.replicate 8 0xffffffff⟩

theorem word_lt (icmpv6Type : UInt8) : icmpv6Type.toNat >>> 5 < 8 := by
  have hlt := icmpv6Type.toNat_lt
  rw [Nat.shiftRight_eq_div_pow]
  omega

/-- Clear the bit of a type. -/
def pass (filter : Icmp6Filter) (icmpv6Type : UInt8) : Icmp6Filter :=
  have hword := word_lt icmpv6Type
  ⟨filter.icmp6Filt.set (icmpv6Type.toNat >>> 5) (filter.icmp6Filt[icmpv6Type.toNat >>> 5] &&&
    ~~~((1 : UInt32) <<< UInt32.ofNat (icmpv6Type.toNat &&& 31)))⟩

/-- The kernel's test. -/
def blocks (filter : Icmp6Filter) (icmpv6Type : UInt8) : Bool :=
  have hword := word_lt icmpv6Type
  filter.icmp6Filt[icmpv6Type.toNat >>> 5].toBitVec.getLsbD (icmpv6Type.toNat &&& 31)

/-- The mask of a type has its bit, and no other one. -/
theorem getLsbD_mask (t i : ℕ) (hi : i < 32) :
    ((1 : UInt32) <<< UInt32.ofNat (t &&& 31)).toBitVec.getLsbD i = decide (i = t % 32) := by
  have hshift : (UInt32.ofNat (t &&& 31)).toBitVec % 32 = BitVec.ofNat 32 (t % 32) := by
    have hand : t &&& 31 = t % 32 := Nat.and_two_pow_sub_one_eq_mod t 5
    rw [hand]
    apply BitVec.eq_of_toNat_eq
    simp [BitVec.toNat_umod]
    omega
  rw [UInt32.toBitVec_shiftLeft, hshift, BitVec.shiftLeft_eq', BitVec.toNat_ofNat]
  have hone : (1 : UInt32).toBitVec = 1#32 := rfl
  rw [hone, ← BitVec.twoPow_eq, BitVec.getLsbD_twoPow]
  rw [Bool.eq_iff_iff, Bool.and_eq_true, decide_eq_true_eq, decide_eq_true_eq, decide_eq_true_eq]
  omega

/-- Every type has a bit of its own. -/
theorem blocks_pass (filter : Icmp6Filter) (t t' : UInt8) :
    (filter.pass t).blocks t' = (filter.blocks t' && t' != t) := by
  have hand : ∀ n : ℕ, n &&& 31 = n % 32 := fun n => Nat.and_two_pow_sub_one_eq_mod n 5
  have hshift : ∀ n : ℕ, n >>> 5 = n / 32 := fun n => Nat.shiftRight_eq_div_pow n 5
  have hsame : t' = t ↔ t'.toNat = t.toNat := UInt8.toNat_inj.symm
  unfold blocks pass
  simp only [Vector.getElem_set]
  split
  · next hword =>
    have hbit : t'.toNat &&& 31 < 32 := by rw [hand]; omega
    have hiff : (t'.toNat &&& 31 = t.toNat % 32) ↔ t' = t := by
      rw [hshift, hshift] at hword
      rw [hand, hsame]
      omega
    rw [UInt32.toBitVec_and, UInt32.toBitVec_not, BitVec.getLsbD_and, BitVec.getLsbD_not,
      getLsbD_mask _ _ hbit, decide_eq_true hbit, Bool.true_and]
    simp only [hiff, hword]
    by_cases h : t' = t <;> simp [h]
  · next hword =>
    have hne : t' ≠ t := fun h => hword (by rw [h])
    rw [bne_iff_ne.mpr hne, Bool.and_true]

theorem blocks_blockAll (t : UInt8) : blockAll.blocks t = true := by
  have hand : t.toNat &&& 31 = t.toNat % 32 := Nat.and_two_pow_sub_one_eq_mod _ 5
  have hones : (0xffffffff : UInt32).toBitVec = BitVec.allOnes 32 := by decide
  rw [blocks, blockAll]
  simp only [Vector.getElem_replicate]
  rw [hones, BitVec.getLsbD_allOnes, decide_eq_true_eq, hand]
  exact Nat.mod_lt _ (by decide)

end Icmp6Filter

/-- The filter that `create_ra_socket` installs. -/
def raFilter : Icmp6Filter := Icmp6Filter.blockAll.pass icmpv6TypeRs

/-- Solicitations pass, and nothing else. -/
theorem blocks_raFilter (t : UInt8) : raFilter.blocks t = (t != icmpv6TypeRs) := by
  rw [raFilter, Icmp6Filter.blocks_pass, Icmp6Filter.blocks_blockAll, Bool.true_and]

/-- Does the kernel put a message into the socket? Whether the filter could be installed is not
checked; where it is in force, a message too short to have a type is blocked as well. -/
def admits (filtered : Bool) (message : List UInt8) : Bool :=
  match message with
  | [] => !filtered
  | t :: _ => !filtered || !raFilter.blocks t

/-- The message is a Router Solicitation. -/
def isSolicitation (message : List UInt8) : Bool := message.head? == some icmpv6TypeRs

/-- With or without the filter, every solicitation gets into the socket. -/
theorem admits_of_isSolicitation {filtered : Bool} {message : List UInt8}
    (h : isSolicitation message = true) : admits filtered message = true := by
  cases message with
  | nil => cases h
  | cons t rest =>
    have ht : t = icmpv6TypeRs := by simpa [isSolicitation] using h
    simp [admits, blocks_raFilter, ht]

/-! ### The loop -/

/-- Where `run_on_interface` is: before the initial advertisement; waiting in `select!`; draining
the socket, with the guard of `readable`; behind the drain loop, about to call `clear_ready`; or at
its end with the socket closed. -/
inductive RaPhase (γ : Type)
  | starting
  | selecting
  | draining (guard : γ)
  | clearing (guard : γ)
  | ended
deriving Repr

/-- The buffer of the loop. -/
abbrev RecvBuf : Type := Vector UInt8 1500

/-- The task of one interface, with what is in its socket, the readiness of the socket, and the
world it shares with the others. -/
structure RaTask (R : Readiness) (σ : Type) where
  world : World σ
  queue : List (List UInt8)
  asyncFd : R.State
  recvBuf : RecvBuf
  phase : RaPhase R.Guard

/-- What can happen next. The database call of an advertisement has a fate; `other` is a call of
another task. -/
inductive RaAction (ρ : Type)
  | start (fate : Fate)
  | arrive (message : List UInt8)
  | turn (report : ρ)
  | tick (fate : Fate)
  | readable (fails : Bool)
  | recv (fails : Bool) (fate : Fate)
  | clearReady
  | other (c : DbCall) (fate : Fate)

/-- Why `send_ra` was called. -/
inductive RaTrigger
  | initial
  | timer
  | solicitation (message : List UInt8)
deriving DecidableEq, Repr

/-- A call of `send_ra`, with the advertisement that went to the socket, if any. -/
structure RaSent where
  trigger : RaTrigger
  advertisement : Option RouterAdvertisement
deriving DecidableEq, Repr

/-- `recvfrom`: the number of octets received, and the buffer. What does not fit is lost, and what
is not overwritten stays. -/
def recvFrom (buf : RecvBuf) (message : List UInt8) : ℕ × RecvBuf :=
  (min message.length 1500, Vector.ofFn fun i => message[i.val]?.getD (buf.get i))

namespace RaTask

variable {R : Readiness} {σ : Type} (store : Store σ) (order : RowOrder Ipv6Addr)
  (raConfig : RaConfig) (iface : String) (filtered : Bool)

/-- The task when the socket is registered with the runtime; datagrams may be in it already. -/
def create (R : Readiness) (w : World σ) (queue : List (List UInt8)) : RaTask R σ :=
  ⟨w, queue, R.register !queue.isEmpty, Vector.replicate 1500 0, .starting⟩

/-- Back to the head of the loop, with a new buffer. -/
def select (t : RaTask R σ) : RaTask R σ :=
  { t with recvBuf := Vector.replicate 1500 0, phase := .selecting }

/-- Call `send_ra`. Its errors are logged only, and so is a failure to send. -/
def sendRa (t : RaTask R σ) (trigger : RaTrigger) (fate : Fate) : Option RaSent × RaTask R σ :=
  let out := (Ndhcpd.sendRa order raConfig iface).run (serve store) (fun _ => fate) t.world
  (some ⟨trigger, out.value⟩, { t with world := out.state })

/-- One turn of the drain loop. The loop is left when `recvfrom` would block, and also when it
fails. -/
def receive (t : RaTask R σ) (guard : R.Guard) (fails : Bool) (fate : Fate) :
    Option RaSent × RaTask R σ :=
  if fails then (none, { t with phase := .clearing guard })
  else
    match t.queue with
    | [] => (none, { t with phase := .clearing guard })
    | message :: queue =>
      let received := recvFrom t.recvBuf message
      let t' := { t with recvBuf := received.2, queue := queue }
      if 1 ≤ received.1 ∧ received.2[0] = icmpv6TypeRs then
        t'.sendRa store order raConfig iface (.solicitation message) fate
      else (none, t')

/-- One step of the task; what cannot happen in its phase changes nothing. -/
def step (t : RaTask R σ) (a : RaAction R.Report) : Option RaSent × RaTask R σ :=
  match t.phase, a with
  | _, .other c fate => (none, { t with world := (serve store fate (.db c) t.world).2 })
  | .ended, _ => (none, t)
  | _, .arrive message =>
    if admits filtered message then
      (none, { t with queue := t.queue ++ [message], asyncFd := R.arrive t.asyncFd })
    else (none, t)
  | _, .turn report => (none, { t with asyncFd := R.turn report t.asyncFd })
  | .starting, .start fate => t.select.sendRa store order raConfig iface .initial fate
  | .selecting, .tick fate => t.select.sendRa store order raConfig iface .timer fate
  | .selecting, .readable fails =>
    if fails then (none, { t with phase := .ended })
    else
      match R.readable t.asyncFd with
      | some guard => (none, { t with phase := .draining guard })
      | none => (none, t)
  | .draining guard, .recv fails fate => t.receive store order raConfig iface guard fails fate
  | .clearing guard, .clearReady =>
    (none, { t.select with asyncFd := R.clearReady guard t.asyncFd })
  | _, _ => (none, t)

/-- The task after a run. -/
abbrev after (t : RaTask R σ) (acts : List (RaAction R.Report)) : RaTask R σ :=
  Run.after (fun t a => (t.step store order raConfig iface filtered a).2) t acts

/-- The calls of `send_ra` in a run. -/
abbrev sent (t : RaTask R σ) (acts : List (RaAction R.Report)) : List RaSent :=
  Run.outputs (fun t a => t.step store order raConfig iface filtered a) t acts

end RaTask

/-- The solicitation that `send_ra` was called for. -/
def RaSent.solicitation (sent : RaSent) : Option (List UInt8) :=
  match sent.trigger with
  | .solicitation message => some message
  | _ => none

/-- The solicitation that was answered: `send_ra` was called for it and did hand an advertisement to
the socket. -/
def RaSent.answered (sent : RaSent) : Option (List UInt8) :=
  if sent.advertisement.isSome then sent.solicitation else none

/-- The solicitation that an action brings. -/
def RaAction.solicitation {ρ : Type} : RaAction ρ → List (List UInt8)
  | .arrive message => [message].filter isSolicitation
  | _ => []

/-! ### What a step can do -/

/-- The loop sees the type of the message it has just received, never an octet of an earlier
one. -/
theorem recvFrom_iff (buf : RecvBuf) (message : List UInt8) :
    (1 ≤ (recvFrom buf message).1 ∧ (recvFrom buf message).2[0] = icmpv6TypeRs) ↔
      isSolicitation message = true := by
  cases message with
  | nil => simp [recvFrom, isSolicitation]
  | cons t rest =>
    have hfirst : (recvFrom buf (t :: rest)).2[0] = t := by
      simp [recvFrom]
    have hlen : 1 ≤ (recvFrom buf (t :: rest)).1 := by
      simp [recvFrom]
    rw [hfirst]
    simp [hlen, isSolicitation]

namespace RaTask

variable {R : Readiness} {σ : Type}

/-- What an action can do to the socket and to the phase, and for which solicitation `send_ra` is
called. -/
inductive Effect (filtered : Bool) (t : RaTask R σ) :
    RaAction R.Report → Option (List UInt8) → RaTask R σ → Prop
  | quiet {a : RaAction R.Report} {w : World σ}
      (harrive : ∀ m, a = .arrive m → t.phase = .ended ∨ admits filtered m = false)
      (hrecv : ∀ g fails fate, t.phase = .draining g → a ≠ .recv fails fate) :
      Effect filtered t a none { t with world := w }
  | arrive {m : List UInt8} (hopen : t.phase ≠ .ended) (hlets : admits filtered m = true) :
      Effect filtered t (.arrive m) none
        { t with queue := t.queue ++ [m], asyncFd := R.arrive t.asyncFd }
  | turn {report : R.Report} (hopen : t.phase ≠ .ended) :
      Effect filtered t (.turn report) none { t with asyncFd := R.turn report t.asyncFd }
  | advertise {a : RaAction R.Report} {w : World σ}
      (hphase : t.phase = .starting ∨ t.phase = .selecting)
      (ha : ∃ fate, a = .start fate ∨ a = .tick fate) :
      Effect filtered t a none { t.select with world := w }
  | close (hphase : t.phase = .selecting) :
      Effect filtered t (.readable true) none { t with phase := .ended }
  | wake {g : R.Guard} (hphase : t.phase = .selecting)
      (hreadable : R.readable t.asyncFd = some g) :
      Effect filtered t (.readable false) none { t with phase := .draining g }
  | leave {g : R.Guard} {fails : Bool} {fate : Fate} (hphase : t.phase = .draining g)
      (hwhy : fails = true ∨ t.queue = []) :
      Effect filtered t (.recv fails fate) none { t with phase := .clearing g }
  | take {g : R.Guard} {fate : Fate} {m : List UInt8} {q : List (List UInt8)} {w : World σ}
      {buf : RecvBuf} (hphase : t.phase = .draining g) (hqueue : t.queue = m :: q) :
      Effect filtered t (.recv false fate) (if isSolicitation m then some m else none)
        { t with world := w, queue := q, recvBuf := buf }
  | clear {g : R.Guard} (hphase : t.phase = .clearing g) :
      Effect filtered t .clearReady none
        { t.select with asyncFd := R.clearReady g t.asyncFd }

section Step

variable {store : Store σ} {order : RowOrder Ipv6Addr} {raConfig : RaConfig} {iface : String}
  {filtered : Bool}

/-- A turn of the drain loop. -/
theorem receive_effect {t : RaTask R σ} {g : R.Guard} (hphase : t.phase = .draining g)
    (fails : Bool) (fate : Fate) :
    Effect filtered t (.recv fails fate)
      ((t.receive store order raConfig iface g fails fate).1.bind RaSent.solicitation)
      (t.receive store order raConfig iface g fails fate).2 := by
  obtain ⟨world, queue, asyncFd, recvBuf, phase⟩ := t
  unfold receive
  cases fails with
  | true => exact .leave hphase (.inl rfl)
  | false =>
    cases queue with
    | nil => exact .leave hphase (.inr rfl)
    | cons m q =>
      have htake := @Effect.take R σ filtered ⟨world, m :: q, asyncFd, recvBuf, phase⟩ g fate m q
      simp only [Bool.false_eq_true, if_false, recvFrom_iff]
      cases hm : isSolicitation m with
      | true =>
        rw [hm, if_pos rfl] at htake
        exact htake hphase rfl
      | false =>
        rw [hm, if_neg Bool.false_ne_true] at htake
        exact htake hphase rfl

/-- **Steps.** Every step has one of the effects. -/
theorem step_effect (t : RaTask R σ) (a : RaAction R.Report) :
    Effect filtered t a ((t.step store order raConfig iface filtered a).1.bind RaSent.solicitation)
      (t.step store order raConfig iface filtered a).2 := by
  have hstay : ∀ a : RaAction R.Report,
      (∀ m, a = .arrive m → t.phase = .ended ∨ admits filtered m = false) →
      (∀ g fails fate, t.phase = .draining g → a ≠ .recv fails fate) →
      Effect filtered t a none t := fun a => @Effect.quiet R σ filtered t a t.world
  unfold step
  split
  · exact .quiet (by simp) (by simp)
  · next hended _ =>
    refine hstay _ (fun _ _ => .inl hended) (fun g _ _ h => ?_)
    rw [hended] at h
    cases h
  · next m hopen =>
    split
    · next hlets => exact .arrive hopen hlets
    · next hblocked =>
      refine hstay _ (fun m' hm => .inr ?_) (by simp)
      obtain rfl := RaAction.arrive.inj hm
      exact Bool.eq_false_iff.mpr hblocked
  · next hopen => exact .turn hopen
  · next hphase => exact .advertise (.inl hphase) ⟨_, .inl rfl⟩
  · next hphase => exact .advertise (.inr hphase) ⟨_, .inr rfl⟩
  · next fails hphase =>
    cases fails with
    | true => exact .close hphase
    | false =>
      rw [if_neg Bool.false_ne_true]
      split
      · next g hreadable => exact .wake hphase hreadable
      · exact hstay _ (by simp) (by simp)
  · next hphase => exact receive_effect hphase _ _
  · next hphase => exact .clear hphase
  · next _ hnone _ _ _ _ _ hrecv _ =>
    refine hstay _ (fun m hm => absurd hm (hnone m)) ?_
    exact fun g fails fate hphase => hrecv g fails fate hphase

end Step

end RaTask

namespace RaTask

variable {R : Readiness} {σ : Type}

/-! ### Solicitations -/

namespace Effect

variable {filtered : Bool} {t t' : RaTask R σ} {a : RaAction R.Report}
  {solicitation : Option (List UInt8)}

/-- The loop does not come back from its end. -/
theorem was_open (h : Effect filtered t a solicitation t') (hopen : t'.phase ≠ .ended) :
    t.phase ≠ .ended := by
  cases h with
  | quiet _ _ => exact hopen
  | arrive hopen _ => exact hopen
  | turn hopen => exact hopen
  | advertise hphase _ => rcases hphase with hphase | hphase <;> simp [hphase]
  | close _ => exact absurd rfl hopen
  | wake hphase _ => simp [hphase]
  | leave hphase _ => simp [hphase]
  | take hphase _ => simp [hphase]
  | clear hphase => simp [hphase]

/-- **Conservation.** What was in the socket, with what comes in, is what `send_ra` is called for,
with what is in the socket afterwards. -/
theorem conserves (h : Effect filtered t a solicitation t') (hopen : t'.phase ≠ .ended) :
    t.queue.filter isSolicitation ++ a.solicitation =
      solicitation.toList ++ t'.queue.filter isSolicitation := by
  cases h with
  | quiet harrive _ =>
    have hnone : a.solicitation = [] := by
      cases a with
      | arrive m =>
        -- a solicitation would have been admitted
        refine List.filter_eq_nil_iff.mpr fun m' hm' hsol => ?_
        rw [List.mem_singleton.mp hm'] at hsol
        have hblocked := (harrive m rfl).resolve_left hopen
        rw [admits_of_isSolicitation hsol] at hblocked
        cases hblocked
      | _ => rfl
    rw [hnone]
    exact List.append_nil _
  | arrive _ _ => exact (List.filter_append _ _).symm
  | turn _ => exact List.append_nil _
  | advertise _ ha =>
    obtain ⟨fate, rfl | rfl⟩ := ha <;> exact List.append_nil _
  | close _ => exact List.append_nil _
  | wake _ _ => exact List.append_nil _
  | leave _ _ => exact List.append_nil _
  | @take _ _ m q _ _ _ hqueue =>
    rw [hqueue, List.filter_cons]
    cases isSolicitation m <;> exact List.append_nil _
  | clear _ => exact List.append_nil _

end Effect

section Answers

variable {store : Store σ} {order : RowOrder Ipv6Addr} {raConfig : RaConfig} {iface : String}
  {filtered : Bool} {t : RaTask R σ} {a : RaAction R.Report} {acts : List (RaAction R.Report)}

/-- There is something to advertise, and `send_ra` gets to see it. -/
def Lists (store : Store σ) (iface : String) (w : World σ) (fate : Fate) : Prop :=
  ∃ prefixes, prefixes ≠ [] ∧ (serve store fate (.db (.listIaPrefixes (some iface))) w).1 =
    .ok prefixes

/-- If the loop takes a solicitation out of the socket, `send_ra` finds something to advertise. -/
def CanAnswer (store : Store σ) (iface : String) (t : RaTask R σ) (a : RaAction R.Report) : Prop :=
  ∀ g fate m q, t.phase = .draining g → a = .recv false fate → t.queue = m :: q →
    isSolicitation m = true → Lists store iface t.world fate

/-- `send_ra` hands an advertisement to the socket exactly if it finds something to advertise. -/
theorem sendRa_isSome {w : World σ} {fate : Fate} :
    ((Ndhcpd.sendRa order raConfig iface).run (serve store) (fun _ => fate) w).value.isSome = true ↔
      Lists store iface w fate := by
  rw [Ndhcpd.sendRa, dbCall_bind, Program.run_request, Lists]
  generalize (serve store fate (.db (.listIaPrefixes (some iface))) w).1 = listed
  rcases listed with e | _ | ⟨p, prefixes⟩
  · simp
  · simp
  · simp

theorem sendRa_state {w : World σ} {fate : Fate} :
    ((Ndhcpd.sendRa order raConfig iface).run (serve store) (fun _ => fate) w).state =
      (serve store fate (.db (.listIaPrefixes (some iface))) w).2 := by
  rw [Ndhcpd.sendRa, dbCall_bind, Program.run_request]
  generalize (serve store fate (.db (.listIaPrefixes (some iface))) w).1 = listed
  rcases listed with e | _ | ⟨p, prefixes⟩
  · rfl
  · rfl
  · rfl

theorem answered_eq_iff {sent : RaSent} :
    sent.answered = sent.solicitation ↔
      (sent.solicitation ≠ none → sent.advertisement.isSome = true) := by
  rw [RaSent.answered]
  cases sent.advertisement.isSome with
  | true => simp
  | false => simp [eq_comm]

/-- A turn of the drain loop. -/
theorem receive_answered {g : R.Guard} (hphase : t.phase = .draining g) {fails : Bool}
    {fate : Fate} :
    (∀ sent, (t.receive store order raConfig iface g fails fate).1 = some sent →
        sent.answered = sent.solicitation) ↔ t.CanAnswer store iface (.recv fails fate) := by
  unfold receive
  cases fails with
  | true =>
    refine iff_of_true (by simp) fun g' fate' m q _ ha => ?_
    cases ha
  | false =>
    rw [if_neg Bool.false_ne_true]
    split
    · next hempty =>
      refine iff_of_true (by simp) fun g' fate' m q _ _ hqueue => ?_
      rw [hempty] at hqueue
      cases hqueue
    · next m q hqueue =>
      simp only [recvFrom_iff]
      split
      · next hsol =>
        constructor
        · rintro hall g' fate' m' q' - ha - -
          obtain rfl : fate = fate' := by injection ha
          exact sendRa_isSome.mp (answered_eq_iff.mp (hall _ rfl) (by simp [RaSent.solicitation]))
        · rintro hcan sent hsent
          obtain rfl := Option.some.inj hsent
          exact answered_eq_iff.mpr fun _ =>
            sendRa_isSome.mpr (hcan g fate m q hphase rfl hqueue hsol)
      · next hsol =>
        refine iff_of_true (by simp) fun g' fate' m' q' _ _ hqueue' hsol' => ?_
        rw [hqueue] at hqueue'
        rw [(List.cons.inj hqueue').1] at hsol
        exact absurd hsol' hsol

/-- The solicitation of a step, if there is one, is answered exactly if it can be. -/
theorem step_answered :
    (∀ sent, (t.step store order raConfig iface filtered a).1 = some sent →
        sent.answered = sent.solicitation) ↔ t.CanAnswer store iface a := by
  have hcan : (∀ g fate, t.phase = .draining g → a ≠ .recv false fate) →
      t.CanAnswer store iface a :=
    fun h g fate _ _ hphase ha => absurd ha (h g fate hphase)
  have hother : ∀ {trigger : RaTrigger} {fate : Fate}, (∀ m, trigger ≠ .solicitation m) →
      ∀ sent, (t.select.sendRa store order raConfig iface trigger fate).1 = some sent →
        sent.answered = sent.solicitation := by
    intro trigger fate htrigger sent hsent
    obtain rfl := Option.some.inj hsent
    refine answered_eq_iff.mpr fun hne => ?_
    cases trigger with
    | solicitation m => exact absurd rfl (htrigger m)
    | _ => exact absurd rfl hne
  unfold step
  split
  · exact iff_of_true (by simp) (hcan (by simp))
  · next hended _ => exact iff_of_true (by simp) (hcan (by simp [hended]))
  · refine iff_of_true ?_ (hcan (by simp))
    split <;> simp
  · exact iff_of_true (by simp) (hcan (by simp))
  · exact iff_of_true (hother (by simp)) (hcan (by simp))
  · exact iff_of_true (hother (by simp)) (hcan (by simp))
  · refine iff_of_true ?_ (hcan (by simp))
    split
    · simp
    · split <;> simp
  · next hphase => exact receive_answered hphase
  · exact iff_of_true (by simp) (hcan (by simp))
  · next _ _ _ _ _ _ _ hrecv _ =>
    exact iff_of_true (by simp) (hcan fun g fate hphase => hrecv g false fate hphase)

/-- Conservation over a run. -/
theorem sent_conserves (hopen : (t.after store order raConfig iface filtered acts).phase ≠ .ended) :
    t.queue.filter isSolicitation ++ acts.flatMap RaAction.solicitation =
      (t.sent store order raConfig iface filtered acts).filterMap RaSent.solicitation ++
        (t.after store order raConfig iface filtered acts).queue.filter isSolicitation :=
  @Run.outputs_conserved (RaTask R σ) (RaAction R.Report) t acts RaSent
    (fun t a => t.step store order raConfig iface filtered a) (List UInt8)
    (fun t => t.phase ≠ .ended) (fun t => t.queue.filter isSolicitation)
    RaAction.solicitation RaSent.solicitation (fun t a => (t.step_effect a).was_open)
    (fun t a => (t.step_effect a).conserves) hopen

/-- In a run, what is answered is what `send_ra` was called for, exactly if there always was
something to advertise. -/
theorem answered_iff :
    (t.sent store order raConfig iface filtered acts).filterMap RaSent.answered =
        (t.sent store order raConfig iface filtered acts).filterMap RaSent.solicitation ↔
      Run.Along (fun t a => (t.step store order raConfig iface filtered a).2)
        (CanAnswer store iface) t acts := by
  refine (Run.filterMap_outputs_eq_iff fun sent => ?_).trans ?_
  · rw [RaSent.answered]
    split
    · exact .inr rfl
    · exact .inl rfl
  · exact Run.along_congr fun t a => step_answered

end Answers

end RaTask

/-! ### Wake-ups -/

namespace RaTask

variable {R : Readiness} {σ : Type}

/-- While something is in the socket, `recvfrom` does not fail. -/
def Undisturbed (t : RaTask R σ) (a : RaAction R.Report) : Prop :=
  ∀ g fate, t.phase = .draining g → a = .recv true fate → t.queue = []

/-- The guard was made when the socket was readable; datagrams may have arrived since. -/
def Holds (t : RaTask R σ) (guard : R.Guard) (arrived : Bool) : Prop :=
  ∃ s, R.readable s = some guard ∧ R.Since s arrived t.asyncFd

/-- The invariant of the wake-ups. While the loop waits, a wake-up is due for what is in the socket;
and before it clears the readiness, whatever is in the socket has arrived since the guard was
made. -/
structure Waking (t : RaTask R σ) : Prop where
  due : t.phase = .starting ∨ t.phase = .selecting → t.queue ≠ [] → R.Due t.asyncFd
  draining : ∀ g, t.phase = .draining g → ∃ arrived, t.Holds g arrived
  clearing : ∀ g, t.phase = .clearing g →
    ∃ arrived, t.Holds g arrived ∧ (t.queue ≠ [] → arrived = true)

theorem waking_create (hlawful : R.Lawful) (w : World σ) (queue : List (List UInt8)) :
    (create R w queue).Waking where
  due _ hqueue := by
    have hpending : (!queue.isEmpty) = true := by
      rw [Bool.not_eq_true', List.isEmpty_eq_false_iff]
      exact hqueue
    rw [create, hpending]
    exact hlawful.register
  draining g hg := by cases hg
  clearing g hg := by cases hg

/-- **Steps keep the invariant**, unless `recvfrom` fails with something in the socket. -/
theorem Waking.effect (hlawful : R.Lawful) {filtered : Bool} {t t' : RaTask R σ}
    {a : RaAction R.Report} {solicitation : Option (List UInt8)} (h : t.Waking)
    (heffect : Effect filtered t a solicitation t') (hundisturbed : t.Undisturbed a) :
    t'.Waking := by
  cases heffect with
  | quiet _ _ => exact ⟨h.due, h.draining, h.clearing⟩
  | arrive _ _ =>
    refine ⟨fun _ _ => hlawful.arrive _, fun g hg => ?_, fun g hg => ?_⟩
    · obtain ⟨_, s, hreadable, hsince⟩ := h.draining g hg
      exact ⟨true, s, hreadable, hsince.arrive⟩
    · obtain ⟨_, ⟨s, hreadable, hsince⟩, -⟩ := h.clearing g hg
      exact ⟨true, ⟨s, hreadable, hsince.arrive⟩, fun _ => rfl⟩
  | @turn report _ =>
    refine ⟨fun hidle hqueue => hlawful.turn _ _ (h.due hidle hqueue), fun g hg => ?_,
      fun g hg => ?_⟩
    · obtain ⟨arrived, s, hreadable, hsince⟩ := h.draining g hg
      exact ⟨arrived, s, hreadable, hsince.turn report⟩
    · obtain ⟨arrived, ⟨s, hreadable, hsince⟩, harrived⟩ := h.clearing g hg
      exact ⟨arrived, ⟨s, hreadable, hsince.turn report⟩, harrived⟩
  | advertise hphase _ =>
    exact ⟨fun _ => h.due hphase, nofun, nofun⟩
  | close _ =>
    exact ⟨nofun, nofun, nofun⟩
  | @wake g hphase hreadable =>
    refine ⟨nofun, fun g' hg => ?_, nofun⟩
    obtain rfl := RaPhase.draining.inj hg
    exact ⟨false, t.asyncFd, hreadable, .now⟩
  | @leave g fails fate hphase hwhy =>
    refine ⟨nofun, nofun, fun g' hg => ?_⟩
    obtain rfl := RaPhase.clearing.inj hg
    obtain ⟨arrived, hholds⟩ := h.draining g hphase
    have hempty : t.queue = [] := by
      rcases hwhy with rfl | hempty
      · exact hundisturbed g fate hphase rfl
      · exact hempty
    exact ⟨arrived, hholds, fun hqueue => absurd hempty hqueue⟩
  | @take g _ _ _ _ _ hphase _ =>
    refine ⟨?_, h.draining, fun g' hg => ?_⟩
    · rintro (hg | hg) <;> cases hphase.symm.trans hg
    · cases hphase.symm.trans hg
  | @clear g hphase =>
    refine ⟨fun _ hqueue => ?_, nofun, nofun⟩
    obtain ⟨arrived, ⟨s, hreadable, hsince⟩, harrived⟩ := h.clearing g hphase
    obtain rfl := harrived hqueue
    exact hlawful.clearReady s g _ hreadable hsince

section Run

variable {store : Store σ} {order : RowOrder Ipv6Addr} {raConfig : RaConfig} {iface : String}
  {filtered : Bool} {t : RaTask R σ} {acts : List (RaAction R.Report)}

theorem Waking.after (hlawful : R.Lawful) (h : t.Waking)
    (hundisturbed : Run.Along (fun t a => (t.step store order raConfig iface filtered a).2)
      Undisturbed t acts) : (t.after store order raConfig iface filtered acts).Waking :=
  hundisturbed.invariant (fun t a ht ha => ht.effect hlawful (t.step_effect a) ha) h

theorem step_turn (hphase : t.phase = .selecting) (report : R.Report) :
    (t.step store order raConfig iface filtered (.turn report)).2 =
      { t with asyncFd := R.turn report t.asyncFd } := by
  unfold step
  simp only [hphase]

theorem step_readable {g : R.Guard} (hphase : t.phase = .selecting)
    (hreadable : R.readable t.asyncFd = some g) :
    (t.step store order raConfig iface filtered (.readable false)).2 =
      { t with phase := .draining g } := by
  unfold step
  simp only [hphase, hreadable, Bool.false_eq_true, if_false]

theorem step_clearReady {g : R.Guard} (hphase : t.phase = .clearing g) :
    (t.step store order raConfig iface filtered .clearReady).2 =
      { t.select with asyncFd := R.clearReady g t.asyncFd } := by
  unfold step
  simp only [hphase]

/-- As many reads as there are datagrams, and one more, empty the socket. -/
theorem after_drain {g : R.Guard} {fates : List Fate} (hphase : t.phase = .draining g)
    (hfates : fates.length = t.queue.length + 1) :
    (t.after store order raConfig iface filtered (fates.map (.recv false))).queue = [] ∧
      (t.after store order raConfig iface filtered (fates.map (.recv false))).phase =
        .clearing g := by
  induction fates generalizing t with
  | nil => cases hfates
  | cons fate fates ih =>
    have hstep : t.step store order raConfig iface filtered (.recv false fate) =
        t.receive store order raConfig iface g false fate := by
      unfold step
      simp only [hphase]
    rw [List.map_cons, RaTask.after, Run.after_cons, hstep]
    obtain ⟨world, queue, asyncFd, recvBuf, phase⟩ := t
    cases queue with
    | nil =>
      obtain rfl : fates = [] := by simpa using hfates
      exact ⟨rfl, rfl⟩
    | cons m q =>
      have htaken : (receive store order raConfig iface ⟨world, m :: q, asyncFd, recvBuf, phase⟩ g
            false fate).2.phase = phase ∧
          (receive store order raConfig iface ⟨world, m :: q, asyncFd, recvBuf, phase⟩ g false
            fate).2.queue = q := by
        simp only [receive, Bool.false_eq_true, if_false]
        split <;> exact ⟨rfl, rfl⟩
      refine ih (htaken.1.trans hphase) ?_
      rw [htaken.2]
      simpa using hfates

end Run

end RaTask

/-! ### Results -/

section Runs

variable {σ : Type} (R : Readiness) (store : Store σ) (order : RowOrder Ipv6Addr)
  (raConfig : RaConfig) (iface : String) (filtered : Bool) (w : World σ)
  (queue : List (List UInt8)) (acts : List (RaAction R.Report))

/-- **Every solicitation gets its call of `send_ra`, in turn.** Take any run of the task: datagrams
of all types may arrive at any time, reads may fail, the timer ticks, the other tasks use the
database, and the readiness of the socket may come and go. As long as the loop has not ended, the
solicitations for which `send_ra` was called so far, followed by those that are still in the socket,
are the solicitations that came in, in the order of their arrival, whether or not the kernel filters
by type. And with the solicitations for which an advertisement was handed to the socket instead,
this holds exactly if, whenever the loop took a solicitation out of the socket, the prefixes of the
interface could be listed and there were some. -/
theorem solicitations_answered
    (hopen : ((RaTask.create R w queue).after store order raConfig iface filtered acts).phase ≠
      .ended) :
    let t := RaTask.create R w queue
    let sent := t.sent store order raConfig iface filtered acts
    let pending := (t.after store order raConfig iface filtered acts).queue.filter isSolicitation
    let solicitations := queue.filter isSolicitation ++ acts.flatMap RaAction.solicitation
    sent.filterMap RaSent.solicitation ++ pending = solicitations ∧
      (sent.filterMap RaSent.answered ++ pending = solicitations ↔
        Run.Along (fun t a => (t.step store order raConfig iface filtered a).2)
          (RaTask.CanAnswer store iface) t acts) := by
  intro t sent pending solicitations
  have hbooks : sent.filterMap RaSent.solicitation ++ pending = solicitations :=
    (RaTask.sent_conserves hopen).symm
  refine ⟨hbooks, ?_⟩
  rw [← hbooks, List.append_left_inj]
  exact RaTask.answered_iff

end Runs

/-- A step of the loop, or around it, in which no other task uses the database and no listing
fails. -/
def RaAction.Calm {ρ : Type} : RaAction ρ → Prop
  | .other _ _ => False
  | .recv _ fate => fate.fails = false
  | _ => True

namespace RaTask

/-- What there is to advertise in the SQLite database. -/
theorem lists_iff {ord : ScanOrder} {iface : String} {w : World SqliteDb} {fate : Fate} :
    Lists (SqliteDb.exec ord) iface w fate ↔
      fate.fails = false ∧ ∃ r ∈ w.db.iaPrefixes, r.interface = iface := by
  have hrows : w.db.listIaPrefixes ord (some iface) ≠ [] ↔
      ∃ r ∈ w.db.iaPrefixes, r.interface = iface := by
    have hnil : ∀ rows, ord.iaPrefixes.arrange rows = [] ↔ rows = [] := fun rows => by
      rw [← List.length_eq_zero_iff, (ord.iaPrefixes.perm rows).length_eq, List.length_eq_zero_iff]
    simp [SqliteDb.listIaPrefixes, hnil]
  cases hfails : fate.fails with
  | true => simp [Lists, serve, hfails]
  | false => simp [Lists, serve, hfails, SqliteDb.exec, hrows]

/-- The loop does not change the database. -/
theorem step_db {R : Readiness} {ord : ScanOrder} {order : RowOrder Ipv6Addr} {raConfig : RaConfig}
    {iface : String} {filtered : Bool} {t : RaTask R SqliteDb} {a : RaAction R.Report}
    (ha : ∀ c fate, a ≠ .other c fate) :
    (t.step (SqliteDb.exec ord) order raConfig iface filtered a).2.world.db = t.world.db := by
  have hsend : ∀ (t : RaTask R SqliteDb) (trigger : RaTrigger) (fate : Fate),
      (t.sendRa (SqliteDb.exec ord) order raConfig iface trigger fate).2.world.db =
        t.world.db := by
    intro t trigger fate
    rw [sendRa, sendRa_state, serve_of_isRead rfl]
  unfold step
  split
  · next c fate => exact absurd rfl (ha c fate)
  · rfl
  · split <;> rfl
  · rfl
  · exact hsend _ _ _
  · exact hsend _ _ _
  · split
    · rfl
    · split <;> rfl
  · unfold receive
    split
    · rfl
    · split
      · rfl
      · simp only []
        split
        · exact hsend _ _ _
        · rfl
  · rfl
  · rfl

/-- Without the other tasks, and if no listing fails, there always is something to advertise if
there is at the start. -/
theorem along_canAnswer {R : Readiness} {ord : ScanOrder} {order : RowOrder Ipv6Addr}
    {raConfig : RaConfig} {iface : String} {filtered : Bool} {t : RaTask R SqliteDb}
    {acts : List (RaAction R.Report)} (hstored : ∃ r ∈ t.world.db.iaPrefixes, r.interface = iface)
    (hacts : ∀ a ∈ acts, a.Calm) :
    Run.Along (fun t a => (t.step (SqliteDb.exec ord) order raConfig iface filtered a).2)
      (CanAnswer (SqliteDb.exec ord) iface) t acts := by
  refine Run.along_of_invariant (I := fun t : RaTask R SqliteDb =>
    ∃ r ∈ t.world.db.iaPrefixes, r.interface = iface) (fun t a ht ha => ⟨?_, ?_⟩) hstored hacts
  · intro g fate m q _ hrecv _ _
    rw [hrecv] at ha
    exact lists_iff.mpr ⟨ha, ht⟩
  · have hown : ∀ c fate, a ≠ .other c fate := by
      intro c fate hother
      rw [hother] at ha
      exact ha
    rw [step_db hown]
    exact ht

end RaTask

namespace Sample

/-- A Router Solicitation without options. -/
def solicitation : List UInt8 := [133, 0, 0, 0, 0, 0, 0, 0]

/-- The task for `eth0`, which has a prefix, without the filter of the kernel. A neighbour
solicitation is in the socket when it is registered. -/
def raTask : RaTask .edgeTriggered SqliteDb :=
  .create .edgeTriggered
    ⟨(SqliteDb.exec .rowid 0 .empty (.createIaPrefix (iaPrefix 600 1200 600))).2, 0⟩ [[135, 0]]

/-- A solicitation arrives, and the loop wakes up. -/
def wakening : List (RaAction Readiness.edgeTriggered.Report) :=
  [.start .calm, .arrive solicitation, .turn false, .readable false]

/-- Three reads: two datagrams, and nothing. -/
def reads : List (RaAction Readiness.edgeTriggered.Report) :=
  [.recv false .calm, .recv false .calm, .recv false .calm]

theorem raTask_stored : ∃ r ∈ raTask.world.db.iaPrefixes, r.interface = "eth0" :=
  ⟨_, List.mem_singleton_self _, rfl⟩

/-- Nothing has been read when a solicitation has arrived. -/
theorem raTask_undisturbed :
    Run.Along (fun t a => (t.step (SqliteDb.exec .rowid) .id .default "eth0" false a).2)
      RaTask.Undisturbed raTask [.start .calm, .arrive solicitation] := by
  refine ⟨fun g fate _ ha => ?_, fun g fate _ ha => ?_, trivial⟩
  · cases ha
  · cases ha

/-- The reads empty the socket. -/
theorem after_reads :
    (raTask.after (SqliteDb.exec .rowid) .id .default "eth0" false (wakening ++ reads)).queue = [] ∧
      (raTask.after (SqliteDb.exec .rowid) .id .default "eth0" false (wakening ++ reads)).phase ≠
        .ended := by
  rw [RaTask.after, Run.after_append]
  obtain ⟨hempty, hphase⟩ := @RaTask.after_drain .edgeTriggered SqliteDb (SqliteDb.exec .rowid) .id
    .default "eth0" false (raTask.after (SqliteDb.exec .rowid) .id .default "eth0" false wakening)
    _ [.calm, .calm, .calm] rfl rfl
  refine ⟨hempty, fun hended => ?_⟩
  cases hphase.symm.trans hended

end Sample

/-- The neighbour solicitation is dropped, and the other one answered. -/
theorem solicitations_answered_one :
    (Sample.raTask.sent (SqliteDb.exec .rowid) .id .default "eth0" false
      (Sample.wakening ++ Sample.reads)).filterMap RaSent.answered = [Sample.solicitation] := by
  obtain ⟨hempty, hopen⟩ := Sample.after_reads
  have hcalm : ∀ a ∈ Sample.wakening ++ Sample.reads, a.Calm := by
    simp [Sample.wakening, Sample.reads, RaAction.Calm, Fate.calm]
  have hbooks : (Sample.raTask.sent (SqliteDb.exec .rowid) .id .default "eth0" false
        (Sample.wakening ++ Sample.reads)).filterMap RaSent.answered ++
        (Sample.raTask.after (SqliteDb.exec .rowid) .id .default "eth0" false
          (Sample.wakening ++ Sample.reads)).queue.filter isSolicitation =
      [[135, 0]].filter isSolicitation ++
        (Sample.wakening ++ Sample.reads).flatMap RaAction.solicitation :=
    (solicitations_answered .edgeTriggered (SqliteDb.exec .rowid) .id .default "eth0" false _ _ _
      hopen).2.mpr (RaTask.along_canAnswer Sample.raTask_stored hcalm)
  rw [hempty, List.filter_nil, List.append_nil] at hbooks
  exact hbooks.trans (by decide)

section Runs

variable {σ : Type} {R : Readiness} (hlawful : R.Lawful) (store : Store σ)
  (order : RowOrder Ipv6Addr) (raConfig : RaConfig) (iface : String) (filtered : Bool)
  (w : World σ) (queue : List (List UInt8)) (acts : List (RaAction R.Report))
  (hundisturbed : Run.Along (fun t a => (t.step store order raConfig iface filtered a).2)
    RaTask.Undisturbed (RaTask.create R w queue) acts)

include hlawful hundisturbed

/-- **No wake-up is lost.** With a lawful readiness mechanism, and as long as `recvfrom` fails only
while nothing is in the socket: whenever the loop waits, or is about to, with a datagram in the
socket, a wake-up is due. -/
theorem wakeups_due
    (hidle : ((RaTask.create R w queue).after store order raConfig iface filtered acts).phase =
        .starting ∨
      ((RaTask.create R w queue).after store order raConfig iface filtered acts).phase = .selecting)
    (hpending : ((RaTask.create R w queue).after store order raConfig iface filtered acts).queue ≠
      []) :
    R.Due ((RaTask.create R w queue).after store order raConfig iface filtered acts).asyncFd :=
  ((RaTask.waking_create hlawful w queue).after hlawful hundisturbed).due hidle hpending

/-- **What is in the socket is dealt with.** After such a run, let the loop wait with datagrams in
the socket. Once the driver has had its turn, whatever is reported to it, the loop by itself calls
`send_ra` for all the solicitations among them, in turn, and comes back to wait with an empty
socket; and all of them are answered exactly if the prefixes of the interface could be listed each
time and there were some. -/
theorem pending_answered
    (hphase : ((RaTask.create R w queue).after store order raConfig iface filtered acts).phase =
      .selecting)
    (hpending : ((RaTask.create R w queue).after store order raConfig iface filtered acts).queue ≠
      [])
    (report : R.Report) (fates : List Fate) (hfates : fates.length =
      ((RaTask.create R w queue).after store order raConfig iface filtered acts).queue.length + 1) :
    let t := (RaTask.create R w queue).after store order raConfig iface filtered acts
    let more := .turn report :: .readable false ::
      (fates.map (RaAction.recv false) ++ [.clearReady])
    let sent := t.sent store order raConfig iface filtered more
    sent.filterMap RaSent.solicitation = t.queue.filter isSolicitation ∧
      (sent.filterMap RaSent.answered = t.queue.filter isSolicitation ↔
        Run.Along (fun t a => (t.step store order raConfig iface filtered a).2)
          (RaTask.CanAnswer store iface) t more) ∧
      (t.after store order raConfig iface filtered more).queue = [] ∧
      (t.after store order raConfig iface filtered more).phase = .selecting := by
  intro t more sent
  have hwaking : t.Waking := (RaTask.waking_create hlawful w queue).after hlawful hundisturbed
  -- the driver makes the socket readable, and the loop starts to drain
  obtain ⟨g, hreadable⟩ := hwaking.due (.inr hphase) hpending report
  let t' : RaTask R σ := { t with asyncFd := R.turn report t.asyncFd, phase := .draining g }
  have hstart : t.after store order raConfig iface filtered more =
      t'.after store order raConfig iface filtered
        (fates.map (RaAction.recv false) ++ [.clearReady]) := by
    have hwake := @RaTask.step_readable R σ store order raConfig iface filtered
      { t with asyncFd := R.turn report t.asyncFd } g hphase hreadable
    rw [RaTask.after, Run.after_cons, Run.after_cons, RaTask.step_turn hphase, hwake]
  -- the reads empty the socket, and then the readiness is cleared
  obtain ⟨hempty, hclearing⟩ := @RaTask.after_drain R σ store order raConfig iface filtered t' g
    fates rfl hfates
  have hend : (t.after store order raConfig iface filtered more).queue = [] ∧
      (t.after store order raConfig iface filtered more).phase = .selecting := by
    rw [hstart, RaTask.after, Run.after_append, Run.after_cons, Run.after_nil,
      RaTask.step_clearReady hclearing]
    exact ⟨hempty, rfl⟩
  have hopen : (t.after store order raConfig iface filtered more).phase ≠ .ended := by
    rw [hend.2]
    exact nofun
  have hbooks := RaTask.sent_conserves hopen
  have hnone : more.flatMap RaAction.solicitation = [] := by
    simp [more, RaAction.solicitation]
  rw [hnone, List.append_nil, hend.1, List.filter_nil, List.append_nil] at hbooks
  refine ⟨hbooks.symm, ?_, hend⟩
  rw [hbooks]
  exact RaTask.answered_iff

end Runs

/-- **An error puts the loop to sleep.** The edge-triggered mechanism is lawful; but when `recvfrom`
fails, and nothing has arrived or been reported since the loop woke up, the readiness is cleared all
the same, and no wake-up is due for what is still in the socket. -/
theorem wakeup_lost {σ : Type} (store : Store σ) (order : RowOrder Ipv6Addr) (raConfig : RaConfig)
    (iface : String) (filtered : Bool) (t : RaTask .edgeTriggered σ) (guard : ℕ)
    (hphase : t.phase = .draining guard) (hedge : t.asyncFd.edge = false)
    (hguard : t.asyncFd.events = guard) (fate : Fate) :
    let t' := t.after store order raConfig iface filtered [.recv true fate, .clearReady]
    t'.phase = .selecting ∧ t'.queue = t.queue ∧ ¬ Readiness.edgeTriggered.Due t'.asyncFd := by
  obtain ⟨world, queue, ⟨edge, ready, events⟩, recvBuf, phase⟩ := t
  obtain rfl : phase = .draining guard := hphase
  obtain rfl : edge = false := hedge
  obtain rfl : events = guard := hguard
  intro t'
  have hcleared : t'.asyncFd = ⟨false, false, events⟩ := if_pos rfl
  refine ⟨rfl, rfl, fun hdue => ?_⟩
  rw [hcleared] at hdue
  obtain ⟨guard, hreadable⟩ := hdue false
  cases hreadable

/-- The loop is woken up for the two datagrams in the socket. -/
theorem wakeups_due_two :
    Readiness.edgeTriggered.Due (Sample.raTask.after (SqliteDb.exec .rowid) .id .default "eth0"
      false [.start .calm, .arrive Sample.solicitation]).asyncFd :=
  wakeups_due Readiness.edgeTriggered_lawful (SqliteDb.exec .rowid) .id .default "eth0" false
    Sample.raTask.world [[135, 0]] [.start .calm, .arrive Sample.solicitation]
    Sample.raTask_undisturbed (.inr rfl) (List.cons_ne_nil _ _)

/-- A solicitation that arrives while the loop waits is answered. -/
theorem pending_answered_one :
    ((Sample.raTask.after (SqliteDb.exec .rowid) .id .default "eth0" false
        [.start .calm, .arrive Sample.solicitation]).sent (SqliteDb.exec .rowid) .id .default "eth0"
        false [.turn false, .readable false, .recv false .calm, .recv false .calm,
          .recv false .calm, .clearReady]).filterMap RaSent.answered = [Sample.solicitation] := by
  have hcalm : ∀ a ∈ ([.turn false, .readable false, .recv false .calm, .recv false .calm,
      .recv false .calm, .clearReady] : List (RaAction Readiness.edgeTriggered.Report)),
      a.Calm := by
    simp [RaAction.Calm, Fate.calm]
  have hanswered := (pending_answered Readiness.edgeTriggered_lawful (SqliteDb.exec .rowid) .id
    .default "eth0" false Sample.raTask.world [[135, 0]]
    [.start .calm, .arrive Sample.solicitation] Sample.raTask_undisturbed rfl
    (List.cons_ne_nil _ _) false [.calm, .calm, .calm] rfl).2.1.mpr
    (RaTask.along_canAnswer Sample.raTask_stored hcalm)
  exact hanswered.trans (by decide)

end Ndhcpd

import Mathlib.Algebra.GroupWithZero.Nat
import Muxponder.Prot2Reception

/-!
# Packets on the PROT2 Line

A packet that keeps the format (`WellFormedPacket`) and the pace (`Paced`) is received as
it is whenever it starts where a packet is expected. The statements about the abstract
`Reception` come first; `run_completes` carries them to the processor and its buffers.

Whether a packet starts where one is expected is decided by what came before. There is no
timeout between packets and none inside a payload, and a header byte that is late is
dropped, even where it is the first byte of the next packet: after a silence the listener
is in step again exactly where it was in step before.

## Main results

* `prot2_framing`: packets that are consumed one by one are published once each, in order
  and unchanged.
* `resynchronises_iff`: a packet after a silence is published exactly where the listener
  already expected a packet.
-/

namespace Muxponder

/-! ### Well-formed packets -/

/-- The format of a packet: its length in front, then a function and a valid command. -/
def WellFormedPacket (w : List UInt8) : Prop :=
  ∃ l f c rest, w = l :: f :: c :: rest ∧ 4 ≤ l.toNat ∧ w.length = l.toNat ∧
    validCommand c = true

/-- A packet that keeps the format fits a receive buffer. -/
theorem WellFormedPacket.length_lt {w : List UInt8} (h : WellFormedPacket w) :
    w.length < IPGLB2_MAX_BUFFER := by
  obtain ⟨l, f, c, rest, -, -, hlen, -⟩ := h
  have hbyte := l.toNat_lt
  simp only [IPGLB2_MAX_BUFFER]
  omega

/-- A byte follows another without a gap of more than `PROT2_TIMEOUT` ticks. -/
def Follows (a b : ℕ × UInt8) : Prop := a.1 ≤ b.1 ∧ b.1 ≤ a.1 + PROT2_TIMEOUT.toNat

/-- Timed bytes without a gap. -/
def Paced (pkt : List (ℕ × UInt8)) : Prop := List.IsChain Follows pkt

/-- The bytes of a packet that arrived at given times. -/
def bytes (pkt : List (ℕ × UInt8)) : List UInt8 := pkt.map Prod.snd

@[simp] theorem bytes_length (pkt : List (ℕ × UInt8)) : (bytes pkt).length = pkt.length :=
  List.length_map _

/-- A byte that follows another is not late, wherever the tick counter wraps around. -/
theorem Follows.on_time {a b : ℕ × UInt8} (h : Follows a b) :
    ¬ PROT2_TIMEOUT < altNticks b.1 - altNticks a.1 := by
  obtain ⟨h1, h2⟩ := h
  have htimeout : PROT2_TIMEOUT.toNat = 10000 := rfl
  rw [UInt32.lt_iff_toNat_lt, UInt32.toNat_sub, altNticks, altNticks, UInt32.toNat_ofNat',
    UInt32.toNat_ofNat']
  omega

/-! ### Receptions of packets -/

/-- A byte extends the packet so far, or leaves nothing of it. -/
theorem nextPacket_acc (acc : List UInt8) (late : Bool) (c : UInt8) :
    (nextPacket acc late c).1 = acc ++ [c] ∨ (nextPacket acc late c).1 = [] := by
  match acc with
  | [] => exact Or.inl rfl
  | [l] => cases late <;> simp [nextPacket]
  | [l, f] => cases hv : validCommand c <;> cases late <;> simp [nextPacket, hv]
  | l :: f :: d :: rest =>
      rw [nextPacket]
      split
      · exact Or.inr rfl
      · exact Or.inl rfl

namespace Reception

variable {r : Reception} {a b : ℕ × UInt8} {pkt rest : List (ℕ × UInt8)}

/-- Every byte of a completed packet has been received. -/
theorem packets_length (r : Reception) (s : List (ℕ × UInt8)) :
    ((r.packets s).map List.length).sum ≤ r.acc.length + s.length := by
  induction s generalizing r with
  | nil => simp [packets]
  | cons b s ih =>
      obtain ⟨t, c⟩ := b
      have hih := ih (r.feed (altNticks t) c)
      simp only [packets, List.map_append, List.sum_append, List.length_cons]
      cases hw : r.emit (altNticks t) c with
      | none =>
          have hacc : (r.feed (altNticks t) c).acc.length ≤ r.acc.length + 1 := by
            rcases nextPacket_acc r.acc (r.late (altNticks t)) c with h | h
            · rw [feed, h, List.length_append, List.length_singleton]
            · rw [feed, h]
              simp
          simp only [Option.toList_none, List.map_nil, List.sum_nil]
          omega
      | some w =>
          obtain ⟨rfl, hnil, -⟩ := nextPacket_emits hw
          have hacc : (r.feed (altNticks t) c).acc.length = 0 := by rw [feed, hnil]; rfl
          simp only [Option.toList_some, List.map_cons, List.map_nil, List.sum_cons,
            List.sum_nil, List.length_append, List.length_singleton]
          omega

/-- Behind the header the bytes are collected until the packet is as long as it says. -/
theorem packets_payload {l f d : UInt8} (got : List UInt8) (last : UInt32)
    (hne : rest ≠ []) (hlen : got.length + 3 + rest.length = l.toNat) :
    packets ⟨l :: f :: d :: got, last⟩ rest = [l :: f :: d :: got ++ bytes rest] ∧
      (after ⟨l :: f :: d :: got, last⟩ rest).acc = [] := by
  induction rest generalizing got last with
  | nil => exact absurd rfl hne
  | cons b rest ih =>
      obtain ⟨t, c⟩ := b
      rw [List.length_cons] at hlen
      by_cases hend : got.length + 4 = l.toNat
      · obtain rfl : rest = [] := List.length_eq_zero_iff.mp (by omega)
        simp [packets, after, feed, emit, nextPacket, hend, bytes]
      · have hrest : rest ≠ [] := by
          rintro rfl
          exact hend (by simpa [Nat.add_assoc] using hlen)
        obtain ⟨hpk, hacc⟩ := ih (got ++ [c]) (altNticks t) hrest (by
          rw [List.length_append, List.length_singleton]
          omega)
        simp only [packets, after, feed, emit, nextPacket, if_neg hend]
        exact ⟨by simpa [bytes] using hpk, hacc⟩

/-- **A packet that keeps the format and the pace** is received as it is, wherever a packet
is expected. -/
theorem packets_packet (hr : r.acc = []) (hwf : WellFormedPacket (bytes pkt))
    (hpace : Paced pkt) : r.packets pkt = [bytes pkt] ∧ (r.after pkt).acc = [] := by
  obtain ⟨acc, last⟩ := r
  obtain rfl : acc = [] := hr
  obtain ⟨l, f, c, rest, hw, h4, hlen, hv⟩ := hwf
  match pkt, hw with
  | (t₀, l') :: (t₁, f') :: (t₂, c') :: pkt, hw =>
      simp only [bytes, List.map_cons, List.cons.injEq] at hw
      obtain ⟨rfl, rfl, rfl, rfl⟩ := hw
      obtain ⟨h01, hpace'⟩ := List.isChain_cons_cons.mp hpace
      obtain ⟨h12, -⟩ := List.isChain_cons_cons.mp hpace'
      have hlate₁ := h01.on_time
      have hlate₂ := h12.on_time
      simp only [bytes, List.map_cons, List.length_cons, List.length_map] at hlen
      have hne : pkt ≠ [] := by
        rintro rfl
        simp only [List.length_nil] at hlen
        omega
      obtain ⟨hpk, hacc⟩ := packets_payload (l := l') (f := f') (d := c') []
        (altNticks t₂) hne (by simp only [List.length_nil]; omega)
      simp only [packets, after, feed, emit, nextPacket, late, hlate₁, hlate₂, hv,
        decide_false, Bool.false_eq_true, if_false, Bool.not_false, Bool.and_self, if_true,
        Option.toList_none, List.nil_append]
      exact ⟨hpk, hacc⟩

/-- A packet that is not complete yet is not handed over. -/
theorem packets_part (hr : r.acc = []) (hwf : WellFormedPacket (bytes pkt))
    (hpace : Paced pkt) (hpart : rest <+: pkt) (hne : rest ≠ pkt) : r.packets rest = [] := by
  obtain ⟨more, rfl⟩ := hpart
  have hmore : more ≠ [] := by
    rintro rfl
    exact hne (List.append_nil _).symm
  have hpk := (packets_packet hr hwf hpace).1
  rw [packets_append] at hpk
  rcases List.append_eq_singleton_iff.mp hpk with ⟨h, -⟩ | ⟨h, -⟩
  · exact h
  · have hlen := packets_length r rest
    have hpos := List.length_pos_of_ne_nil hmore
    rw [h, hr] at hlen
    simp only [List.map_cons, List.map_nil, List.sum_cons, List.sum_nil, bytes_length,
      List.length_append, List.length_nil] at hlen
    omega

end Reception

/-! ### Packets through the processor -/

/-- The events of a packet arriving. -/
def arrive (pkt : List (ℕ × UInt8)) : List Prot2Event := pkt.map fun b => .byte b.1 b.2

/-- How a packet is consumed: a slave serves it, a master takes it and cleans up. -/
def consume : Prot2Mode → List Prot2Event
  | .slave => [.service, .service, .service, .service]
  | .master => [.cleanup]

/-- Arriving bytes are what is received. -/
theorem received_arrive {h h' : Prot2History} {pkt : List (ℕ × UInt8)}
    (hev : h'.map Prod.fst = arrive pkt) :
    (Prot2History.received (h ++ h')) =
      ((Prot2History.received h).1.after pkt,
        (Prot2History.received h).2 ++ (Prot2History.received h).1.packets pkt) := by
  induction pkt generalizing h h' with
  | nil =>
      obtain rfl : h' = [] := List.map_eq_nil_iff.mp hev
      simp [Reception.after, Reception.packets]
  | cons b pkt ih =>
      obtain ⟨t, c⟩ := b
      obtain ⟨⟨e, o⟩, h', rfl, rfl, hev'⟩ := List.map_eq_cons_iff.mp hev
      have hcut : h ++ (.byte t c, o) :: h' = (h ++ [(.byte t c, o)]) ++ h' := by simp
      rw [hcut, ih hev', Prot2History.received_byte]
      simp [Reception.after, Reception.packets]

/-- One packet arrives behind the other. -/
theorem arrive_append (pkt pkt' : List (ℕ × UInt8)) :
    arrive (pkt ++ pkt') = arrive pkt ++ arrive pkt' :=
  List.map_append

/-- The events of a history say what arrived. -/
theorem arrivals_arrive {h : Prot2History} {pkt : List (ℕ × UInt8)}
    (hev : h.map Prod.fst = arrive pkt) : Prot2History.arrivals h = pkt := by
  induction pkt generalizing h with
  | nil =>
      obtain rfl : h = [] := List.map_eq_nil_iff.mp hev
      rfl
  | cons b pkt ih =>
      obtain ⟨⟨e, o⟩, h', rfl, rfl, hev'⟩ := List.map_eq_cons_iff.mp hev
      have hrest := ih hev'
      simp only [Prot2History.arrivals, List.filterMap_cons] at hrest ⊢
      rw [hrest]

/-- Consuming completes no packet. -/
theorem received_consume {mode : Prot2Mode} {h h' : Prot2History}
    (hev : h'.map Prod.fst = consume mode) :
    (Prot2History.received (h ++ h')).2 = (Prot2History.received h).2 := by
  have hquiet : ∀ e ∈ h', ∀ t c, e.1 ≠ .byte t c := by
    rintro e he t c heq
    have hmem : e.1 ∈ consume mode := hev ▸ List.mem_map_of_mem he
    rw [heq] at hmem
    cases mode <;> simp [consume] at hmem
  clear hev
  induction h' using List.reverseRecOn with
  | nil => simp
  | append_singleton h' e ih =>
      obtain ⟨e, o⟩ := e
      have hno : ∀ t c, e ≠ .byte t c := hquiet (e, o) (by simp)
      rw [← List.append_assoc, ← ih fun e he => hquiet e (List.mem_append_left _ he)]
      cases e with
      | byte t c => exact absurd rfl (hno t c)
      | service => cases o <;> simp [Prot2History.received]
      | cleanup => cases o <;> simp [Prot2History.received]

/-- A packet has been handed over and waits to be consumed. -/
structure Waits (s : Prot2System) (w : List UInt8) : Prop where
  handed : ∃ b, s.proc.buffCopy = some b ∧ (s.proc.buffer b).Holds w
  flag : match s.proc.mode with
    | .master => s.proc.replyReady = true
    | .slave => s.proc.requestReady = true

/-- The last event of a history publishes `w`. -/
def EndsPublishing (h : Prot2History) (w : List UInt8) : Prop :=
  ∃ h₀ e b v, h = h₀ ++ [(e, .published b v)] ∧ v.Holds w

/-- Bytes that complete one packet, the last of them its last byte, publish it and leave it
waiting. -/
theorem run_completes {s : Prot2System} {r : Reception} {pkt : List (ℕ × UInt8)}
    (hat : StandsAtReception s.proc s.clock r)
    (hpk : r.packets pkt = [r.acc ++ bytes pkt])
    (hlen : r.acc.length + pkt.length ≤ IPGLB2_MAX_BUFFER) :
    ∃ h s', prot2Machine.Run s h s' ∧ h.map Prod.fst = arrive pkt ∧
      s'.phase = s.phase ∧ Waits s' (r.acc ++ bytes pkt) ∧
      EndsPublishing h (r.acc ++ bytes pkt) := by
  induction pkt generalizing s r with
  | nil => exact absurd hpk (by simp [Reception.packets])
  | cons b pkt ih =>
      obtain ⟨t, c⟩ := b
      rw [List.length_cons] at hlen
      obtain ⟨q, clk', hq⟩ := Prot2Processor.receive_defined
        (by rw [hat.packet.cntr]; omega) (altNticks t) s.clock c
      have hstep := prot2_byte_step hq
      have hfeed := hat.feed hq
      simp only [Reception.packets] at hpk
      cases hw : r.emit (altNticks t) c with
      | none =>
          simp only [hw, Option.toList_none, List.nil_append] at hpk
          have hacc : (r.feed (altNticks t) c).acc = r.acc ++ [c] := by
            rcases nextPacket_acc r.acc (r.late (altNticks t)) c with h | h
            · exact h
            · -- a packet given up leaves too few bytes to complete this one
              have hcount := (r.feed (altNticks t) c).packets_length pkt
              rw [hpk, Reception.feed, h] at hcount
              simp only [List.map_cons, List.map_nil, List.sum_cons, List.sum_nil,
                List.length_append, bytes_length, List.length_cons, List.length_nil] at hcount
              omega
          have hwhole : r.acc ++ bytes ((t, c) :: pkt) =
              (r.feed (altNticks t) c).acc ++ bytes pkt := by
            rw [hacc]
            simp [bytes]
          rw [hwhole] at hpk ⊢
          have hroom : (r.feed (altNticks t) c).acc.length + pkt.length ≤
              IPGLB2_MAX_BUFFER := by
            rw [hacc, List.length_append, List.length_singleton]
            omega
          obtain ⟨h, s', hr, hev, hphase, hwaits, h₀, e, b, v, rfl, hv⟩ :=
            ih (s := ⟨q, clk', s.phase⟩) hfeed hpk hroom
          refine ⟨_, s', Machine.Run.cons hstep hr, ?_, hphase, hwaits, _ :: h₀, e, b, v, rfl,
            hv⟩
          rw [List.map_cons, hev]
          rfl
      | some w =>
          simp only [hw, Option.toList_some, List.singleton_append, List.cons.injEq] at hpk
          obtain ⟨rfl, -⟩ := hpk
          obtain ⟨hall, -⟩ := nextPacket_emits hw
          obtain rfl : pkt = [] := by
            have := congrArg List.length hall
            simpa [bytes] using this
          obtain ⟨hholds, hcopy, -, hready, hreply⟩ := hat.packet.next_emits hq hw
          have hmode := Prot2Processor.receive_mode hq
          have hcompl := hat.packet.completes_eq (r.late (altNticks t)) c
          rw [Reception.emit] at hw
          rw [hw, Option.isSome_some] at hcompl
          refine ⟨_, _, Machine.Run.single hstep, rfl, rfl, ⟨⟨_, hcopy, hholds⟩, ?_⟩, [], _, _,
            _, by rw [hcompl, if_pos rfl]; rfl, hholds⟩
          simp only [hmode, hready, hreply]
          cases s.proc.mode <;> rfl

/-- Consuming a waiting packet cleans the processor up. -/
theorem run_consume {s : Prot2System} {w : List UInt8} (hidle : s.phase = .idle)
    (hw : Waits s w) :
    ∃ h s', prot2Machine.Run s h s' ∧ h.map Prod.fst = consume s.proc.mode ∧
      s'.proc = ipglbProt2Cleanup s.proc ∧ s'.phase = .idle := by
  obtain ⟨p, clk, phase⟩ := s
  obtain rfl : phase = .idle := hidle
  obtain ⟨b, hcopy, -⟩ := hw.handed
  have hcopy : p.buffCopy = some b := hcopy
  cases hmode : p.mode with
  | master =>
      exact ⟨_, _, Machine.Run.single (i := .cleanup) rfl, by simp [consume], rfl, rfl⟩
  | slave =>
      have hready : p.requestReady = true := by simpa [hmode] using hw.flag
      have h₁ : prot2Machine.step ⟨p, clk, .idle⟩ .service =
          some (⟨p, clk, .taken b⟩, .quiet) := by
        simp [prot2Machine, prot2Step, hmode, hready, hcopy]
      have h₂ : prot2Machine.step ⟨p, clk, .taken b⟩ .service =
          some (⟨p, clk, .handled⟩, .handed b (p.buffer b)) := by
        simp [prot2Machine, prot2Step, hmode]
      have h₃ : prot2Machine.step ⟨p, clk, .handled⟩ .service =
          some (⟨p, clk, .replied⟩, .quiet) := by
        simp [prot2Machine, prot2Step, hmode]
      have h₄ : prot2Machine.step ⟨p, clk, .replied⟩ .service =
          some (⟨ipglbProt2Cleanup p, clk, .idle⟩, .cleared) := by
        simp [prot2Machine, prot2Step, hmode]
      exact ⟨_, _, .cons h₁ (.cons h₂ (.cons h₃ (.single h₄))), by simp [consume], rfl, rfl⟩

/-- The events of packets that arrive and are consumed one by one. -/
def oneByOne (mode : Prot2Mode) (pkts : List (List (ℕ × UInt8))) : List Prot2Event :=
  pkts.flatMap fun pkt => arrive pkt ++ consume mode

/-- The packets `done` have arrived and been consumed one by one, and the processor expects
the next. -/
structure Consumed (mode : Prot2Mode) (done : List (List (ℕ × UInt8))) (h : Prot2History)
    (s : Prot2System) : Prop where
  events : h.map Prod.fst = oneByOne mode done
  received : (Prot2History.received h).2 = done.map bytes
  receive : s.proc.receive = .listenLength
  cntr : s.proc.cntr = 0
  idle : s.phase = .idle

/-- Another packet has arrived behind the packets `done`. -/
structure Arrived (mode : Prot2Mode) (done : List (List (ℕ × UInt8)))
    (pkt : List (ℕ × UInt8)) (h : Prot2History) (s : Prot2System) : Prop where
  events : h.map Prod.fst = oneByOne mode done ++ arrive pkt
  received : (Prot2History.received h).2 = (done ++ [pkt]).map bytes
  waits : Waits s (bytes pkt)
  idle : s.phase = .idle

section OneByOne

variable {mode : Prot2Mode} {mem : BuffId → Prot2Buffer} {h : Prot2History} {s : Prot2System}
  {done pkts : List (List (ℕ × UInt8))} {pkt : List (ℕ × UInt8)}

/-- The next packet arrives. -/
theorem Consumed.arrive (hr : prot2Machine.Run (prot2Init mode mem) h s)
    (hc : Consumed mode done h s) (hwf : WellFormedPacket (bytes pkt)) (hpace : Paced pkt) :
    ∃ h' s', prot2Machine.Run (prot2Init mode mem) h' s' ∧ Arrived mode done pkt h' s' := by
  obtain ⟨hat, -, -⟩ := prot2_standsAt_run hr
  have hacc : (Prot2History.received h).1.acc = [] := by
    have hlen := hat.packet.cntr
    rw [hc.cntr] at hlen
    exact List.length_eq_zero_iff.mp hlen.symm
  obtain ⟨hpk, -⟩ := Reception.packets_packet hacc hwf hpace
  have hlen : pkt.length ≤ IPGLB2_MAX_BUFFER := by simpa using hwf.length_lt.le
  obtain ⟨h', s', hr', hev, hphase, hwaits, -⟩ := run_completes hat
    (by rw [hacc]; exact hpk) (by rw [hacc]; simpa using hlen)
  rw [hacc, List.nil_append] at hwaits
  refine ⟨h ++ h', s', hr.append hr', ?_, ?_, hwaits, hphase.trans hc.idle⟩
  · rw [List.map_append, hc.events, hev]
  · rw [received_arrive hev, hpk, hc.received, List.map_append, List.map_singleton]

/-- The packet that has arrived is consumed. -/
theorem Arrived.consume (hr : prot2Machine.Run (prot2Init mode mem) h s)
    (ha : Arrived mode done pkt h s) :
    ∃ h' s', prot2Machine.Run (prot2Init mode mem) h' s' ∧
      Consumed mode (done ++ [pkt]) h' s' := by
  obtain ⟨-, -, hmode⟩ := prot2_standsAt_run hr
  obtain ⟨h', s', hr', hev, hproc, hidle⟩ := run_consume ha.idle ha.waits
  rw [hmode] at hev
  refine ⟨h ++ h', s', hr.append hr', ?_, ?_, by rw [hproc]; rfl, by rw [hproc]; rfl, hidle⟩
  · rw [List.map_append, ha.events, hev]
    simp [oneByOne]
  · rw [received_consume hev, ha.received]

/-- Any number of packets arrives and is consumed. -/
theorem exists_consumed (mode : Prot2Mode) (mem : BuffId → Prot2Buffer)
    (done : List (List (ℕ × UInt8))) (hwf : ∀ pkt ∈ done, WellFormedPacket (bytes pkt))
    (hpace : ∀ pkt ∈ done, Paced pkt) :
    ∃ h s, prot2Machine.Run (prot2Init mode mem) h s ∧ Consumed mode done h s := by
  induction done using List.reverseRecOn with
  | nil => exact ⟨[], _, .nil, rfl, rfl, rfl, rfl, rfl⟩
  | append_singleton done pkt ih =>
      obtain ⟨h, s, hr, hc⟩ := ih
        (fun p hp => hwf p (List.mem_append_left _ hp))
        (fun p hp => hpace p (List.mem_append_left _ hp))
      obtain ⟨h', s', hr', ha⟩ := hc.arrive hr (hwf pkt (by simp)) (hpace pkt (by simp))
      exact ha.consume hr'

/-- **Framing**: packets that arrive one by one, each consumed before the next, are
published once each, in order and with their bytes; each waits in `buff_copy` until it is
consumed, and then the processor expects the next. -/
theorem prot2_framing (mode : Prot2Mode) (mem : BuffId → Prot2Buffer)
    (pkts : List (List (ℕ × UInt8))) (hwf : ∀ pkt ∈ pkts, WellFormedPacket (bytes pkt))
    (hpace : ∀ pkt ∈ pkts, Paced pkt) (done : List (List (ℕ × UInt8))) (hd : done <+: pkts) :
    (∃ h s, prot2Machine.Run (prot2Init mode mem) h s ∧
      h.map Prod.fst = oneByOne mode done ∧
      List.Forall₂ PublishedAs (Prot2History.published h) (done.map bytes) ∧
      s.proc.receive = .listenLength ∧ s.proc.cntr = 0) ∧
    ∀ pkt, done ++ [pkt] <+: pkts → ∃ h s, prot2Machine.Run (prot2Init mode mem) h s ∧
      h.map Prod.fst = oneByOne mode done ++ arrive pkt ∧
      List.Forall₂ PublishedAs (Prot2History.published h) ((done ++ [pkt]).map bytes) ∧
      Waits s (bytes pkt) := by
  obtain ⟨h, s, hr, hc⟩ := exists_consumed mode mem done
    (fun p hp => hwf p (hd.subset hp)) (fun p hp => hpace p (hd.subset hp))
  constructor
  · refine ⟨h, s, hr, hc.events, ?_, hc.receive, hc.cntr⟩
    rw [← hc.received]
    exact (prot2_standsAt_run hr).2.1
  · intro pkt hpkt
    have hmem : pkt ∈ pkts := hpkt.subset (by simp)
    obtain ⟨h', s', hr', ha⟩ := hc.arrive hr (hwf pkt hmem) (hpace pkt hmem)
    refine ⟨h', s', hr', ha.events, ?_, ha.waits⟩
    rw [← ha.received]
    exact (prot2_standsAt_run hr').2.1

end OneByOne

/-- A ping, its bytes one tick apart. -/
def pingPacket (start : ℕ) : List (ℕ × UInt8) :=
  [(start, 4), (start + 1, 0x0F), (start + 2, CMD_READ), (start + 3, 0x0B)]

/-- A ping keeps the format. -/
theorem pingPacket_wellFormed (start : ℕ) : WellFormedPacket (bytes (pingPacket start)) :=
  ⟨4, 0x0F, CMD_READ, [0x0B], rfl, by decide, rfl, rfl⟩

/-- A ping keeps the pace. -/
theorem pingPacket_paced (start : ℕ) : Paced (pingPacket start) := by
  have hnext : ∀ (t : ℕ) (a b : UInt8), Follows (t, a) (t + 1, b) :=
    fun t a b => ⟨Nat.le_succ t, Nat.add_le_add_left (by decide) t⟩
  exact .cons_cons (hnext _ _ _) (.cons_cons (hnext _ _ _) (.cons_cons (hnext _ _ _)
    (.singleton _)))

/-- Two pings, the first of them consumed and the second waiting. -/
theorem prot2_framing_ping : ∃ h s,
    prot2Machine.Run (prot2Init .slave fun _ => ByteBuffer.zero) h s ∧
      Waits s (bytes (pingPacket 70000)) := by
  have hwf : ∀ pkt ∈ [pingPacket 0, pingPacket 70000], WellFormedPacket (bytes pkt) := by
    simp [pingPacket_wellFormed]
  have hpace : ∀ pkt ∈ [pingPacket 0, pingPacket 70000], Paced pkt := by
    simp [pingPacket_paced]
  obtain ⟨h, s, hr, -, -, hw⟩ := (prot2_framing .slave (fun _ => ByteBuffer.zero) _ hwf hpace
    [pingPacket 0] (by simp)).2 (pingPacket 70000) (by simp)
  exact ⟨h, s, hr, hw⟩

/-! ### After a silence -/

/-- A packet that has not started at its first byte is not as long as the bytes that
arrived. -/
theorem Reception.after_acc_ne {r : Reception} {n : ℕ} (hn : r.acc.length ≠ n)
    (s : List (ℕ × UInt8)) : (r.after s).acc.length ≠ n + s.length := by
  induction s generalizing r n with
  | nil => exact hn
  | cons b s ih =>
      obtain ⟨t, c⟩ := b
      have hfeed : (r.feed (altNticks t) c).acc.length ≠ n + 1 := by
        rcases nextPacket_acc r.acc (r.late (altNticks t)) c with h | h
        · rw [Reception.feed, h, List.length_append, List.length_singleton]
          omega
        · rw [Reception.feed, h, List.length_nil]
          omega
      have hrest := ih hfeed
      rw [Reception.after, List.length_cons]
      omega

/-- The last byte of the packet publishes it, with exactly its bytes. -/
def PublishedWhole (s : Prot2System) (pkt : List (ℕ × UInt8)) : Prop :=
  ∃ h s', prot2Machine.Run s h s' ∧ h.map Prod.fst = arrive pkt ∧ EndsPublishing h (bytes pkt)

section Silence

variable {mode : Prot2Mode} {mem : BuffId → Prot2Buffer} {h : Prot2History} {s : Prot2System}
  {pkt : List (ℕ × UInt8)}

/-- A length byte is expected exactly where nothing has been received of a packet. -/
theorem expects_length_iff (hr : prot2Machine.Run (prot2Init mode mem) h s) :
    s.proc.receive = .listenLength ↔ (Prot2History.received h).1.acc = [] := by
  rw [(prot2_standsAt_run hr).1.packet.receive, eq_comm, listenerAt_eq_length,
    List.length_eq_zero_iff]

/-- A packet that is published whole started where a length byte was expected: elsewhere
what has been received is never as long as what has arrived of it. -/
theorem PublishedWhole.expects_length (hr : prot2Machine.Run (prot2Init mode mem) h s)
    (hwf : WellFormedPacket (bytes pkt)) (hpub : PublishedWhole s pkt) :
    s.proc.receive = .listenLength := by
  rw [expects_length_iff hr]
  obtain ⟨h', s', hr', hev, h₀, e, b, v, rfl, hv⟩ := hpub
  obtain ⟨l, f, c, rest, hw, -, hlen, -⟩ := hwf
  obtain ⟨s₁, hr₁, hstep⟩ := hr'.snoc_inv
  rw [List.map_append, List.map_singleton] at hev
  -- the last byte of the packet, and the bytes in front of it
  obtain ⟨pkt₀, ⟨t, d⟩, rfl⟩ : ∃ pkt₀ a, pkt = pkt₀ ++ [a] :=
    (List.eq_nil_or_concat' pkt).resolve_left (by rintro rfl; simp [bytes] at hw)
  rw [arrive_append] at hev
  obtain ⟨hev₀, he⟩ := List.append_inj' hev rfl
  obtain rfl : e = .byte t d := by simpa [arrive] using he
  obtain ⟨hat₁, -, -⟩ := prot2_standsAt_run (hr.append hr₁)
  rw [received_arrive hev₀] at hat₁
  obtain ⟨hrec, -, ho⟩ := prot2_byte hstep
  by_contra hne
  refine Reception.after_acc_ne (n := 0) (by simpa using hne) pkt₀ ?_
  cases hcompl : s₁.proc.completes with
  | false => simp [hcompl] at ho
  | true =>
      rw [hcompl, if_pos rfl] at ho
      obtain ⟨rfl, rfl⟩ := Prot2Obs.published.inj ho
      rw [hat₁.packet.completes_eq false d, Option.isSome_iff_exists] at hcompl
      obtain ⟨w, hemit⟩ := hcompl
      obtain ⟨rfl, -, -, l', hhead, hwlen⟩ := nextPacket_emits hemit
      -- both packets lie at the front of the same buffer, and say their own length
      have hsame : l' = l := by
        have h₁ := (hat₁.packet.next_emits hrec hemit).1
        obtain ⟨tail, htail⟩ := List.head?_eq_some_iff.mp hhead
        rw [htail, List.cons_append] at h₁
        rw [hw] at hv
        exact h₁.head_eq hv
      rw [← hsame, ← hwlen] at hlen
      simp only [bytes_length, List.length_append, List.length_singleton] at hlen
      omega

/-- A packet that starts where a length byte is expected is published whole. -/
theorem publishedWhole_of_expects (hr : prot2Machine.Run (prot2Init mode mem) h s)
    (hwf : WellFormedPacket (bytes pkt)) (hpace : Paced pkt)
    (hrec : s.proc.receive = .listenLength) : PublishedWhole s pkt := by
  obtain ⟨hat, -, -⟩ := prot2_standsAt_run hr
  have hnil := (expects_length_iff hr).mp hrec
  obtain ⟨hpk, -⟩ := Reception.packets_packet hnil hwf hpace
  have hlen : pkt.length ≤ IPGLB2_MAX_BUFFER := by simpa using hwf.length_lt.le
  obtain ⟨h', s', hr', hev, -, -, hends⟩ := run_completes hat
    (by rw [hnil]; exact hpk) (by rw [hnil]; simpa using hlen)
  rw [hnil, List.nil_append] at hends
  exact ⟨h', s', hr', hev, hends⟩

/-- **Resynchronisation**: whatever happened before and however long the line was silent, a
packet is published with exactly its bytes if and only if the listener expected a length
byte when it started. -/
theorem resynchronises_iff (hr : prot2Machine.Run (prot2Init mode mem) h s)
    (hwf : WellFormedPacket (bytes pkt)) (hpace : Paced pkt) :
    PublishedWhole s pkt ↔ s.proc.receive = .listenLength :=
  ⟨fun hpub => hpub.expects_length hr hwf, publishedWhole_of_expects hr hwf hpace⟩

end Silence

/-- A ping to a fresh processor is published. -/
theorem resynchronises_ping :
    PublishedWhole (prot2Init .slave fun _ => ByteBuffer.zero) (pingPacket 20000) :=
  (resynchronises_iff .nil (pingPacket_wellFormed _) (pingPacket_paced _)).mpr rfl

/-- The packet comes more than `PROT2_TIMEOUT` ticks after everything before it. -/
def AfterSilence (h : Prot2History) (pkt : List (ℕ × UInt8)) : Prop :=
  ∀ a ∈ Prot2History.arrivals h, ∀ b ∈ pkt.head?, a.1 + PROT2_TIMEOUT.toNat < b.1

/-- **A packet after a silence is lost** where a lone length byte came before the silence:
its first byte is late for the function byte, and dropped. -/
theorem not_resynchronises : ¬ ∀ (mode : Prot2Mode) (mem : BuffId → Prot2Buffer)
    (h : Prot2History) (s : Prot2System) (pkt : List (ℕ × UInt8)),
    prot2Machine.Run (prot2Init mode mem) h s → (∀ e ∈ h, ∃ t c, e.1 = .byte t c) →
    WellFormedPacket (bytes pkt) → Paced pkt → AfterSilence h pkt → PublishedWhole s pkt := by
  intro hall
  have hstep := prot2_byte_step (s := prot2Init .slave fun _ => ByteBuffer.zero) (t := 0)
    (c := 5) rfl
  have hr := Machine.Run.single hstep
  have hpub := hall .slave _ _ _ (pingPacket 20000) hr (by simp) (pingPacket_wellFormed _)
    (pingPacket_paced _) (by
      simp only [AfterSilence, Prot2History.arrivals, pingPacket]
      decide)
  exact absurd (hpub.expects_length hr (pingPacket_wellFormed _)) (by decide)

end Muxponder

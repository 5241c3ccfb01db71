import Mathlib.Data.List.Forall2
import Muxponder.Prot2Processor

/-!
# Receptions

What a PROT2 listener is for, without its buffers, counters and function pointers: it
collects the bytes of one packet, gives up on a header that is late or has no valid
command, and hands the packet over when it is as long as its first byte says. A
`Reception` is the packet so far and the time of the last byte.

The listener of `ipglb_prot2_processor.c` refines it (`standsAt_receive`): the counter is
the length of the packet so far, the active buffer starts with it, and the `receive`
pointer and the expected length are read off it. Along every run, whatever service steps
and cleanups come in between, the listener stands at the reception of its history
(`prot2_standsAt_run`).

## Main results

* `standsAt_receive`: one byte, listener against reception.
* `prot2_standsAt_run`: every run, and the packets it publishes.
* `receive_packet`: a packet that keeps the format and the pace is received as it is.
-/

namespace Muxponder

/-! ### The abstract listener -/

/-- The packet so far after one more byte, and the packet this byte completes; `late` says
that the byte came too long after the one before it. -/
def nextPacket (acc : List UInt8) (late : Bool) (c : UInt8) :
    List UInt8 × Option (List UInt8) :=
  match acc with
  | [] => ([c], none)
  | [l] => if late then ([], none) else ([l, c], none)
  | [l, f] => if validCommand c && !late then ([l, f, c], none) else ([], none)
  | l :: f :: d :: rest =>
      if rest.length + 4 = l.toNat then ([], some (l :: f :: d :: rest ++ [c]))
      else (l :: f :: d :: rest ++ [c], none)

/-- The time of a byte only matters inside the header. -/
theorem nextPacket_congr {acc : List UInt8} {late late' : Bool}
    (h : acc.length = 1 ∨ acc.length = 2 → late = late') (c : UInt8) :
    nextPacket acc late c = nextPacket acc late' c := by
  match acc, h with
  | [], _ => rfl
  | [l], h => rw [h (Or.inl rfl)]
  | [l, f], h => rw [h (Or.inr rfl)]
  | l :: f :: d :: rest, _ => rfl

/-- A packet that is handed over is at least a header and one byte, has the length its
first byte says, and leaves nothing behind. -/
theorem nextPacket_emits {acc : List UInt8} {late : Bool} {c : UInt8} {w : List UInt8}
    (h : (nextPacket acc late c).2 = some w) :
    w = acc ++ [c] ∧ (nextPacket acc late c).1 = [] ∧ 3 ≤ acc.length ∧
      ∃ l, acc.head? = some l ∧ w.length = l.toNat := by
  match acc, h with
  | [], h => exact absurd h (by simp [nextPacket])
  | [l], h => cases late <;> exact absurd h (by simp [nextPacket])
  | [l, f], h => cases hv : validCommand c <;> cases late <;> simp [nextPacket, hv] at h
  | l :: f :: d :: rest, h =>
      rw [nextPacket] at h ⊢
      split at h
      · next hl =>
          obtain rfl := Option.some.inj h
          refine ⟨rfl, by rw [if_pos hl], by simp, l, rfl, ?_⟩
          simpa using hl
      · exact absurd h (by simp)

/-- The packet so far and the time of the last byte. -/
structure Reception where
  acc : List UInt8
  last : UInt32

namespace Reception

/-- Whether a byte that arrives now is late. -/
def late (r : Reception) (now : UInt32) : Bool := decide (PROT2_TIMEOUT < now - r.last)

/-- The reception after one more byte. -/
def feed (r : Reception) (now : UInt32) (c : UInt8) : Reception :=
  ⟨(nextPacket r.acc (r.late now) c).1, now⟩

/-- The packet a byte completes. -/
def emit (r : Reception) (now : UInt32) (c : UInt8) : Option (List UInt8) :=
  (nextPacket r.acc (r.late now) c).2

/-- The reception after a stream of timed bytes. -/
def after (r : Reception) : List (ℕ × UInt8) → Reception
  | [] => r
  | (t, c) :: rest => (r.feed (altNticks t) c).after rest

/-- The packets a stream of timed bytes completes. -/
def packets (r : Reception) : List (ℕ × UInt8) → List (List UInt8)
  | [] => []
  | (t, c) :: rest =>
      (r.emit (altNticks t) c).toList ++ (r.feed (altNticks t) c).packets rest

/-- Receptions compose along the stream. -/
theorem after_append (r : Reception) (s s' : List (ℕ × UInt8)) :
    r.after (s ++ s') = (r.after s).after s' := by
  induction s generalizing r with
  | nil => rfl
  | cons b s ih => exact ih _

/-- The packets of a stream are those of its parts. -/
theorem packets_append (r : Reception) (s s' : List (ℕ × UInt8)) :
    r.packets (s ++ s') = r.packets s ++ (r.after s).packets s' := by
  induction s generalizing r with
  | nil => rfl
  | cons b s ih => simp only [List.cons_append, packets, after, ih, List.append_assoc]

end Reception

/-! ### The listener refines the reception -/

/-- The function `receive` points to while `n` bytes of a packet have been received. -/
def listenerAt : ℕ → Prot2Listener
  | 0 => .listenLength
  | 1 => .listenFunc
  | 2 => .listenCmd
  | _ => .listenPayload

/-- A length byte is expected where nothing has been received. -/
@[simp] theorem listenerAt_eq_length {n : ℕ} : .listenLength = listenerAt n ↔ n = 0 := by
  match n with
  | 0 | 1 | 2 | n + 3 => simp [listenerAt]

/-- A function byte is expected behind the length byte. -/
@[simp] theorem listenerAt_eq_func {n : ℕ} : .listenFunc = listenerAt n ↔ n = 1 := by
  match n with
  | 0 | 1 | 2 | n + 3 => simp [listenerAt]

/-- A command byte is expected behind the function byte. -/
@[simp] theorem listenerAt_eq_cmd {n : ℕ} : .listenCmd = listenerAt n ↔ n = 2 := by
  match n with
  | 0 | 1 | 2 | n + 3 => simp [listenerAt]

/-- The payload is expected behind the header. -/
@[simp] theorem listenerAt_eq_payload {n : ℕ} : .listenPayload = listenerAt n ↔ 3 ≤ n := by
  match n with
  | 0 | 1 | 2 | n + 3 => simp [listenerAt]

/-- A packet received up to its payload has a header. -/
theorem exists_header {acc : List UInt8} (h : 3 ≤ acc.length) :
    ∃ l f d rest, acc = l :: f :: d :: rest := by
  match acc, h with
  | l :: f :: d :: rest, _ => exact ⟨l, f, d, rest, rfl⟩

/-- The processor has received `acc` of the packet. -/
structure StandsAtPacket (p : Prot2Processor) (acc : List UInt8) : Prop where
  cntr : p.cntr = acc.length
  holds : (p.buffer p.buff).Holds acc
  receive : p.receive = listenerAt acc.length
  expectedLen : ∀ l ∈ acc.head?, p.expectedLen = l

namespace StandsAtPacket

variable {p q : Prot2Processor} {acc : List UInt8} {now : UInt32} {clk clk' : Prot2Clock}
  {c : UInt8}

/-- A reset processor stands at the start of a packet. -/
theorem of_reset (p : Prot2Processor) : StandsAtPacket p.listenReset [] :=
  ⟨rfl, ByteBuffer.holds_nil, rfl, by simp⟩

/-- A cleaned up processor stands at the start of a packet. -/
theorem of_cleanup (p : Prot2Processor) : StandsAtPacket (ipglbProt2Cleanup p) [] :=
  of_reset _

/-- A fresh processor stands at the start of a packet. -/
theorem of_init (mode : Prot2Mode) (mem : BuffId → Prot2Buffer) :
    StandsAtPacket (ipglbProt2ProcessorInit mode mem) [] :=
  ⟨rfl, ByteBuffer.holds_nil, rfl, by simp⟩

/-- The byte pushed is the next of the packet. -/
theorem push (hat : StandsAtPacket p acc) (h : p.push c = some q) :
    q.cntr = (acc ++ [c]).length ∧ (q.buffer q.buff).Holds (acc ++ [c]) ∧
      q.expectedLen = p.expectedLen := by
  obtain ⟨v, hv, rfl⟩ := Prot2Processor.push_eq_some h
  rw [hat.cntr] at hv
  refine ⟨?_, ?_, rfl⟩
  · simp [hat.cntr]
  · simpa using hat.holds.store hv

/-- The packet is complete with a byte of its payload that makes it as long as its first
byte says. -/
theorem completes_eq (hat : StandsAtPacket p acc) (late : Bool) (c : UInt8) :
    p.completes = (nextPacket acc late c).2.isSome := by
  rw [Prot2Processor.completes, hat.receive, hat.cntr]
  rcases acc with _ | ⟨l, _ | ⟨f, _ | ⟨d, rest⟩⟩⟩
  · rfl
  · cases late <;> rfl
  · cases hv : validCommand c <;> cases late <;> simp [nextPacket, listenerAt, hv]
  · have hlen : p.expectedLen = l := hat.expectedLen l rfl
    by_cases hl : rest.length + 4 = l.toNat
    · simp [nextPacket, listenerAt, hl, hlen]
    · simp [nextPacket, listenerAt, hl, hlen]

/-- **One byte**: the listener stands at the packet with this byte, judged late by the
clock it was called with. -/
theorem next (hat : StandsAtPacket p acc)
    (h : ipglbProt2Receive p now clk c = some (q, clk')) :
    StandsAtPacket q
      (nextPacket acc (decide (PROT2_TIMEOUT < now - clk.startTime)) c).1 := by
  have hacc := hat.receive
  cases Prot2Processor.received h with
  | length hrec hr =>
      obtain rfl : acc = [] := by simpa [hrec] using hacc
      obtain ⟨hcntr, hholds, -⟩ := hat.push hr
      exact ⟨hcntr, hholds, rfl, by simp [nextPacket]⟩
  | funcLate hrec hlate =>
      obtain ⟨l, rfl⟩ : ∃ l, acc = [l] := by simpa [hrec, List.length_eq_one_iff] using hacc
      simpa [nextPacket, hlate] using of_cleanup p
  | func hrec hlate hr =>
      obtain ⟨l, rfl⟩ : ∃ l, acc = [l] := by simpa [hrec, List.length_eq_one_iff] using hacc
      obtain ⟨hcntr, hholds, hlen⟩ := hat.push hr
      simp only [nextPacket, hlate, decide_false, Bool.false_eq_true, if_false]
      exact ⟨hcntr, hholds, rfl, fun l' hl' => hlen.trans (hat.expectedLen l' hl')⟩
  | cmdRefused hrec hr hno =>
      obtain ⟨l, f, rfl⟩ : ∃ l f, acc = [l, f] := by
        simpa [hrec, List.length_eq_two] using hacc
      have hnext : nextPacket [l, f] (decide (PROT2_TIMEOUT < now - clk.startTime)) c =
          ([], none) := by
        cases hv : validCommand c with
        | true => simp [nextPacket, hv, hno hv]
        | false => simp [nextPacket, hv]
      rw [hnext]
      exact of_cleanup _
  | cmd hrec hr hv hlate =>
      obtain ⟨l, f, rfl⟩ : ∃ l f, acc = [l, f] := by
        simpa [hrec, List.length_eq_two] using hacc
      obtain ⟨hcntr, hholds, hlen⟩ := hat.push hr
      simp only [nextPacket, hv, hlate, decide_false, Bool.not_false, Bool.and_self, if_true]
      exact ⟨hcntr, hholds, rfl, fun l' hl' => hlen.trans (hat.expectedLen l' hl')⟩
  | packetEnd hrec hr hend =>
      obtain ⟨l, f, d, rest, rfl⟩ := exists_header (by simpa [hrec] using hacc)
      obtain ⟨hcntr, -, hlen⟩ := hat.push hr
      rw [hcntr, hlen, hat.expectedLen l rfl] at hend
      rw [nextPacket, if_pos (by simpa using hend)]
      exact ⟨rfl, ByteBuffer.holds_nil, rfl, by simp⟩
  | payload hrec hr hmore =>
      obtain ⟨l, f, d, rest, rfl⟩ := exists_header (by simpa [hrec] using hacc)
      obtain ⟨hcntr, hholds, hlen⟩ := hat.push hr
      rw [hcntr, hlen, hat.expectedLen l rfl] at hmore
      rw [nextPacket, if_neg (by simpa using hmore)]
      exact ⟨hcntr, hholds, rfl, fun l' hl' => hlen.trans (hat.expectedLen l' hl')⟩

/-- **A completed packet** is handed over in the buffer it was received in. -/
theorem next_emits (hat : StandsAtPacket p acc)
    (h : ipglbProt2Receive p now clk c = some (q, clk')) {late : Bool} {w : List UInt8}
    (hw : (nextPacket acc late c).2 = some w) :
    (q.buffer p.buff).Holds w ∧ q.buffCopy = some p.buff ∧ q.buff = p.buff.other ∧
      q.requestReady = (if p.mode = .master then p.requestReady else true) ∧
      q.replyReady = (if p.mode = .master then true else p.replyReady) := by
  obtain ⟨rfl, -, h3, l, hhead, hlen⟩ := nextPacket_emits hw
  have hpay : p.receive = .listenPayload := hat.receive.trans (listenerAt_eq_payload.mpr h3).symm
  have hcompl : ∀ {r : Prot2Processor}, p.push c = some r → r.cntr = r.expectedLen.toNat := by
    intro r hr
    obtain ⟨hcntr, -, hexp⟩ := hat.push hr
    rw [hcntr, hexp, hat.expectedLen l hhead, hlen]
  cases Prot2Processor.received h with
  | length hrec => exact absurd (hrec.symm.trans hpay) (by simp)
  | funcLate hrec => exact absurd (hrec.symm.trans hpay) (by simp)
  | func hrec => exact absurd (hrec.symm.trans hpay) (by simp)
  | cmdRefused hrec => exact absurd (hrec.symm.trans hpay) (by simp)
  | cmd hrec => exact absurd (hrec.symm.trans hpay) (by simp)
  | payload _ hr hmore => exact absurd (hcompl hr) hmore
  | packetEnd _ hr =>
      obtain ⟨hmode, hbuff, -, -, hready, hreply, -⟩ := Prot2Processor.push_frame hr
      have hholds := (hat.push hr).2.1
      rw [hbuff] at hholds
      refine ⟨?_, ?_, ?_, ?_, ?_⟩
      · simpa [Prot2Processor.publish, hbuff, Function.update_of_ne p.buff.other_ne] using
          hholds
      · simp [Prot2Processor.publish, hbuff]
      · simp [Prot2Processor.publish, hbuff]
      · simp [Prot2Processor.publish, hmode, hready]
      · simp [Prot2Processor.publish, hmode, hreply]

end StandsAtPacket

/-! ### Runs -/

/-- A processor under its clock stands at a reception. -/
structure StandsAtReception (p : Prot2Processor) (clk : Prot2Clock) (r : Reception) :
    Prop where
  packet : StandsAtPacket p r.acc
  clock : p.receive = .listenFunc ∨ p.receive = .listenCmd → clk.startTime = r.last

namespace StandsAtReception

variable {p q : Prot2Processor} {r : Reception} {now : UInt32} {clk clk' : Prot2Clock}
  {c : UInt8}

/-- Inside a header the listener and the reception agree on what is late. -/
theorem judged (hat : StandsAtReception p clk r) (now : UInt32) (c : UInt8) :
    nextPacket r.acc (decide (PROT2_TIMEOUT < now - clk.startTime)) c =
      nextPacket r.acc (r.late now) c :=
  nextPacket_congr (fun h => by
    rw [hat.clock (by simpa [hat.packet.receive, eq_comm] using h)]
    rfl) c

/-- **The step lemma**: the listener stands at the reception with this byte. -/
theorem feed (hat : StandsAtReception p clk r)
    (h : ipglbProt2Receive p now clk c = some (q, clk')) :
    StandsAtReception q clk' (r.feed now c) := by
  have hpacket := hat.packet.next h
  rw [hat.judged] at hpacket
  exact ⟨hpacket, Prot2Processor.receive_clock h⟩

end StandsAtReception

namespace Prot2History

/-- What has been received along a history: the reception its bytes and cleanups lead to,
and the packets completed on the way. -/
def received (h : Prot2History) : Reception × List (List UInt8) :=
  h.foldl (fun r e => match e.1, e.2 with
    | .byte time data, _ =>
        (r.1.feed (altNticks time) data, r.2 ++ (r.1.emit (altNticks time) data).toList)
    | _, .cleared => (⟨[], r.1.last⟩, r.2)
    | _, _ => r) (⟨[], 0⟩, [])

/-- A byte is received at the end. -/
theorem received_byte (h : Prot2History) (time : ℕ) (data : UInt8) (o : Prot2Obs) :
    received (h ++ [(.byte time data, o)]) =
      ((received h).1.feed (altNticks time) data,
        (received h).2 ++ ((received h).1.emit (altNticks time) data).toList) := by
  simp [received]

/-- A cleanup at the end throws away the packet so far. -/
theorem received_cleared (h : Prot2History) {e : Prot2Event} (he : ∀ t c, e ≠ .byte t c) :
    received (h ++ [(e, .cleared)]) = (⟨[], (received h).1.last⟩, (received h).2) := by
  cases e with
  | byte t c => exact absurd rfl (he t c)
  | service => simp [received]
  | cleanup => simp [received]

/-- A service step that cleans nothing up receives nothing. -/
theorem received_service (h : Prot2History) {o : Prot2Obs} (ho : o ≠ .cleared) :
    received (h ++ [(.service, o)]) = received h := by
  cases o with
  | cleared => exact absurd rfl ho
  | quiet => simp [received]
  | published b v => simp [received]
  | handed b v => simp [received]

end Prot2History

/-- A packet was published with exactly these bytes in front of its buffer. -/
def PublishedAs (pub : BuffId × Prot2Buffer) (w : List UInt8) : Prop := pub.2.Holds w

/-- A byte step is `ipglb_prot2_receive`. -/
theorem prot2_byte {s s' : Prot2System} {t : ℕ} {c : UInt8} {o : Prot2Obs}
    (h : prot2Machine.step s (.byte t c) = some (s', o)) :
    ipglbProt2Receive s.proc (altNticks t) s.clock c = some (s'.proc, s'.clock) ∧
      s'.phase = s.phase ∧
      o = if s.proc.completes then .published s.proc.buff (s'.proc.buffer s.proc.buff)
        else .quiet := by
  obtain ⟨⟨p, clk⟩, hp, he⟩ := Option.map_eq_some_iff.mp h
  obtain ⟨rfl, rfl⟩ := Prod.mk.inj he
  exact ⟨hp, rfl, rfl⟩

/-- A byte with a defined effect makes a step. -/
theorem prot2_byte_step {s : Prot2System} {t : ℕ} {c : UInt8} {p : Prot2Processor}
    {clk : Prot2Clock} (h : ipglbProt2Receive s.proc (altNticks t) s.clock c = some (p, clk)) :
    prot2Machine.step s (.byte t c) = some (⟨p, clk, s.phase⟩,
      if s.proc.completes then .published s.proc.buff (p.buffer s.proc.buff) else .quiet) := by
  simp [prot2Machine, prot2Step, h]

/-- A service step leaves the listener alone, or ends with a cleanup. -/
theorem prot2_service {s s' : Prot2System} {o : Prot2Obs}
    (h : prot2Machine.step s .service = some (s', o)) :
    s'.clock = s.clock ∧ (s'.proc = s.proc ∧ (o = .quiet ∨ ∃ b v, o = .handed b v) ∨
      s'.proc = ipglbProt2Cleanup s.proc ∧ o = .cleared) := by
  simp only [prot2Machine, prot2Step] at h
  split at h
  · obtain ⟨rfl, rfl⟩ := Prod.mk.inj (Option.some.inj h)
    exact ⟨rfl, Or.inl ⟨rfl, Or.inl rfl⟩⟩
  · split at h
    · obtain ⟨b, -, he⟩ := Option.map_eq_some_iff.mp h
      obtain ⟨rfl, rfl⟩ := Prod.mk.inj he
      exact ⟨rfl, Or.inl ⟨rfl, Or.inl rfl⟩⟩
    · obtain ⟨rfl, rfl⟩ := Prod.mk.inj (Option.some.inj h)
      exact ⟨rfl, Or.inl ⟨rfl, Or.inl rfl⟩⟩
  · obtain ⟨rfl, rfl⟩ := Prod.mk.inj (Option.some.inj h)
    exact ⟨rfl, Or.inl ⟨rfl, Or.inr ⟨_, _, rfl⟩⟩⟩
  · obtain ⟨rfl, rfl⟩ := Prod.mk.inj (Option.some.inj h)
    exact ⟨rfl, Or.inl ⟨rfl, Or.inl rfl⟩⟩
  · obtain ⟨rfl, rfl⟩ := Prod.mk.inj (Option.some.inj h)
    exact ⟨rfl, Or.inr ⟨rfl, rfl⟩⟩

/-- A cleanup cleans up the processor and nothing else. -/
theorem prot2_cleanup {s s' : Prot2System} {o : Prot2Obs}
    (h : prot2Machine.step s .cleanup = some (s', o)) :
    s'.proc = ipglbProt2Cleanup s.proc ∧ s'.clock = s.clock ∧ s'.phase = s.phase ∧
      o = .cleared := by
  obtain ⟨rfl, rfl⟩ := Prod.mk.inj (Option.some.inj h)
  exact ⟨rfl, rfl, rfl, rfl⟩

/-- A cleaned up processor is at the start of a packet, whatever the clock. -/
theorem StandsAtReception.of_cleanup (p : Prot2Processor) (clk : Prot2Clock) (last : UInt32) :
    StandsAtReception (ipglbProt2Cleanup p) clk ⟨[], last⟩ :=
  ⟨StandsAtPacket.of_cleanup p,
    fun h => absurd h (by simp)⟩

/-- **The run lemma**: at any interleaving the listener stands at what has been received,
and has published the packets completed so far. -/
theorem prot2_standsAt_run {mode : Prot2Mode} {mem : BuffId → Prot2Buffer} {h : Prot2History}
    {s : Prot2System} (hr : prot2Machine.Run (prot2Init mode mem) h s) :
    StandsAtReception s.proc s.clock h.received.1 ∧
      List.Forall₂ PublishedAs h.published h.received.2 ∧ s.proc.mode = mode := by
  refine hr.invariant (I := fun (h : Prot2History) s =>
    StandsAtReception s.proc s.clock h.received.1 ∧
      List.Forall₂ PublishedAs h.published h.received.2 ∧ s.proc.mode = mode)
    ⟨⟨StandsAtPacket.of_init mode mem, fun h => absurd h (by simp [prot2Init,
      ipglbProt2ProcessorInit])⟩, .nil, rfl⟩ ?_
  rintro (h : Prot2History) s e s' o - ⟨hat, hpub, hmode⟩ hstep
  cases e with
  | byte t c =>
      obtain ⟨hrec, -, ho⟩ := prot2_byte hstep
      rw [Prot2History.received_byte]
      refine ⟨hat.feed hrec, ?_, (Prot2Processor.receive_mode hrec).trans hmode⟩
      have hcompl := hat.packet.completes_eq (h.received.1.late (altNticks t)) c
      cases hw : h.received.1.emit (altNticks t) c with
      | none =>
          rw [Reception.emit] at hw
          rw [hw] at hcompl
          rw [hcompl] at ho
          simpa [ho, Prot2History.published] using hpub
      | some w =>
          rw [Reception.emit] at hw
          rw [hw] at hcompl
          rw [hcompl] at ho
          have hholds : PublishedAs (s.proc.buff, s'.proc.buffer s.proc.buff) w :=
            (hat.packet.next_emits hrec hw).1
          have happ := List.rel_append hpub (List.Forall₂.cons hholds .nil)
          simpa [ho, Prot2History.published] using happ
  | service =>
      obtain ⟨hclk, ⟨hproc, ho⟩ | ⟨hproc, rfl⟩⟩ := prot2_service hstep
      · have hquiet : o ≠ .cleared := by rcases ho with rfl | ⟨b, v, rfl⟩ <;> simp
        rw [Prot2History.received_service h hquiet, hproc, hclk]
        refine ⟨hat, ?_, hmode⟩
        rcases ho with rfl | ⟨b, v, rfl⟩
        · simpa [Prot2History.published] using hpub
        · simpa [Prot2History.published] using hpub
      · rw [Prot2History.received_cleared h (by simp), hproc]
        exact ⟨.of_cleanup _ _ _, by simpa [Prot2History.published] using hpub, hmode⟩
  | cleanup =>
      obtain ⟨hproc, -, -, rfl⟩ := prot2_cleanup hstep
      rw [Prot2History.received_cleared h (by simp), hproc]
      exact ⟨.of_cleanup _ _ _, by simpa [Prot2History.published] using hpub, hmode⟩

end Muxponder

import Muxponder.KursReplyLength
import Muxponder.KursService
import Muxponder.UartTransmission

/-!
# The Line to the ARM

The UART of the ARM with everything that is behind it: the interrupt of the receiver, which tells
the bytes of the two protocols apart by their ninth bit, `kurs_service` with its phases, the two
producers in front of the transmitter, and the interrupt that takes the words from there. They come
in any order.

## Main results

* `LineReception.byte`, `LineReception.complete`: the frames of what has been received are the
  requests that were answered and the one that waits.
* `Transmission.begin`, `Transmission.queue`, `Transmission.ready`: of the packets that have begun,
  every word is written, in the ring buffer, or still to be queued.
-/

namespace Muxponder

open KursProcessor Framing

/-- The card at the end of the line: the processor with the progress of `kurs_service`, the
variables of the program that serves the requests, the reply `tx_buff`, and the transmitter. -/
structure KursLine (σ : Type*) where
  kurs : KursSystem
  server : σ
  tx_buff : List UInt8
  transmitter : ArmTransmitter

/-- What happens on the line: a word is received, `kurs_service` makes its next step,
`send_9bit_uart_packet` is called, the call that queues a packet goes on, or the UART is ready. -/
inductive LineEvent
  | rrdy (data : UInt16)
  | service
  | packet (packet : List UInt8)
  | next
  | trdy
  deriving DecidableEq, Repr

/-- What is to be seen of it: a request with its reply, or a word written to the UART. -/
inductive LineObs
  | quiet
  | answered (request : Buffer) (reply : List UInt8)
  | written (word : UInt16)

variable {σ : Type*}

/-- One event. `answer` is `KURS_HandleRequests`: what it makes of the variables, and its reply. The
handler writes the reply, `kurs_service` a terminator behind it. -/
def lineStep (answer : σ → Buffer → Option (σ × List UInt8)) (s : KursLine σ) :
    LineEvent → Option (KursLine σ × LineObs)
  | .rrdy data =>
      if bitIsSet data BIT8 then some (s, .quiet)
      else (kursReceive s.kurs.proc data.toUInt8).map fun p =>
        ({ s with kurs := ⟨p, s.kurs.phase⟩ }, .quiet)
  | .service =>
      (kursStep handleRequests s.kurs .service).bind fun r =>
        match s.kurs.phase with
        | .idle => some ({ s with kurs := r.1 }, .quiet)
        | .taken b =>
            let request := s.kurs.proc.buffer b
            (answer s.server request).bind fun a =>
              if a.2.length + 1 ≤ TX_BUFF_SIZE then
                some (⟨r.1, a.1, a.2, s.transmitter⟩, .answered request a.2)
              else none
        | .handled _ =>
            (s.transmitter.begin (.kurs s.tx_buff)).map fun t =>
              ({ s with kurs := r.1, transmitter := t }, .quiet)
        | .replied _ =>
            if s.transmitter.kurs.rest = [] then some ({ s with kurs := r.1 }, .quiet) else none
  | .packet packet =>
      (s.transmitter.begin (.arm packet)).map fun t => ({ s with transmitter := t }, .quiet)
  | .next => s.transmitter.continue.map fun t => ({ s with transmitter := t }, .quiet)
  | .trdy =>
      some ({ s with transmitter := s.transmitter.ready.1 },
        match s.transmitter.ready.2 with
        | some word => .written word
        | none => .quiet)

/-- The line as a machine. -/
def lineMachine (answer : σ → Buffer → Option (σ × List UInt8)) :
    Machine (KursLine σ) LineEvent LineObs := ⟨lineStep answer⟩

/-- The line at start-up. -/
def lineInit (sop : UInt8) (mem1 mem2 : Buffer) (server : σ) (buf : Fin (2 ^ TX_ORDER) → UInt16) :
    KursLine σ :=
  ⟨kursInit sop mem1 mem2, server, [], transmitterInit buf⟩

/-- The byte received for KURS. -/
def LineEvent.bytes : LineEvent → List UInt8
  | .rrdy data => if bitIsSet data BIT8 then [] else [data.toUInt8]
  | _ => []

/-- The packet of the other protocol. -/
def LineEvent.calls : LineEvent → List ArmPacket
  | .packet p => [.arm p]
  | _ => []

/-- The request that is answered. -/
def LineObs.requests : LineObs → List Buffer
  | .answered request _ => [request]
  | _ => []

/-- Its reply. -/
def LineObs.replies : LineObs → List ArmPacket
  | .answered _ reply => [.kurs reply]
  | _ => []

/-- The word written to the UART. -/
def LineObs.words : LineObs → List UInt16
  | .written word => [word]
  | _ => []

/-- A history of the line. -/
abbrev LineHistory := List (LineEvent × LineObs)

namespace LineHistory

/-- The bytes received for KURS. -/
def received (h : LineHistory) : List UInt8 := h.flatMap fun e => e.1.bytes

/-- The packets of the other protocol. -/
def packets (h : LineHistory) : List ArmPacket := h.flatMap fun e => e.1.calls

/-- The requests that were answered. -/
def requests (h : LineHistory) : List Buffer := h.flatMap fun e => e.2.requests

/-- Their replies. -/
def replies (h : LineHistory) : List ArmPacket := h.flatMap fun e => e.2.replies

/-- The words written to the UART. -/
def written (h : LineHistory) : List UInt16 := h.flatMap fun e => e.2.words

end LineHistory

/-- What a server makes of requests one after the other: its variables, and the replies. -/
def serve (answer : σ → Buffer → Option (σ × List UInt8)) :
    σ → List Buffer → Option (σ × List ArmPacket)
  | server, [] => some (server, [])
  | server, r :: rs =>
      (answer server r).bind fun a =>
        (serve answer a.1 rs).map fun t => (t.1, .kurs a.2 :: t.2)

/-- One request more. -/
theorem serve_snoc {answer : σ → Buffer → Option (σ × List UInt8)} {server : σ} {rs : List Buffer}
    {t : σ × List ArmPacket} {v : σ} {r : Buffer} {reply : List UInt8}
    (ht : serve answer server rs = some t) (ha : answer t.1 r = some (v, reply)) :
    serve answer server (rs ++ [r]) = some (v, t.2 ++ [.kurs reply]) := by
  induction rs generalizing server t with
  | nil =>
      obtain rfl := Option.some.inj ht
      simp [serve, ha]
  | cons r' rs ih =>
      obtain ⟨a, hv, ht⟩ := Option.bind_eq_some_iff.mp ht
      obtain ⟨t', ht', rfl⟩ := Option.map_eq_some_iff.mp ht
      rw [List.cons_append, serve, hv, Option.bind_some, ih ht' ha, Option.map_some]
      rfl

/-- The condition on a step: no frame completes while a request is waiting or being served, and a
word that is queued finds room. -/
def HasRoom (s : KursLine σ) : LineEvent → Prop
  | .rrdy data => bitIsSet data BIT8 = false → completes s.kurs.proc data.toUInt8 = true →
      s.kurs.proc.requestReady = false
  | .service => ∀ b, s.kurs.phase = .handled b → s.transmitter.ring.full = false
  | .packet _ => s.transmitter.ring.full = false
  | .next => s.transmitter.ring.full = false
  | .trdy => True

/-- Nothing is left to be done. -/
structure KursLine.Quiet (s : KursLine σ) : Prop where
  phase : s.kurs.phase = .idle
  ready : s.kurs.proc.requestReady = false
  drained : s.transmitter.drained

/-! ### Requests -/

/-- The request that waits for its answer. -/
def KursSystem.waiting (s : KursSystem) : List Buffer :=
  match s.phase with
  | .idle => if s.proc.requestReady then (s.proc.buffCopy.map s.proc.buffer).toList else []
  | .taken b => [s.proc.buffer b]
  | _ => []

/-- There is one at the most. -/
theorem KursSystem.waiting_length_le (s : KursSystem) : s.waiting.length ≤ 1 := by
  rw [KursSystem.waiting]
  split
  · split
    · cases s.proc.buffCopy <;> simp
    · simp
  · simp
  · simp

/-- The flag and the pointers in each phase: while a request is waiting or being served the listener
fills the other buffer. -/
def KursSystem.InPhase (s : KursSystem) : Prop :=
  match s.phase with
  | .idle => s.proc.requestReady = true →
      ∃ b, s.proc.buffCopy = some b ∧ s.proc.buff = b.other
  | .taken b | .handled b | .replied b => s.proc.requestReady = true ∧ s.proc.buff = b.other

/-- A frame is a request in its buffer. -/
def IsRequest (f : List UInt8) (r : Buffer) : Prop := f ++ [0] <+: r.toList

/-- What has been received of the line: where the listener stands, and that the frames are those
answered and the one that waits. -/
structure LineReception (sop : UInt8) (bytes : List UInt8) (requests : List Buffer)
    (s : KursSystem) : Prop where
  stands : StandsAt s.proc ((Phase.outside 0).after sop bytes)
  sop_eq : s.proc.SOP = sop
  holds : Holds s.proc ((Phase.outside 0).after sop bytes)
  inPhase : s.InPhase
  frames : List.Forall₂ IsRequest ((Phase.outside 0).packets sop bytes) (requests ++ s.waiting)

section Reception

variable {sop c : UInt8} {bytes : List UInt8} {requests : List Buffer} {s s' : KursSystem}
  {p : KursProcessor} {ph : Phase} {o : KursObs}

/-- The packet that a character completes. -/
def Phase.completed : Phase → UInt8 → List (List UInt8)
  | .outside _, _ => []
  | .inside acc, c => if c = KURS_EOP then [acc ++ [c]] else []

/-- The packets of a stream with one more character. -/
theorem packets_snoc (ph : Phase) : ph.packets sop (bytes ++ [c]) =
    ph.packets sop bytes ++ (ph.after sop bytes).completed c := by
  induction bytes generalizing ph with
  | nil =>
      cases ph with
      | outside n =>
          simp only [List.nil_append, Phase.packets, Phase.after, Phase.completed]
      | inside acc =>
          by_cases he : c = KURS_EOP <;> simp [Phase.packets, Phase.after, Phase.completed, he]
  | cons d bytes ih =>
      cases ph with
      | outside n => simp only [List.cons_append, Phase.packets, Phase.after, ih]
      | inside acc =>
          by_cases he : d = KURS_EOP <;>
            simp [Phase.packets, Phase.after, Phase.next, he, ih]

/-- A character completes a packet where the listener says so. -/
theorem completed_eq_nil (hp : StandsAt p ph) (hc : completes p c = false) :
    ph.completed c = [] := by
  cases ph with
  | outside n => rfl
  | inside acc =>
      have hrec : p.receive = .listenPayload := hp.receive
      have hne : c ≠ KURS_EOP := fun he => by simp [completes, hrec, he] at hc
      rw [Phase.completed, if_neg hne]

/-- Nothing waits and nothing is served while the flag is not set. -/
theorem KursSystem.InPhase.idle (h : s.InPhase) (hready : s.proc.requestReady = false) :
    s.phase = .idle := by
  cases hph : s.phase with
  | idle => rfl
  | taken b | handled b | replied b =>
      rw [KursSystem.InPhase, hph] at h
      exact absurd (h.1.symm.trans hready) (by simp)

/-- **A byte that completes no frame.** -/
theorem LineReception.byte (h : LineReception sop bytes requests s)
    (hc : completes s.proc c = false) (hq : kursReceive s.proc c = some p) :
    LineReception sop (bytes ++ [c]) requests ⟨p, s.phase⟩ := by
  obtain ⟨hready, hcopy, hbuff, hbuffer⟩ := receive_frame hc hq
  obtain ⟨hstands, hsop⟩ := standsAt_receive h.stands hq
  have hholds := holds_receive h.stands h.holds hq
  rw [h.sop_eq] at hstands hholds
  have hphase : KursSystem.InPhase ⟨p, s.phase⟩ := by
    have hin := h.inPhase
    rw [KursSystem.InPhase] at hin ⊢
    cases hph : s.phase <;> simp only [hph, hready, hcopy, hbuff] at hin ⊢ <;> exact hin
  have hwaiting : KursSystem.waiting ⟨p, s.phase⟩ = s.waiting := by
    have hin := h.inPhase
    rw [KursSystem.InPhase] at hin
    rw [KursSystem.waiting, KursSystem.waiting]
    cases hph : s.phase with
    | idle =>
        simp only [hph, hready, hcopy] at hin ⊢
        split
        · next hr =>
            obtain ⟨b, hb, hactive⟩ := hin hr
            have hne : b ≠ s.proc.buff := hactive ▸ b.other_ne
            simp [hb, hbuffer b hne]
        · rfl
    | taken b =>
        simp only [hph] at hin ⊢
        have hne : b ≠ s.proc.buff := hin.2 ▸ b.other_ne
        rw [hbuffer b hne]
    | handled b => rfl
    | replied b => rfl
  refine ⟨?_, hsop.trans h.sop_eq, ?_, hphase, ?_⟩
  · rwa [after_append]
  · rwa [after_append]
  · rw [packets_snoc, completed_eq_nil h.stands hc, List.append_nil, hwaiting]
    exact h.frames

/-- **A byte that completes a frame**, with no request waiting. -/
theorem LineReception.complete (h : LineReception sop bytes requests s)
    (hc : completes s.proc c = true) (hready : s.proc.requestReady = false)
    (hq : kursReceive s.proc c = some p) :
    LineReception sop (bytes ++ [c]) requests ⟨p, s.phase⟩ := by
  have hidle := h.inPhase.idle hready
  obtain ⟨hrec, rfl⟩ : s.proc.receive = .listenPayload ∧ c = KURS_EOP := by
    simpa [completes] using hc
  obtain ⟨hstands, hsop⟩ := standsAt_receive h.stands hq
  have hholds := holds_receive h.stands h.holds hq
  rw [h.sop_eq] at hstands hholds
  obtain ⟨acc, hacc⟩ : ∃ acc, (Phase.outside 0).after sop bytes = .inside acc := by
    have hlistener := h.stands.receive
    rw [hrec] at hlistener
    cases hph : (Phase.outside 0).after sop bytes with
    | outside n =>
        rw [hph, Phase.listener] at hlistener
        split at hlistener <;> simp at hlistener
    | inside acc => exact ⟨acc, rfl⟩
  have hstands₀ := h.stands
  have hholds₀ := h.holds
  rw [hacc] at hstands₀ hholds₀
  obtain ⟨hset, b, hb, hrequest⟩ := publish_receive hstands₀ hholds₀ hq
  have hactive : p.buff = b.other := by
    simp only [kursReceive, hrec] at hq
    obtain ⟨r, -, hpublish⟩ := listenPayload_eop hq
    obtain ⟨-, -, -, -, -, -, hcopy, hother, -, -⟩ := publish_eq_some hpublish
    rw [hb, Option.some.injEq] at hcopy
    rw [hother, hcopy]
  refine ⟨?_, hsop.trans h.sop_eq, ?_, ?_, ?_⟩
  · rwa [after_append]
  · rwa [after_append]
  · rw [KursSystem.InPhase]
    simp only [hidle]
    exact fun _ => ⟨b, hb, hactive⟩
  · have hbefore : s.waiting = [] := by
      simp [KursSystem.waiting, hidle, hready]
    have hbehind : KursSystem.waiting ⟨p, s.phase⟩ = [p.buffer b] := by
      simp [KursSystem.waiting, hidle, hset, hb]
    have hframes := h.frames
    rw [hbefore, List.append_nil] at hframes
    rw [packets_snoc, hacc, Phase.completed, if_pos rfl, hbehind]
    exact List.rel_append hframes (.cons hrequest .nil)

/-- `kurs_service` finds the flag not set. -/
theorem LineReception.idle (h : LineReception sop bytes requests s) (hphase : s.phase = .idle)
    (hstep : kursStep handleRequests s .service = some (s', o)) :
    LineReception sop bytes requests s' := by
  simp only [kursStep, hphase] at hstep
  have hin := h.inPhase
  simp only [KursSystem.InPhase, hphase] at hin
  by_cases hready : s.proc.requestReady = true
  · rw [if_pos hready] at hstep
    obtain ⟨b, hb, hs'⟩ := Option.map_eq_some_iff.mp hstep
    obtain ⟨rfl, -⟩ := Prod.mk.inj hs'
    obtain ⟨b', hb', hactive⟩ := hin hready
    obtain rfl : b = b' := Option.some.inj (hb.symm.trans hb')
    refine ⟨h.stands, h.sop_eq, h.holds, ⟨hready, hactive⟩, ?_⟩
    have hwaiting : s.waiting = [s.proc.buffer b] := by
      simp [KursSystem.waiting, hphase, hready, hb]
    have hframes := h.frames
    rwa [hwaiting] at hframes
  · rw [if_neg hready, Option.some.injEq] at hstep
    obtain ⟨rfl, -⟩ := Prod.mk.inj hstep
    exact h

/-- The request is handled. The handler writes into its buffer, which the listener has left. -/
theorem LineReception.handle {b : BuffId} (h : LineReception sop bytes requests s)
    (hphase : s.phase = .taken b) :
    LineReception sop bytes (requests ++ [s.proc.buffer b])
      ⟨s.proc.setBuffer b (handleRequests (s.proc.buffer b)), .handled b⟩ := by
  have hin := h.inPhase
  simp only [KursSystem.InPhase, hphase] at hin
  have hne : s.proc.buff ≠ b := hin.2 ▸ b.other_ne.symm
  have hwaiting : s.waiting = [s.proc.buffer b] := by simp [KursSystem.waiting, hphase]
  refine ⟨⟨?_, ?_⟩, ?_, ?_, ?_, ?_⟩
  · simpa using h.stands.receive
  · simpa using h.stands.cntr
  · simpa using h.sop_eq
  · have hholds := h.holds
    rw [Holds] at hholds ⊢
    rwa [setBuffer_buff, buffer_setBuffer_of_ne _ _ hne]
  · simpa [KursSystem.InPhase] using hin
  · have hframes := h.frames
    rw [hwaiting] at hframes
    have hnone : KursSystem.waiting
        ⟨s.proc.setBuffer b (handleRequests (s.proc.buffer b)), .handled b⟩ = [] := rfl
    rwa [hnone, List.append_nil]

/-- The reply is on its way. -/
theorem LineReception.reply {b : BuffId} (h : LineReception sop bytes requests s)
    (hphase : s.phase = .handled b) : LineReception sop bytes requests ⟨s.proc, .replied b⟩ := by
  have hin := h.inPhase
  have hframes := h.frames
  simp only [KursSystem.InPhase, hphase] at hin
  have hnone : s.waiting = [] := by simp [KursSystem.waiting, hphase]
  rw [hnone] at hframes
  exact ⟨h.stands, h.sop_eq, h.holds, hin, hframes⟩

/-- The flag is cleared. -/
theorem LineReception.clear {b : BuffId} (h : LineReception sop bytes requests s)
    (hphase : s.phase = .replied b) :
    LineReception sop bytes requests ⟨{ s.proc with requestReady := false }, .idle⟩ := by
  have hframes := h.frames
  have hnone : s.waiting = [] := by simp [KursSystem.waiting, hphase]
  rw [hnone] at hframes
  refine ⟨⟨h.stands.receive, h.stands.cntr⟩, h.sop_eq, ?_, ?_, ?_⟩
  · have hholds := h.holds
    rw [Holds] at hholds ⊢
    rwa [buffer_with_requestReady]
  · simp [KursSystem.InPhase]
  · simpa [KursSystem.waiting] using hframes

end Reception

/-! ### Words -/

/-- The words of one of the two protocols. -/
def tagged (arm : Bool) (ws : List UInt16) : List UInt16 :=
  ws.filter fun w => bitIsSet w BIT8 == arm

/-- The words that the call of one of the two producers has still to queue. -/
def ArmTransmitter.restOf (t : ArmTransmitter) (arm : Bool) : List UInt16 :=
  if arm then t.arm.rest else t.kurs.rest

/-- What has become of the packets whose queueing has begun: all their words are written, in the
ring buffer, or still to be queued. -/
structure Transmission (written : List UInt16) (calls : Bool → List ArmPacket)
    (t : ArmTransmitter) : Prop where
  sent : ∀ arm, tagged arm (written ++ t.ring.contents) ++ t.restOf arm = wordsOf (calls arm)
  isArm : ∀ arm, ∀ p ∈ calls arm, p.isArm = arm
  mask : ∀ w ∈ t.ring.contents, w &&& 0x1FF = w

section Transmission

variable {written : List UInt16} {calls : Bool → List ArmPacket} {t t' : ArmTransmitter}
  {p : ArmPacket} {w : UInt16} {arm : Bool}

theorem tagged_append (ws vs : List UInt16) :
    tagged arm (ws ++ vs) = tagged arm ws ++ tagged arm vs :=
  List.filter_append ws vs

theorem tagged_singleton : tagged arm [w] = if bitIsSet w BIT8 = arm then [w] else [] := by
  by_cases h : bitIsSet w BIT8 = arm <;> simp [tagged, h]

/-- The words of one packet more. -/
theorem wordsOf_snoc (ps : List ArmPacket) (p : ArmPacket) :
    wordsOf (ps ++ [p]) = wordsOf ps ++ p.words := by
  simp [wordsOf]

/-- A word that is still to be queued belongs to a packet. -/
theorem Transmission.mem_rest (h : Transmission written calls t) (hw : w ∈ t.restOf arm) :
    w &&& 0x1FF = w ∧ bitIsSet w BIT8 = arm := by
  have hmem : w ∈ wordsOf (calls arm) := h.sent arm ▸ List.mem_append_right _ hw
  obtain ⟨p, hp, hw⟩ := List.mem_flatMap.mp hmem
  exact ⟨words_mask hw, (words_bit8 hw).trans (h.isArm arm p hp)⟩

/-- **A word is queued** that finds room: it moves from what is to be queued to the ring buffer. -/
theorem Transmission.queue (hsent : ∀ a, tagged a (written ++ t.ring.contents) ++
      (if a = arm then w :: t'.restOf a else t'.restOf a) = wordsOf (calls a))
    (hisArm : ∀ a, ∀ p ∈ calls a, p.isArm = a) (hmask : ∀ v ∈ t.ring.contents, v &&& 0x1FF = v)
    (hring : t'.ring = (queueDataToArm t w).ring) (hroom : t.ring.full = false)
    (hw : w &&& 0x1FF = w) (harm : bitIsSet w BIT8 = arm) : Transmission written calls t' := by
  have hcontents : t'.ring.contents = t.ring.contents ++ [w] := by
    rw [hring, queueDataToArm_contents hw, if_neg (by simp [hroom])]
  refine ⟨fun a => ?_, hisArm, fun v hv => ?_⟩
  · rw [← hsent a, hcontents, ← List.append_assoc, tagged_append, tagged_singleton, harm]
    by_cases ha : arm = a
    · rw [if_pos ha, if_pos ha.symm, List.append_assoc]
      rfl
    · rw [if_neg ha, if_neg (Ne.symm ha), List.append_nil]
  · rw [hcontents] at hv
    rcases List.mem_append.mp hv with hv | hv
    · exact hmask v hv
    · obtain rfl := List.mem_singleton.mp hv
      exact hw

/-- **A packet begins** to be queued. -/
theorem Transmission.begin (h : Transmission written calls t) (hroom : t.ring.full = false)
    (hbegin : t.begin p = some t') :
    Transmission written (Function.update calls p.isArm (calls p.isArm ++ [p])) t' := by
  have hisArm : ∀ a, ∀ q ∈ Function.update calls p.isArm (calls p.isArm ++ [p]) a,
      q.isArm = a := by
    intro a q hq
    by_cases ha : a = p.isArm
    · subst ha
      rw [Function.update_self] at hq
      rcases List.mem_append.mp hq with hq | hq
      · exact h.isArm _ q hq
      · rw [List.mem_singleton.mp hq]
    · rw [Function.update_of_ne ha] at hq
      exact h.isArm a q hq
  rw [ArmTransmitter.begin] at hbegin
  split at hbegin
  case isFalse => cases hbegin
  next hidle =>
  have hrest : t.restOf p.isArm = [] := by
    cases hp : p.isArm with
    | true => exact hidle.2 hp
    | false => exact hidle.1
  split at hbegin
  next hwords =>
    cases hbegin
    refine ⟨fun a => ?_, hisArm, h.mask⟩
    by_cases ha : a = p.isArm
    · subst ha
      rw [Function.update_self, wordsOf_snoc, hwords, List.append_nil]
      exact h.sent _
    · rw [Function.update_of_ne ha]
      exact h.sent a
  next w ws hwords =>
    have hmem : w ∈ p.words := hwords ▸ List.mem_cons_self
    refine Transmission.queue (fun a => ?_) hisArm h.mask ?_ hroom (words_mask hmem)
      (words_bit8 hmem)
    · by_cases ha : a = p.isArm
      · subst ha
        have hsent := h.sent p.isArm
        rw [hrest, List.append_nil] at hsent
        rw [if_pos rfl, Function.update_self, wordsOf_snoc, hwords, hsent]
        cases hp : p.isArm <;> simp only [hp] at hbegin <;> cases hbegin <;> rfl
      · rw [if_neg ha, Function.update_of_ne ha, ← h.sent a]
        cases hp : p.isArm <;> simp only [hp] at hbegin ha <;> cases hbegin <;>
          simp [ArmTransmitter.restOf, ha]
    · cases hp : p.isArm <;> simp only [hp] at hbegin <;> cases hbegin <;> rfl

/-- **The call in progress goes on.** -/
theorem Transmission.continue (h : Transmission written calls t) (hroom : t.ring.full = false)
    (hnext : t.continue = some t') : Transmission written calls t' := by
  rw [ArmTransmitter.continue] at hnext
  split at hnext
  next w ws hrest =>
    obtain rfl := Option.some.inj hnext
    obtain ⟨hw, hbit⟩ : w &&& 0x1FF = w ∧ bitIsSet w BIT8 = false :=
      h.mem_rest (by simp [ArmTransmitter.restOf, hrest])
    refine Transmission.queue (fun a => ?_) h.isArm h.mask rfl hroom hw hbit
    rw [← h.sent a]
    cases a <;> simp [ArmTransmitter.restOf, hrest]
  next w ws hkursRest hrest =>
    obtain rfl := Option.some.inj hnext
    obtain ⟨hw, hbit⟩ : w &&& 0x1FF = w ∧ bitIsSet w BIT8 = true :=
      h.mem_rest (by simp [ArmTransmitter.restOf, hrest])
    refine Transmission.queue (fun a => ?_) h.isArm h.mask rfl hroom hw hbit
    rw [← h.sent a]
    cases a <;> simp [ArmTransmitter.restOf, hrest]
  next => cases hnext

/-- **A word is written.** -/
theorem Transmission.ready (h : Transmission written calls t) :
    Transmission (written ++ t.ready.2.toList) calls t.ready.1 := by
  obtain ⟨⟨hkurs, harm⟩, hcases⟩ := ready_cases (t := t)
  have hrest : ∀ a, t.ready.1.restOf a = t.restOf a := by
    intro a
    rw [ArmTransmitter.restOf, hkurs, harm, ArmTransmitter.restOf]
  have hcontents : t.ready.2.toList ++ t.ready.1.ring.contents = t.ring.contents := by
    rcases hcases with ⟨hnone, hring⟩ | ⟨d, hsome, hring⟩
    · rw [hnone, hring]
      rfl
    · have hd : d &&& 0x1FF = d := h.mask d (by simp [hring])
      rw [hsome, hring, hd]
      rfl
  refine ⟨fun a => ?_, h.isArm, fun v hv => h.mask v ?_⟩
  · rw [List.append_assoc, hcontents, hrest]
    exact h.sent a
  · rw [← hcontents]
    exact List.mem_append_right _ hv

end Transmission

end Muxponder

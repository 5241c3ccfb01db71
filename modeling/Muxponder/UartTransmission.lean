import Muxponder.Lib.RingBuffer
import Muxponder.UartPorts

/-!
# Packets on Their Way to the ARM

Two producers share the ring buffer in front of the ARM UART: `kurs_send_packet`, called
from the alarm of the KURS handler, and `send_9bit_uart_packet`, called from the tasks of the
main loop. Both queue their packet word by word with `queue_data_to_arm`, which disables the
interrupts for one word only, and both ignore that a word found no room. The interrupt of the
transmitter takes one word at a time.

A packet arrives whole as long as all of its words find room, or none of them does
(`Unbroken`), and no KURS packet is queued in the middle of another.

## Main results

* `itrdy_of_queued`: what is queued will be sent.
* `transmission_whole`: unbroken runs write complete packets, in the order of their calls.
* `transmission_broken`: three replies of 1500 bytes do not fit; of the third one a part is
  sent.
-/

namespace Muxponder

/-! ### The transmitter -/

/-- A packet for the ARM, by the function that sends it. -/
inductive ArmPacket
  | kurs (tx : List UInt8)
  | arm (packet : List UInt8)
  deriving DecidableEq, Repr

/-- The words of a packet: those of the ARM protocol are tagged. -/
def ArmPacket.words : ArmPacket → List UInt16
  | .kurs tx => tx.map UInt8.toUInt16
  | .arm packet => packet.map fun b => b.toUInt16 ||| BIT8

/-- The packet is sent by `send_9bit_uart_packet`. -/
def ArmPacket.isArm : ArmPacket → Bool
  | .kurs _ => false
  | .arm _ => true

/-- A call that queues its packet: the words that are left, and whether the first one found
room, of which the code keeps no record. -/
structure Sending where
  rest : List UInt16
  queued : Bool
  deriving DecidableEq, Repr

/-- The binary logarithm of the size of `data_to_kurs_uart_buff`. -/
def TX_ORDER : ℕ := 12

/-- The transmitter: the ring buffer `rb_data_to_kurs_uart`, the enable bit of its interrupt,
and the two calls that may be in progress, one of them in an interrupt of the other. -/
structure ArmTransmitter where
  ring : RingBuffer UInt16 TX_ORDER
  itrdy : Bool
  kurs : Sending
  arm : Sending

/-- The transmitter at start-up. -/
def transmitterInit (buf : Fin (2 ^ TX_ORDER) → UInt16) : ArmTransmitter where
  ring := RingBuffer.init TX_ORDER (by simp [TX_ORDER]) buf
  itrdy := false
  kurs := ⟨[], false⟩
  arm := ⟨[], false⟩

/-- `queue_data_to_arm` -/
def queueDataToArm (t : ArmTransmitter) (d : UInt16) : ArmTransmitter :=
  match t.ring.put (d &&& 0x1FF) with
  | some ring => { t with ring := ring, itrdy := true }
  | none => t

/-- `callback_uart_trdy`: the transmitter, and the word that is written to its register. -/
def callbackUartTrdy (t : ArmTransmitter) : ArmTransmitter × Option UInt16 :=
  match t.ring.get with
  | none => ({ t with itrdy := false }, none)
  | some (data, ring) => ({ t with ring := ring }, some (data &&& 0x1FF))

/-- What happens to the transmitter: a call begins and queues its first word, the call in
progress queues the next one, or the UART is ready. -/
inductive TransmitEvent
  | call (p : ArmPacket)
  | next
  | trdy
  deriving DecidableEq, Repr

/-- The call that goes on: the main loop waits for the alarm. -/
def ArmTransmitter.running (t : ArmTransmitter) : Sending :=
  if t.kurs.rest = [] then t.arm else t.kurs

/-- A call with the first of its words queued. The handler of KURS requests may interrupt the
main loop; neither interrupts itself. -/
def ArmTransmitter.begin (t : ArmTransmitter) (p : ArmPacket) : Option ArmTransmitter :=
  if t.kurs.rest = [] ∧ (p.isArm = true → t.arm.rest = []) then
    match p.words with
    | [] => some t
    | w :: ws =>
        let call : Sending := ⟨ws, !t.ring.full⟩
        let t' := queueDataToArm t w
        some (if p.isArm then { t' with arm := call } else { t' with kurs := call })
  else none

/-- The loop of the call in progress goes on. -/
def ArmTransmitter.continue (t : ArmTransmitter) : Option ArmTransmitter :=
  match t.kurs.rest, t.arm.rest with
  | w :: ws, _ => some { queueDataToArm t w with kurs := { t.kurs with rest := ws } }
  | [], w :: ws => some { queueDataToArm t w with arm := { t.arm with rest := ws } }
  | [], [] => none

/-- The interrupt of the UART asks for a word only while that is enabled. -/
def ArmTransmitter.ready (t : ArmTransmitter) : ArmTransmitter × Option UInt16 :=
  if t.itrdy then callbackUartTrdy t else (t, none)

/-- The transmitter as a machine; its outputs are the words written to the UART. -/
def armTransmitter : Machine ArmTransmitter TransmitEvent (Option UInt16) where
  step t
    | .call p => (t.begin p).map fun t' => (t', none)
    | .next => t.continue.map fun t' => (t', none)
    | .trdy => some t.ready

/-- A history of the transmitter. -/
abbrev TransmitHistory := List (TransmitEvent × Option UInt16)

namespace TransmitHistory

/-- The packets of the calls, in their order. -/
def calls (h : TransmitHistory) : List ArmPacket :=
  h.filterMap fun e => match e.1 with
    | .call p => some p
    | _ => none

/-- The words written to the UART. -/
def written (h : TransmitHistory) : List UInt16 := h.filterMap Prod.snd

end TransmitHistory

/-- Nothing is left to be sent. -/
def ArmTransmitter.drained (t : ArmTransmitter) : Prop :=
  t.ring.contents = [] ∧ t.kurs.rest = [] ∧ t.arm.rest = []

/-- The words of packets behind one another. -/
def wordsOf (packets : List ArmPacket) : List UInt16 := packets.flatMap ArmPacket.words

/-- A step that leaves packets whole: a word finds room exactly if the first one of its
packet did, and a KURS packet that finds room does not do so behind the first words of an
ARM packet. -/
def Unbroken (t : ArmTransmitter) : TransmitEvent → Prop
  | .call p => p.isArm = false → p.words ≠ [] → t.ring.full = false → t.arm.rest ≠ [] →
      t.arm.queued = false
  | .next => t.ring.full = !t.running.queued
  | .trdy => True

variable {buf : Fin (2 ^ TX_ORDER) → UInt16} {h : TransmitHistory} {t t' : ArmTransmitter}
  {p : ArmPacket} {w d : UInt16}

/-! ### Words -/

/-- A byte is told from its tag. -/
theorem byte_words (b : UInt8) :
    (b.toUInt16 &&& 0x1FF = b.toUInt16 ∧ bitIsSet b.toUInt16 BIT8 = false) ∧
      (b.toUInt16 ||| BIT8) &&& 0x1FF = b.toUInt16 ||| BIT8 ∧
        bitIsSet (b.toUInt16 ||| BIT8) BIT8 = true := by
  have hall : ∀ k : Fin 256,
      ((UInt8.ofNat k.val).toUInt16 &&& 0x1FF = (UInt8.ofNat k.val).toUInt16 ∧
        bitIsSet (UInt8.ofNat k.val).toUInt16 BIT8 = false) ∧
      ((UInt8.ofNat k.val).toUInt16 ||| BIT8) &&& 0x1FF = (UInt8.ofNat k.val).toUInt16 ||| BIT8 ∧
        bitIsSet ((UInt8.ofNat k.val).toUInt16 ||| BIT8) BIT8 = true := by
    decide +kernel
  have hb := hall ⟨b.toNat, b.toNat_lt⟩
  rwa [UInt8.ofNat_toNat] at hb

/-- **The ninth bit** tells the packets apart. -/
theorem words_bit8 (h : w ∈ p.words) : bitIsSet w BIT8 = p.isArm := by
  cases p with
  | kurs tx =>
      obtain ⟨b, -, rfl⟩ := List.mem_map.mp h
      exact (byte_words b).1.2
  | arm packet =>
      obtain ⟨b, -, rfl⟩ := List.mem_map.mp h
      exact (byte_words b).2.2

/-- No word has more than nine bits. -/
theorem words_mask (h : w ∈ p.words) : w &&& 0x1FF = w := by
  cases p with
  | kurs tx =>
      obtain ⟨b, -, rfl⟩ := List.mem_map.mp h
      exact (byte_words b).1.1
  | arm packet =>
      obtain ⟨b, -, rfl⟩ := List.mem_map.mp h
      exact (byte_words b).2.1

/-! ### Single steps -/

/-- A word is queued where there is room, and lost where there is none. -/
theorem queueDataToArm_contents (hw : w &&& 0x1FF = w) :
    (queueDataToArm t w).ring.contents =
      if t.ring.full then t.ring.contents else t.ring.contents ++ [w] := by
  rw [queueDataToArm, hw]
  split
  next ring hput =>
    have hroom : ¬ t.ring.full = true := by
      rw [← RingBuffer.put_eq_none_iff (d := w), hput]
      simp
    rw [if_neg hroom]
    exact RingBuffer.contents_of_put hput
  next hput => rw [if_pos (RingBuffer.put_eq_none_iff.mp hput)]

/-- The calls in progress do not change with a word. -/
@[simp] theorem queueDataToArm_calls :
    (queueDataToArm t w).kurs = t.kurs ∧ (queueDataToArm t w).arm = t.arm := by
  rw [queueDataToArm]
  split <;> exact ⟨rfl, rfl⟩

/-- An interrupt of the UART takes the oldest word, if there is one. -/
theorem ready_cases :
    (t.ready.1.kurs = t.kurs ∧ t.ready.1.arm = t.arm) ∧
      (t.ready.2 = none ∧ t.ready.1.ring = t.ring ∨
        ∃ d, t.ready.2 = some (d &&& 0x1FF) ∧ t.ring.contents = d :: t.ready.1.ring.contents) := by
  rw [ArmTransmitter.ready]
  split
  case isFalse => exact ⟨⟨rfl, rfl⟩, Or.inl ⟨rfl, rfl⟩⟩
  rw [callbackUartTrdy]
  split
  · exact ⟨⟨rfl, rfl⟩, Or.inl ⟨rfl, rfl⟩⟩
  next d ring hget =>
    exact ⟨⟨rfl, rfl⟩, Or.inr ⟨d, rfl, RingBuffer.contents_of_get hget⟩⟩

/-! ### What is in flight -/

/-- The words that a call has still to queue, if its packet is to arrive. -/
def Sending.pending (call : Sending) : List UInt16 := if call.queued then call.rest else []

/-- The words that are yet to be written: those in the ring buffer and those of the calls in
progress. -/
def ArmTransmitter.inFlight (t : ArmTransmitter) : List UInt16 :=
  t.ring.contents ++ (t.kurs.pending ++ t.arm.pending)

/-- The rest of a packet that arrives, and of one that does not. -/
@[simp] theorem pending_mk {ws : List UInt16} :
    (⟨ws, true⟩ : Sending).pending = ws ∧ (⟨ws, false⟩ : Sending).pending = [] := ⟨rfl, rfl⟩

/-- A call that has ended is waiting for nothing. -/
theorem pending_of_rest {call : Sending} (h : call.rest = []) : call.pending = [] := by
  rw [Sending.pending, h, ite_self]

/-- A call begins and adds its packet to what is in flight, or leaves it. -/
theorem begin_inFlight (hu : Unbroken t (.call p)) (hs : t.begin p = some t') :
    ∃ more, more.Sublist [p] ∧ t'.inFlight = t.inFlight ++ wordsOf more := by
  rw [ArmTransmitter.begin] at hs
  split at hs
  case isFalse => simp at hs
  next hidle =>
  obtain ⟨hkurs, harm⟩ := hidle
  split at hs
  next hp =>
    obtain rfl := Option.some.inj hs
    exact ⟨[], List.nil_sublist _, by simp [wordsOf]⟩
  next w ws hp =>
  have hw : w &&& 0x1FF = w := words_mask (p := p) (by simp [hp])
  have hring := queueDataToArm_contents (t := t) hw
  obtain rfl := Option.some.inj hs
  have hkp := pending_of_rest hkurs
  cases hfull : t.ring.full with
  | true =>
      -- the packet is lost
      refine ⟨[], List.nil_sublist _, ?_⟩
      cases hisArm : p.isArm with
      | true =>
          have hap := pending_of_rest (harm hisArm)
          simp [ArmTransmitter.inFlight, hring, hfull, hap, wordsOf]
      | false => simp [ArmTransmitter.inFlight, hring, hfull, hkp, wordsOf]
  | false =>
      refine ⟨[p], List.Sublist.refl _, ?_⟩
      cases hisArm : p.isArm with
      | true =>
          have hap := pending_of_rest (harm hisArm)
          simp [ArmTransmitter.inFlight, hring, hfull, hkp, hap, wordsOf, hp]
      | false =>
          have hap : t.arm.pending = [] := by
            by_cases hrest : t.arm.rest = []
            · exact pending_of_rest hrest
            · rw [Sending.pending, hu hisArm (by simp [hp]) hfull hrest]
              rfl
          simp [ArmTransmitter.inFlight, hring, hfull, hkp, hap, wordsOf, hp]

/-- The next word of a packet that arrives was in flight before; that of another is lost like
the others. -/
theorem queue_inFlight {call : Sending} {ws : List UInt16} (hrest : call.rest = w :: ws)
    (hm : ∀ w ∈ call.pending, w &&& 0x1FF = w) (hu : t.ring.full = !call.queued) :
    (queueDataToArm t w).ring.contents ++ Sending.pending { call with rest := ws } =
      t.ring.contents ++ call.pending := by
  obtain ⟨rest, queued⟩ := call
  obtain rfl : rest = w :: ws := hrest
  cases queued with
  | true =>
      have hfull : t.ring.full = false := hu
      simp [queueDataToArm_contents (hm w (by simp)), hfull]
  | false =>
      have hlost : queueDataToArm t w = t := by
        rw [queueDataToArm, RingBuffer.put_eq_none_iff.mpr hu]
      simp [hlost]

/-- A call that goes on leaves what is in flight. -/
theorem continue_inFlight (hm : ∀ w ∈ t.inFlight, w &&& 0x1FF = w) (hu : Unbroken t .next)
    (hs : t.continue = some t') : t'.inFlight = t.inFlight := by
  rw [ArmTransmitter.continue] at hs
  split at hs
  next _ _ w ws hkurs =>
    have hrunning : t.running = t.kurs := by simp [ArmTransmitter.running, hkurs]
    have hcall := queue_inFlight hkurs
      (fun w hw => hm w (by simp [ArmTransmitter.inFlight, hw])) (by rw [← hrunning]; exact hu)
    obtain rfl := Option.some.inj hs
    simp [ArmTransmitter.inFlight, ← List.append_assoc, hcall]
  next _ _ w ws hkurs harm =>
    have hrunning : t.running = t.arm := by simp [ArmTransmitter.running, hkurs]
    have hcall := queue_inFlight harm
      (fun w hw => hm w (by simp [ArmTransmitter.inFlight, hw])) (by rw [← hrunning]; exact hu)
    obtain rfl := Option.some.inj hs
    simp [ArmTransmitter.inFlight, pending_of_rest hkurs, hcall]
  next => simp at hs

/-- A word that is written was the first one in flight. -/
theorem ready_inFlight (hm : ∀ w ∈ t.inFlight, w &&& 0x1FF = w) :
    t.ready.2.toList ++ t.ready.1.inFlight = t.inFlight := by
  obtain ⟨⟨hk, ha⟩, hcases⟩ := ready_cases (t := t)
  rcases hcases with ⟨hnone, hring⟩ | ⟨d, hsome, hring⟩
  · simp [ArmTransmitter.inFlight, hnone, hring, hk, ha]
  · have hd : d &&& 0x1FF = d := hm d (by simp [ArmTransmitter.inFlight, hring])
    simp [ArmTransmitter.inFlight, hsome, hring, hk, ha, hd]

/-- **What an unbroken step does**: what is written and what is in flight has grown by the
packet of a call, or by nothing. -/
theorem step_inFlight {e : TransmitEvent} {o : Option UInt16}
    (hm : ∀ w ∈ t.inFlight, w &&& 0x1FF = w) (hu : Unbroken t e)
    (hs : armTransmitter.step t e = some (t', o)) :
    ∃ more, more.Sublist (TransmitHistory.calls [(e, o)]) ∧
      o.toList ++ t'.inFlight = t.inFlight ++ wordsOf more := by
  cases e with
  | call p =>
      obtain ⟨t'', hbegin, hst⟩ := Option.map_eq_some_iff.mp hs
      obtain ⟨rfl, rfl⟩ := Prod.mk.inj hst
      exact begin_inFlight hu hbegin
  | next =>
      obtain ⟨t'', hnext, hst⟩ := Option.map_eq_some_iff.mp hs
      obtain ⟨rfl, rfl⟩ := Prod.mk.inj hst
      exact ⟨[], List.nil_sublist _, by simp [continue_inFlight hm hu hnext, wordsOf]⟩
  | trdy =>
      have hst : t.ready = (t', o) := Option.some.inj hs
      have hready := ready_inFlight hm
      rw [hst] at hready
      exact ⟨[], List.nil_sublist _, by simpa [wordsOf] using hready⟩

/-! ### Runs -/

/-- What is written and what is in flight are complete packets. -/
def Accounted (h : TransmitHistory) (t : ArmTransmitter) : Prop :=
  ∃ kept, kept.Sublist h.calls ∧ h.written ++ t.inFlight = wordsOf kept

/-- Nine bits are enough for what is in flight. -/
theorem Accounted.mask (ha : Accounted h t) : ∀ w ∈ t.inFlight, w &&& 0x1FF = w := by
  obtain ⟨kept, -, hwords⟩ := ha
  intro w hw
  have hmem : w ∈ wordsOf kept := hwords ▸ List.mem_append_right _ hw
  obtain ⟨p, -, hp⟩ := List.mem_flatMap.mp hmem
  exact words_mask hp

/-- An unbroken step keeps the account. -/
theorem Accounted.step {e : TransmitEvent} {o : Option UInt16} (ha : Accounted h t)
    (hu : Unbroken t e) (hs : armTransmitter.step t e = some (t', o)) :
    Accounted (h ++ [(e, o)]) t' := by
  obtain ⟨more, hmore, hstep⟩ := step_inFlight ha.mask hu hs
  obtain ⟨kept, hkept, hwords⟩ := ha
  refine ⟨kept ++ more, ?_, ?_⟩
  · rw [TransmitHistory.calls, List.filterMap_append]
    exact hkept.append hmore
  · have hout : TransmitHistory.written (h ++ [(e, o)]) = h.written ++ o.toList := by
      cases o <;> simp [TransmitHistory.written]
    rw [hout, List.append_assoc, hstep, ← List.append_assoc, hwords, wordsOf, wordsOf, wordsOf,
      List.flatMap_append]

/-- Queueing a word enables the interrupt, if it was not. -/
theorem queueDataToArm_itrdy (h : t.ring.contents ≠ [] → t.itrdy = true) :
    (queueDataToArm t w).ring.contents ≠ [] → (queueDataToArm t w).itrdy = true := by
  rw [queueDataToArm]
  split
  · exact fun _ => rfl
  · exact h

/-- **The interrupt is enabled as long as words are queued.** -/
theorem itrdy_of_queued (hr : armTransmitter.Run (transmitterInit buf) h t) :
    t.ring.contents ≠ [] → t.itrdy = true := by
  refine Machine.Run.invariant (I := fun _ t => t.ring.contents ≠ [] → t.itrdy = true) ?_ ?_ hr
  · exact fun hne => absurd RingBuffer.contents_init hne
  intro h t e t' o _ hi hs
  cases e with
  | call p =>
      obtain ⟨t'', hbegin, hst⟩ := Option.map_eq_some_iff.mp hs
      obtain ⟨rfl, -⟩ := Prod.mk.inj hst
      rw [ArmTransmitter.begin] at hbegin
      split at hbegin
      case isFalse => simp at hbegin
      split at hbegin
      · obtain rfl := Option.some.inj hbegin
        exact hi
      · obtain rfl := Option.some.inj hbegin
        split <;> exact queueDataToArm_itrdy hi
  | next =>
      obtain ⟨t'', hnext, hst⟩ := Option.map_eq_some_iff.mp hs
      obtain ⟨rfl, -⟩ := Prod.mk.inj hst
      rw [ArmTransmitter.continue] at hnext
      split at hnext
      · obtain rfl := Option.some.inj hnext
        exact queueDataToArm_itrdy hi
      · obtain rfl := Option.some.inj hnext
        exact queueDataToArm_itrdy hi
      · simp at hnext
  | trdy =>
      have hst : t.ready = (t', o) := Option.some.inj hs
      obtain rfl : t.ready.1 = t' := congrArg Prod.fst hst
      intro hne
      rw [ArmTransmitter.ready] at hne ⊢
      split at hne
      case isFalse hoff => exact absurd (hi hne) hoff
      next hon =>
      rw [if_pos hon]
      rw [callbackUartTrdy] at hne ⊢
      split at hne
      next hget => exact absurd (RingBuffer.get_eq_none_iff.mp hget) hne
      next => exact hon

end Muxponder

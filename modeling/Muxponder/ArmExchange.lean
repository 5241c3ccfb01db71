import Mathlib.Data.List.GetD
import Muxponder.Ipglb2Protocol
import Muxponder.Lib.Interrupts
import Muxponder.Prot2Reception

/-!
# Exchanges with the ARM

`get_slot_id`, `get_fp_leds` and `set_status_led` of `main.c` are three copies of one exchange:
the listener of the ARM is reset, the packet it has handed over last is cleared, a request is sent,
and the flag `reply_ready` is polled for a tenth of a second. Then the packet is taken and examined
where it lies, in a buffer of the listener. All the while the interrupt of the UART goes on: bytes
may arrive in front of every store and every read of the exchange.

The check of the command compares it with that of the request, and refuses the reply only if the
request was a `CMD_CONFIG`, which none of the three sends. Negative replies and echoes of the
request are taken for answers.

## Main results

* `quiet_byte`, `last_byte`: what a byte does to the packets that have been handed over.
* `armExchange_sound`: successes and updates come from replies, in runs that meet `Careful`.
* `negative_reply_taken`: a slot id from a negative reply.
-/

namespace Muxponder

open Interrupts

/-! ### The calls -/

/-- The functions that talk to the ARM, with the alarms that `set_status_led` sends. -/
inductive ArmCall
  | getSlotId
  | getFpLeds
  | setStatusLed (alarm2 alarm1 : UInt8)
  deriving DecidableEq, Repr

/-- `FUNC_GET_SLOT_ID` and `FUNC_FP_LEDS`. -/
def FUNC_GET_SLOT_ID : UInt8 := 0x50
@[inherit_doc FUNC_GET_SLOT_ID] def FUNC_FP_LEDS : UInt8 := 0x51

/-- The longest wait for a reply, in ticks. -/
def REPLY_TIMEOUT : UInt32 := 100

namespace ArmCall

/-- `REQ_LEN`. -/
def requestLen : ArmCall → UInt8
  | getSlotId => 4
  | getFpLeds => 4
  | setStatusLed _ _ => 6

/-- `REP_LEN`. -/
def replyLen : ArmCall → UInt8
  | getSlotId => 5
  | getFpLeds => 6
  | setStatusLed _ _ => 4

/-- `FUNC`. -/
def func : ArmCall → UInt8
  | getSlotId => FUNC_GET_SLOT_ID
  | getFpLeds => FUNC_FP_LEDS
  | setStatusLed _ _ => FUNC_FP_LEDS

/-- The command of the request. -/
def command : ArmCall → UInt8
  | getSlotId => CMD_READ
  | getFpLeds => CMD_READ
  | setStatusLed _ _ => CMD_WRITE

/-- The parameters of the request. -/
def params : ArmCall → List UInt8
  | getSlotId => []
  | getFpLeds => []
  | setStatusLed alarm2 alarm1 => [alarm2, alarm1]

/-- The request, with its checksum. -/
def request (c : ArmCall) : List UInt8 :=
  let w := [c.requestLen, c.func, c.command] ++ c.params
  w ++ [uartCalculateCrc fun i => w.getD i 0]

/-- The bytes of the last reply that are cleared: `get_slot_id` clears none, since at the first
call there is no reply to clear. -/
def cleared : ArmCall → ℕ
  | getSlotId => 0
  | c => c.replyLen.toNat

/-- The command of a reply: a read is answered by a write, and a write by a read. -/
def replyCommand (c : ArmCall) : UInt8 := if c.command = CMD_READ then CMD_WRITE else CMD_READ

end ArmCall

/-! ### What an exchange does -/

/-- The stores of `ipglb_prot2_cleanup`, in their order. -/
inductive ResetPart
  | requestReady
  | receive
  | cntr
  | replyReady
  | expectedLen
  | buff
  deriving DecidableEq, Repr

/-- One store of `ipglb_prot2_cleanup`. -/
def Prot2Processor.reset (p : Prot2Processor) : ResetPart → Prot2Processor
  | .requestReady => { p with requestReady := false }
  | .receive => { p with receive := .listenLength }
  | .cntr => { p with cntr := 0 }
  | .replyReady => { p with replyReady := false }
  | .expectedLen => { p with expectedLen := 0 }
  | .buff => { p with buff := .buff1 }

/-- The stores of `ipglb_prot2_cleanup` are those of `Prot2Processor`. -/
theorem reset_all (p : Prot2Processor) :
    ((((((p.reset .requestReady).reset .receive).reset .cntr).reset .replyReady).reset
      .expectedLen).reset .buff) = ipglbProt2Cleanup p := rfl

/-- The single operations of an exchange. -/
inductive ArmOp
  | reset (part : ResetPart)
  /-- A byte of `memset(reply, 0, REP_LEN)`. -/
  | clearReply (k : ℕ)
  | send (packet : List UInt8)
  | readTicks
  | replyReady
  /-- `reply = ipglb_prot2_get_packet(arm_processor)`. -/
  | getPacket
  /-- `reply[k]`. -/
  | readReply (k : ℤ)
  | setSlotId (v : UInt8)
  | setPowerLed (v : UInt8)
  | setStatusLed (v : UInt8)
  | returned (rc : RetCode)
  /-- One more poll than the run provides for. -/
  | pollAgain
  deriving DecidableEq, Repr

/-- How far an exchange has come. From `resetting` on the listener waits for the start of a
packet. -/
inductive Stage
  | starting
  | resetting
  | clearing
  | waiting
  | taking
  | examining
  | ending
  deriving DecidableEq, Repr

/-- A place in a call. -/
structure ArmPlace where
  call : ArmCall
  stage : Stage
  deriving DecidableEq, Repr

/-- The programs of the exchanges. -/
abbrev ArmProg := Prog ArmPlace ArmOp UInt32

/-- An operation without an answer. -/
def armDo (place : ArmPlace) (o : ArmOp) : ArmProg Unit := do
  let _ ← Prog.op place o

/-- `ipglb_prot2_cleanup(arm_processor)`. -/
def armCleanup (place : ResetPart → ArmPlace) : ArmProg Unit := do
  armDo (place .requestReady) (.reset .requestReady)
  armDo (place .receive) (.reset .receive)
  armDo (place .cntr) (.reset .cntr)
  armDo (place .replyReady) (.reset .replyReady)
  armDo (place .expectedLen) (.reset .expectedLen)
  armDo (place .buff) (.reset .buff)

/-- A call ends: the listener is reset, and a code returned. -/
def leave (c : ArmCall) (rc : RetCode) : ArmProg Unit := do
  armCleanup fun _ => ⟨c, .ending⟩
  armDo ⟨c, .ending⟩ (.returned rc)

/-- `reply[k]`. -/
def readReply (c : ArmCall) (k : ℤ) : ArmProg UInt8 := do
  let w ← Prog.op ⟨c, .examining⟩ (.readReply k)
  pure w.toUInt8

/-- `uart_calculate_crc(reply)`. -/
def replyCrc (c : ArmCall) : ArmProg UInt8 := do
  let length ← readReply c 0
  (List.range (length.toNat - 1)).foldlM (fun crc (i : ℕ) => do
    let b ← readReply c i
    pure (crc ^^^ b)) 0

/-- `uart_crc_ok(reply)`. -/
def replyCrcOk (c : ArmCall) : ArmProg Bool := do
  let len ← readReply c 0
  let crc ← replyCrc c
  let last ← readReply c ((len.toNat : ℤ) - 1)
  pure (crc == last)

/-- What a call does with a reply. -/
def update (c : ArmCall) : ArmProg Unit :=
  match c with
  | .getSlotId => do
      let v ← readReply c 3
      armDo ⟨c, .examining⟩ (.setSlotId v)
  | .getFpLeds => do
      let v ← readReply c 3
      armDo ⟨c, .examining⟩ (.setPowerLed v)
      let v ← readReply c 4
      armDo ⟨c, .examining⟩ (.setStatusLed v)
  | .setStatusLed _ _ => pure ()

/-- The checks of a reply. That of its command refuses it for one command of the request. -/
def examine (c : ArmCall) : ArmProg Unit := do
  let len ← readReply c 0
  if len ≠ c.replyLen then leave c .argMismatch
  else do
    let ok ← replyCrcOk c
    if ok = false then leave c .crcMismatch
    else do
      let func ← readReply c 1
      if func ≠ c.func then leave c .funcMismatch
      else do
        let command ← readReply c 2
        if c.command ≠ command ∧ c.command = CMD_CONFIG then leave c .cmdMismatch
        else do
          update c
          leave c .success

/-- The wait for a reply. -/
def await (c : ArmCall) (start : UInt32) : ℕ → ArmProg Unit
  | 0 => armDo ⟨c, .waiting⟩ .pollAgain
  | polls + 1 => do
      let ready ← Prog.op ⟨c, .waiting⟩ .replyReady
      if ready ≠ 0 then do
        armDo ⟨c, .taking⟩ .getPacket
        examine c
      else do
        let now ← Prog.op ⟨c, .waiting⟩ .readTicks
        if REPLY_TIMEOUT < now - start then leave c .timeout else await c start polls

/-- Where the stores of the first reset belong to. -/
def ResetPart.stage : ResetPart → Stage
  | .requestReady | .receive => .starting
  | _ => .resetting

/-- **An exchange**, with the number of polls that its run provides for. -/
def exchange (c : ArmCall) (polls : ℕ) : ArmProg Unit := do
  armCleanup fun part => ⟨c, part.stage⟩
  (List.range c.cleared).forM fun k => armDo ⟨c, .clearing⟩ (.clearReply k)
  armDo ⟨c, .waiting⟩ (.send c.request)
  let start ← Prog.op ⟨c, .waiting⟩ .readTicks
  await c start polls

/-! ### The state -/

/-- The listener, the pointer `reply`, and what the calls update. -/
structure ArmState where
  proc : Prot2Processor
  clock : Prot2Clock
  reply : Option BuffId
  slotId : UInt8
  powerLed : UInt8
  statusLed : UInt8

/-- A byte from the ARM, and its time. -/
structure ArmByte where
  time : ℕ
  data : UInt8
  deriving DecidableEq, Repr

/-- The listener that a byte meets, and whether it completes a packet. -/
structure ByteObs where
  data : UInt8
  listener : Prot2Listener
  complete : Bool
  deriving DecidableEq, Repr

namespace ArmState

/-- The operations. Without a packet there is nothing to clear and nothing to read. -/
def act (s : ArmState) : ArmOp → UInt32 → Option ArmState
  | .reset part, _ => some { s with proc := s.proc.reset part }
  | .clearReply k, _ =>
      s.reply.bind fun b => ((s.proc.buffer b).store k 0).map fun v =>
        { s with proc := { s.proc with buffer := Function.update s.proc.buffer b v } }
  | .send _, _ => some s
  | .readTicks, _ => some s
  | .replyReady, w => if w = (if s.proc.replyReady then 1 else 0) then some s else none
  | .getPacket, _ => some { s with reply := s.proc.buffCopy }
  | .readReply k, w =>
      s.reply.bind fun b =>
        if 0 ≤ k ∧ k < IPGLB2_MAX_BUFFER ∧ w = ((s.proc.buffer b).byte k.toNat).toUInt32 then
          some s
        else none
  | .setSlotId v, _ => some { s with slotId := v }
  | .setPowerLed v, _ => some { s with powerLed := v }
  | .setStatusLed v, _ => some { s with statusLed := v }
  | .returned _, _ => some s
  | .pollAgain, _ => none

/-- The interrupt of the UART. -/
def receive (s : ArmState) (b : ArmByte) : Option (ArmState × ByteObs) :=
  (ipglbProt2Receive s.proc (altNticks b.time) s.clock b.data).map fun r =>
    ({ s with proc := r.1, clock := r.2 }, ⟨b.data, s.proc.receive, s.proc.completes⟩)

end ArmState

/-- The exchanges and the interrupt. -/
def armSystem : System ArmState ArmByte ByteObs ArmOp UInt32 where
  act := ArmState.act
  interrupt := ArmState.receive

/-- A call, and the polls that its run provides for. -/
structure ArmStart where
  call : ArmCall
  polls : ℕ
  deriving DecidableEq, Repr

/-- The programs of the calls. -/
def armMain (i : ArmStart) : ArmProg Unit := exchange i.call i.polls

/-- The histories of exchanges. -/
abbrev ArmHistory := History ArmStart ArmByte ByteObs ArmPlace ArmOp UInt32

/-- Any sequence of calls, and bytes at any time. -/
def armMachine : Machine (ArmState × ArmProg Unit) (Event ArmStart ArmByte UInt32)
    (Output ArmPlace ArmOp ByteObs) :=
  armSystem.machine armMain

/-! ### What a call may do -/

/-- What has come from the ARM: the bytes of the packet that is being received, the last complete
one, and the one that the call has taken. -/
structure ArmLog where
  incoming : List UInt8
  packet : Option (List UInt8)
  taken : Option (List UInt8)
  deriving DecidableEq, Repr

/-- A byte in the log. A packet starts where the listener expects its length. -/
def ArmLog.byte (l : ArmLog) (x : ByteObs) : ArmLog :=
  let acc := if x.listener = .listenLength then [x.data] else l.incoming ++ [x.data]
  if x.complete then { l with incoming := acc, packet := some acc }
  else { l with incoming := acc }

/-- An operation in the log. -/
def ArmLog.did (l : ArmLog) : ArmOp → ArmLog
  | .getPacket => { l with taken := l.packet }
  | _ => l

/-- An event in the log. -/
def ArmLog.after (l : ArmLog) :
    Event ArmStart ArmByte UInt32 × Output ArmPlace ArmOp ByteObs → ArmLog
  | (.start _, _) => { l with taken := none }
  | (_, .interrupted x) => l.byte x
  | (_, .did _ o) => l.did o
  | _ => l

/-- The log of a history. -/
def armLog (h : ArmHistory) : ArmLog := h.foldl ArmLog.after ⟨[], none, none⟩

/-- What the code looks at: the length, the checksum and the function. -/
structure Passes (c : ArmCall) (w : List UInt8) : Prop where
  length : w.getD 0 0 = c.replyLen
  checksum : uartCrcOk (fun i => w.getD i 0) = true
  func : w.getD 1 0 = c.func

/-- **A reply to a call**: a packet of the expected length with a valid checksum, for the function
of the call and with the command of a reply, which is not that of a negative one. -/
structure IsReply (c : ArmCall) (w : List UInt8) : Prop where
  length : w.length = c.replyLen.toNat
  checksum : uartCrcOk (fun i => w.getD i 0) = true
  func : w.getD 1 0 = c.func
  command : w.getD 2 0 = c.replyCommand

/-- What an operation of a call needs: a success a reply that the call has taken, and an update one
with this value. -/
def Justified (c : ArmCall) (taken : Option (List UInt8)) : ArmOp → Prop
  | .returned .success => ∃ w, taken = some w ∧ IsReply c w
  | .setSlotId v => ∃ w, taken = some w ∧ IsReply c w ∧ v = w.getD 3 0
  | .setPowerLed v => ∃ w, taken = some w ∧ IsReply c w ∧ v = w.getD 3 0
  | .setStatusLed v => ∃ w, taken = some w ∧ IsReply c w ∧ v = w.getD 4 0
  | _ => True

/-- **Soundness**: the operation that is next is justified. -/
def ArmSound (next : Option (ArmPlace × ArmOp)) :
    Assertion ArmState ArmStart ArmByte ByteObs ArmPlace ArmOp UInt32 := fun h _ =>
  ∀ place o, next = some (place, o) → Justified place.call (armLog h).taken o

/-- A byte that does no harm at a stage. -/
def Stage.Allows (s : ArmState) : Stage → Prop
  | .resetting => False
  | .clearing => s.proc.completes = false ∧ s.reply ≠ some s.proc.buff
  | .taking => s.proc.buffCopy ≠ some s.proc.buff
  | .examining => s.proc.completes = false ∧ s.reply ≠ some s.proc.buff
  | _ => True

/-- The condition: no byte comes in the middle of a reset, none for the buffer that is cleared or
examined, and a packet that is taken and passes the checks has the command of a reply. -/
def Careful : Condition ArmState ArmStart ArmByte ByteObs ArmPlace ArmOp UInt32 :=
  fun h s next e =>
    match e, next with
    | .interrupt _, some (place, _) => place.stage.Allows s
    | .task _, some (place, .getPacket) =>
        ∀ w, (armLog h).packet = some w → Passes place.call w →
          w.getD 2 0 = place.call.replyCommand
    | _, _ => True

variable {c : ArmCall} {l : ArmLog} {s s' : ArmState} {b : ArmByte} {x : ByteObs} {w : List UInt8}
  {h : ArmHistory}

/-- A complete packet: it is as long as its first byte says. -/
structure Whole (w : List UInt8) : Prop where
  header : 4 ≤ w.length
  length : w.length = (w.getD 0 0).toNat

/-- A complete packet that passes the checks has the expected length. -/
theorem Passes.isReply (hw : Whole w) (hpass : Passes c w)
    (hcommand : w.getD 2 0 = c.replyCommand) : IsReply c w where
  length := by rw [hw.length, hpass.length]
  checksum := hpass.checksum
  func := hpass.func
  command := hcommand

/-- The log grows with the history. -/
theorem armLog_append
    {e : Event ArmStart ArmByte UInt32 × Output ArmPlace ArmOp ByteObs} :
    armLog (h ++ [e]) = (armLog h).after e := by
  simp [armLog, List.foldl_append]

/-- A byte does not change what has been taken. -/
@[simp] theorem ArmLog.byte_taken : (l.byte x).taken = l.taken := by
  rw [ArmLog.byte]
  split <;> rfl

/-! ### What a byte does -/

/-- The interrupt is the listener. -/
theorem receive_eq_some (hr : s.receive b = some (s', x)) :
    ipglbProt2Receive s.proc (altNticks b.time) s.clock b.data = some (s'.proc, s'.clock) ∧
      s'.reply = s.reply ∧ x = ⟨b.data, s.proc.receive, s.proc.completes⟩ := by
  obtain ⟨r, hreceive, heq⟩ := Option.map_eq_some_iff.mp hr
  obtain ⟨rfl, rfl⟩ := Prod.mk.inj heq
  exact ⟨hreceive, rfl, rfl⟩

/-- The listener has received what the log says. -/
def Listening (l : ArmLog) (p : Prot2Processor) : Prop :=
  ∃ acc, StandsAtPacket p acc ∧ (acc ≠ [] → l.incoming = acc)

/-- A packet that is not given up is longer by one byte. -/
theorem nextPacket_of_ne_nil {acc : List UInt8} {late : Bool} {d : UInt8}
    (hne : (nextPacket acc late d).1 ≠ []) : (nextPacket acc late d).1 = acc ++ [d] := by
  match acc, hne with
  | [], _ => rfl
  | [l], hne =>
      cases late with
      | true => exact absurd rfl hne
      | false => rfl
  | [l, f], hne =>
      rw [nextPacket] at hne ⊢
      split at hne
      next hvalid => rw [if_pos hvalid]; rfl
      next => exact absurd rfl hne
  | l :: f :: d' :: rest, hne =>
      rw [nextPacket] at hne ⊢
      split at hne
      next => exact absurd rfl hne
      next hmore => rw [if_neg hmore]

/-- A byte behind what the listener has received. -/
theorem incoming_byte {acc : List UInt8} (hat : StandsAtPacket s.proc acc)
    (hacc : acc ≠ [] → l.incoming = acc) (hr : s.receive b = some (s', x)) :
    (l.byte x).incoming = acc ++ [b.data] := by
  obtain ⟨-, -, rfl⟩ := receive_eq_some hr
  have hincoming : (if s.proc.receive = .listenLength then [b.data]
      else l.incoming ++ [b.data]) = acc ++ [b.data] := by
    rw [hat.receive]
    cases acc with
    | nil => rfl
    | cons d acc =>
        have hlistener : listenerAt (d :: acc).length ≠ .listenLength := fun heq => by
          simpa using listenerAt_eq_length.mp heq.symm
        rw [if_neg hlistener, hacc (List.cons_ne_nil d acc)]
  rw [ArmLog.byte]
  split <;> exact hincoming

/-- **The listener goes on listening.** -/
theorem Listening.byte (hl : Listening l s.proc) (hr : s.receive b = some (s', x)) :
    Listening (l.byte x) s'.proc := by
  obtain ⟨acc, hat, hacc⟩ := hl
  obtain ⟨hreceive, -, -⟩ := receive_eq_some hr
  refine ⟨_, hat.next hreceive, fun hne => ?_⟩
  rw [incoming_byte hat hacc hr, nextPacket_of_ne_nil hne]

/-- The packet that was handed over last lies in its buffer. -/
def HeldPacket (l : ArmLog) (p : Prot2Processor) : Prop :=
  ∃ i w, p.buffCopy = some i ∧ (p.buffer i).Holds w ∧ l.packet = some w ∧ Whole w

/-- **A byte that completes a packet** hands it over. -/
theorem last_byte (hl : Listening l s.proc) (hr : s.receive b = some (s', x))
    (hc : s.proc.completes = true) :
    HeldPacket (l.byte x) s'.proc ∧ s'.proc.buffCopy ≠ some s'.proc.buff := by
  obtain ⟨acc, hat, hacc⟩ := hl
  obtain ⟨hreceive, -, hx⟩ := receive_eq_some hr
  obtain ⟨w, hw⟩ := Option.isSome_iff_exists.mp ((hat.completes_eq false b.data).symm.trans hc)
  obtain ⟨hholds, hcopy, hbuff, -, -⟩ := hat.next_emits hreceive hw
  obtain ⟨rfl, -, hheader, d, hhead, hlength⟩ := nextPacket_emits hw
  have hpacket : (l.byte x).packet = some (acc ++ [b.data]) := by
    have hincoming := incoming_byte hat hacc hr
    rw [hx, hc, ArmLog.byte, if_pos rfl] at hincoming ⊢
    exact congrArg some hincoming
  have hfirst : (acc ++ [b.data]).getD 0 0 = d := by
    cases acc with
    | nil => cases hhead
    | cons d' acc => exact Option.some.inj hhead
  refine ⟨⟨s.proc.buff, _, hcopy, hholds, hpacket, ?_, ?_⟩, ?_⟩
  · simpa using hheader
  · rw [hfirst, hlength]
  · rw [hcopy, hbuff]
    exact fun heq => s.proc.buff.other_ne (Option.some.inj heq)

/-- **Any other byte** is stored in the buffer of the listener, or resets it. -/
theorem quiet_byte (hr : s.receive b = some (s', x)) (hc : s.proc.completes = false) :
    s'.proc.buffCopy = s.proc.buffCopy ∧ (l.byte x).packet = l.packet ∧
      (∀ i ≠ s.proc.buff, s'.proc.buffer i = s.proc.buffer i) ∧
      (s'.proc.buff = s.proc.buff ∧ s'.proc.replyReady = s.proc.replyReady ∨
        s'.proc.receive = .listenLength ∧ s'.proc.replyReady = false) := by
  obtain ⟨hreceive, -, hx⟩ := receive_eq_some hr
  have hpacket : (l.byte x).packet = l.packet := by
    rw [hx, hc, ArmLog.byte, if_neg (by simp)]
  have hpush : ∀ {r : Prot2Processor}, s.proc.push b.data = some r →
      (∀ i ≠ s.proc.buff, r.buffer i = s.proc.buffer i) ∧
        r.buff = s.proc.buff ∧ r.replyReady = s.proc.replyReady := by
    intro r hpush
    obtain ⟨v, -, rfl⟩ := Prot2Processor.push_eq_some hpush
    exact ⟨fun i hi => Function.update_of_ne hi .., rfl, rfl⟩
  refine ⟨(Prot2Processor.receive_quiet hreceive hc).1, hpacket, ?_⟩
  generalize s'.proc = q, s'.clock = clk at hreceive ⊢
  cases Prot2Processor.received hreceive with
  | length _ hr | func _ _ hr | cmd _ hr | payload _ hr =>
      obtain ⟨hbuffer, hbuff, hready⟩ := hpush hr
      exact ⟨hbuffer, .inl ⟨hbuff, hready⟩⟩
  | funcLate => exact ⟨fun _ _ => rfl, .inr ⟨rfl, rfl⟩⟩
  | cmdRefused _ hr => exact ⟨(hpush hr).1, .inr ⟨rfl, rfl⟩⟩
  | packetEnd hrec hr hend =>
      obtain ⟨-, -, hcntr, hlen, -, -, -⟩ := Prot2Processor.push_frame hr
      rw [hcntr, hlen] at hend
      exact absurd hc (by simp [Prot2Processor.completes, hrec, hend])

/-- A packet stays where it lies while no byte is stored there. -/
theorem HeldPacket.byte (hl : Listening l s.proc) (hheld : HeldPacket l s.proc)
    (hapart : s.proc.buffCopy ≠ some s.proc.buff) (hr : s.receive b = some (s', x)) :
    HeldPacket (l.byte x) s'.proc := by
  cases hc : s.proc.completes with
  | true => exact (last_byte hl hr hc).1
  | false =>
      obtain ⟨hcopy, hpacket, hbuffer, -⟩ := quiet_byte (l := l) hr hc
      obtain ⟨i, w, hi, hholds, hw, hwhole⟩ := hheld
      have hne : i ≠ s.proc.buff := fun heq => hapart (heq ▸ hi)
      refine ⟨i, w, hcopy.trans hi, ?_, hpacket.trans hw, hwhole⟩
      rwa [hbuffer i hne]

/-! ### The logic of exchanges -/

section logic

variable {Φ Φ' : ArmLog → ArmState → Prop} {Ψ : UInt32 → ArmLog → ArmState → Prop}
  {place : ArmPlace} {o : ArmOp} {stage : Stage} {α : Type} {p : ArmProg α}
  {Θ : α → ArmLog → ArmState → Prop} {rc : RetCode}

/-- An assertion about the log and the state. -/
def Knows (Φ : ArmLog → ArmState → Prop) :
    Assertion ArmState ArmStart ArmByte ByteObs ArmPlace ArmOp UInt32 :=
  fun h s => Φ (armLog h) s

/-- The bytes that a stage allows keep an assertion. -/
def Stage.Keeps (stage : Stage) (Φ : ArmLog → ArmState → Prop) : Prop :=
  ∀ l s b s' x, Φ l s → stage.Allows s → s.receive b = some (s', x) → Φ (l.byte x) s'

/-- A program between assertions about the log and the state. -/
abbrev ArmTriple (Φ : ArmLog → ArmState → Prop) (p : ArmProg α)
    (Θ : α → ArmLog → ArmState → Prop) : Prop :=
  Triple armSystem Careful ArmSound (Knows Φ) p fun a => Knows (Θ a)

/-- **An operation of an exchange.** -/
theorem arm_op (hbytes : place.stage.Keeps Φ)
    (hjust : ∀ l s, Φ l s → Justified place.call l.taken o)
    (hact : ∀ l s w s', Φ l s →
      (o = .getPacket → ∀ v, l.packet = some v → Passes place.call v →
        v.getD 2 0 = place.call.replyCommand) →
      s.act o w = some s' → Ψ w (l.did o) s') :
    ArmTriple Φ (Prog.op place o) Ψ := by
  refine .op ?_ ?_ ?_
  · intro h s b s' x hΦ hcareful hreceive
    rw [Knows, armLog_append]
    exact hbytes _ s b s' x hΦ hcareful hreceive
  · intro h s hΦ place' o' heq
    obtain ⟨rfl, rfl⟩ := Prod.mk.inj (Option.some.inj heq)
    exact hjust _ s hΦ
  · intro h s w s' hΦ hcareful hs
    rw [Knows, armLog_append]
    refine hact _ s w s' hΦ ?_ hs
    rintro rfl
    exact hcareful

/-- An operation without an answer. -/
theorem arm_do (hbytes : place.stage.Keeps Φ)
    (hjust : ∀ l s, Φ l s → Justified place.call l.taken o) (ho : o ≠ .getPacket)
    (hact : ∀ l s w s', Φ l s → s.act o w = some s' → Φ' l s') :
    ArmTriple Φ (armDo place o) fun _ => Φ' := by
  have hop : ArmTriple Φ (Prog.op place o) fun _ => Φ' := by
    refine arm_op hbytes hjust ?_
    intro l s w s' hΦ _ hs
    have hdid : l.did o = l := by
      cases o with
      | getPacket => exact absurd rfl ho
      | _ => rfl
    rw [hdid]
    exact hact l s w s' hΦ hs
  exact hop.bind fun _ => .pure fun _ _ hΦ => hΦ

/-- A fact that holds whatever happens. -/
theorem arm_pure {q : Prop} (hp : q → ArmTriple Φ p Θ) :
    ArmTriple (fun l s => q ∧ Φ l s) p Θ :=
  fun h s hΦ => hp hΦ.1 h s hΦ.2

/-- A value that is known to exist. -/
theorem arm_exists {ι : Type} {Φ : ι → ArmLog → ArmState → Prop}
    (hp : ∀ i, ArmTriple (Φ i) p Θ) : ArmTriple (fun l s => ∃ i, Φ i l s) p Θ :=
  fun h s hΦ => hΦ.elim fun i hi => hp i h s hi

/-- What is known of the log is kept by the stores of a reset. -/
theorem reset_triple {Φ : ArmLog → Prop} {places : ResetPart → ArmPlace}
    (hΦ : ∀ l x, Φ l → Φ (l.byte x)) :
    ArmTriple (fun l _ => Φ l) (armCleanup places) fun _ l _ => Φ l := by
  have hpart : ∀ part, ArmTriple (fun l _ => Φ l) (armDo (places part) (.reset part))
      fun _ l _ => Φ l := fun part =>
    arm_do (fun l _ _ _ x hl _ _ => hΦ l x hl) (fun _ _ _ => trivial) (by simp)
      fun _ _ _ _ hl _ => hl
  exact (hpart .requestReady).bind fun _ => (hpart .receive).bind fun _ =>
    (hpart .cntr).bind fun _ => (hpart .replyReady).bind fun _ =>
      (hpart .expectedLen).bind fun _ => hpart .buff

/-- A call may return a code. -/
def MayReturn (c : ArmCall) (rc : RetCode) (l : ArmLog) : Prop :=
  rc = .success → ∃ w, l.taken = some w ∧ IsReply c w

/-- **The end of a call.** -/
theorem leave_triple :
    ArmTriple (fun l _ => MayReturn c rc l) (leave c rc) fun _ _ _ => True := by
  have hbyte : ∀ l x, MayReturn c rc l → MayReturn c rc (l.byte x) := by
    intro l x hl hrc
    rw [ArmLog.byte_taken]
    exact hl hrc
  refine (reset_triple hbyte).bind fun _ => arm_do ?_ ?_ (by simp) fun _ _ _ _ _ _ => trivial
  · exact fun l _ _ _ x hl _ _ => hbyte l x hl
  · intro l _ hl
    cases rc with
    | success => exact hl rfl
    | _ => trivial

/-- The end of a call that has failed. -/
theorem leave_failed (hrc : rc ≠ .success) : ArmTriple Φ (leave c rc) fun _ _ _ => True :=
  leave_triple.conseq (fun _ _ _ heq => absurd heq hrc) fun _ _ _ hQ => hQ

/-! ### The reset and the memset -/

/-- The listener is reset, apart from its buffer. -/
structure Fresh (p : Prot2Processor) : Prop where
  receive : p.receive = .listenLength
  cntr : p.cntr = 0
  replyReady : p.replyReady = false

/-- The bytes of the last packet are being cleared. -/
structure Clearing (l : ArmLog) (s : ArmState) : Prop where
  listening : Listening l s.proc
  replyReady : s.proc.replyReady = false
  apart : s.reply = some s.proc.buff → s.proc.receive = .listenLength

/-- A reset listener is listening. -/
theorem Fresh.clearing (hp : Fresh s.proc) : Clearing l s where
  listening := ⟨[], ⟨hp.cntr, ByteBuffer.holds_nil, hp.receive, by simp⟩, fun hne => absurd rfl hne⟩
  replyReady := hp.replyReady
  apart := fun _ => hp.receive

/-- **The first reset**: nothing that has been received before counts. -/
theorem startReset_triple :
    ArmTriple (fun _ _ => True) (armCleanup fun part => ⟨c, part.stage⟩) fun _ => Clearing := by
  have hpart : ∀ {Φ Φ' : ArmState → Prop} (part : ResetPart), part.stage = .resetting →
      (∀ s, Φ s → Φ' { s with proc := s.proc.reset part }) →
      ArmTriple (fun _ => Φ) (armDo ⟨c, part.stage⟩ (.reset part)) fun _ _ => Φ' := by
    intro Φ Φ' part hstage hΦ
    refine arm_do ?_ (fun _ _ _ => trivial) (by simp) ?_
    · intro l s b s' x _ hallows
      rw [hstage] at hallows
      exact hallows.elim
    · intro l s w s' hs hact
      obtain rfl := Option.some.inj hact
      exact hΦ s hs
  refine Triple.bind (Q := fun _ => Knows fun _ _ => True)
    (arm_do (fun _ _ _ _ _ _ _ _ => trivial) (fun _ _ _ => trivial) (by simp)
      fun _ _ _ _ _ _ => trivial) fun _ => ?_
  refine Triple.bind (Q := fun _ => Knows fun _ s => s.proc.receive = .listenLength)
    (arm_do (fun _ _ _ _ _ _ _ _ => trivial) (fun _ _ _ => trivial) (by simp) ?_) fun _ => ?_
  · intro l s w s' _ hact
    obtain rfl := Option.some.inj hact
    rfl
  refine Triple.bind (Q := fun _ => Knows fun _ s =>
      s.proc.receive = .listenLength ∧ s.proc.cntr = 0)
    (hpart .cntr rfl fun s hs => ⟨hs, rfl⟩) fun _ => ?_
  refine Triple.bind (Q := fun _ => Knows fun _ s => Fresh s.proc)
    (hpart .replyReady rfl fun s hs => ⟨hs.1, hs.2, rfl⟩) fun _ => ?_
  refine Triple.bind (Q := fun _ => Knows fun _ s => Fresh s.proc)
    (hpart .expectedLen rfl fun s hs => ⟨hs.receive, hs.cntr, hs.replyReady⟩) fun _ => ?_
  have hlast : ArmTriple (fun _ s => Fresh s.proc) (armDo ⟨c, .resetting⟩ (.reset .buff))
      fun _ _ s => Fresh s.proc :=
    hpart .buff rfl fun s hs => ⟨hs.receive, hs.cntr, hs.replyReady⟩
  exact hlast.conseq (fun _ _ hs => hs) fun _ _ _ hs => hs.clearing

/-- Bytes for the other buffer do not disturb the memset. -/
theorem clearing_kept : Stage.clearing.Keeps Clearing := by
  intro l s b s' x hs hallows hr
  obtain ⟨hcompletes, hapart⟩ := hallows
  obtain ⟨-, -, -, hend⟩ := quiet_byte (l := l) hr hcompletes
  obtain ⟨-, hreply, -⟩ := receive_eq_some hr
  refine ⟨hs.listening.byte hr, ?_, fun heq => ?_⟩
  · obtain ⟨-, hready⟩ | ⟨-, hready⟩ := hend
    · exact hready.trans hs.replyReady
    · exact hready
  · obtain ⟨hbuff, -⟩ | ⟨hreceive, -⟩ := hend
    · rw [hreply, hbuff] at heq
      exact absurd heq hapart
    · exact hreceive

/-- A store of the memset. -/
theorem clearReply_triple {k : ℕ} :
    ArmTriple Clearing (armDo ⟨c, .clearing⟩ (.clearReply k)) fun _ => Clearing := by
  refine arm_do clearing_kept (fun _ _ _ => trivial) (by simp) ?_
  intro l s w s' hs hact
  obtain ⟨i, hi, hact⟩ := Option.bind_eq_some_iff.mp hact
  obtain ⟨v, -, rfl⟩ := Option.map_eq_some_iff.mp hact
  refine ⟨?_, hs.replyReady, hs.apart⟩
  obtain ⟨acc, hat, hacc⟩ := hs.listening
  refine ⟨acc, ⟨hat.cntr, ?_, hat.receive, hat.expectedLen⟩, hacc⟩
  by_cases heq : i = s.proc.buff
  · have hreceive := hs.apart (heq ▸ hi)
    obtain rfl : acc = [] := by simpa [hreceive] using hat.receive
    exact ByteBuffer.holds_nil
  · change (Function.update s.proc.buffer i v s.proc.buff).Holds acc
    rw [Function.update_of_ne (Ne.symm heq)]
    exact hat.holds

/-! ### The wait -/

/-- While a reply is waited for, a packet that is ready lies in its buffer. -/
structure AwaitingReply (l : ArmLog) (s : ArmState) : Prop where
  listening : Listening l s.proc
  ready : s.proc.replyReady = true → s.proc.buffCopy ≠ some s.proc.buff ∧ HeldPacket l s.proc

/-- Where nothing is ready, one may wait. -/
theorem Clearing.waiting (hs : Clearing l s) : AwaitingReply l s where
  listening := hs.listening
  ready := fun hready => absurd (hs.replyReady.symm.trans hready) (by simp)

/-- **Any byte may come while a reply is waited for.** -/
theorem waiting_kept : Stage.waiting.Keeps AwaitingReply := by
  intro l s b s' x hs _ hr
  refine ⟨hs.listening.byte hr, fun hready => ?_⟩
  cases hc : s.proc.completes with
  | true => exact (last_byte hs.listening hr hc).symm
  | false =>
      obtain ⟨hcopy, -, -, ⟨hbuff, hready'⟩ | ⟨-, hready'⟩⟩ := quiet_byte (l := l) hr hc
      · obtain ⟨hapart, hheld⟩ := hs.ready (hready'.symm.trans hready)
        refine ⟨?_, hheld.byte hs.listening hapart hr⟩
        rw [hcopy, hbuff]
        exact hapart
      · exact absurd (hready'.symm.trans hready) (by simp)

/-- The request is sent. -/
theorem send_triple :
    ArmTriple AwaitingReply (armDo ⟨c, .waiting⟩ (.send c.request)) fun _ => AwaitingReply :=
  arm_do waiting_kept (fun _ _ _ => trivial) (by simp) fun _ _ _ _ hs hact =>
    Option.some.inj hact ▸ hs

/-- The clock is read. -/
theorem ticks_triple :
    ArmTriple AwaitingReply (Prog.op ⟨c, .waiting⟩ .readTicks) fun _ => AwaitingReply :=
  arm_op waiting_kept (fun _ _ _ => trivial) fun _ _ _ _ hs _ hact => Option.some.inj hact ▸ hs

/-- A packet is there to be taken. -/
def Taking (l : ArmLog) (s : ArmState) : Prop := Listening l s.proc ∧ HeldPacket l s.proc

/-- The poll: a packet is there, or the wait goes on. -/
theorem poll_triple : ArmTriple AwaitingReply (Prog.op ⟨c, .waiting⟩ .replyReady)
    fun ready l s => AwaitingReply l s ∧ (ready ≠ 0 → Taking l s) := by
  refine arm_op waiting_kept (fun _ _ _ => trivial) ?_
  intro l s w s' hs _ hact
  rw [ArmState.act] at hact
  by_cases hw : w = if s.proc.replyReady then 1 else 0
  · rw [if_pos hw] at hact
    obtain rfl := Option.some.inj hact
    refine ⟨hs, fun hne => ⟨hs.listening, (hs.ready ?_).2⟩⟩
    by_contra hready
    rw [if_neg hready] at hw
    exact hne hw
  · rw [if_neg hw] at hact
    cases hact

/-- The packet that has been taken lies in the buffer that `reply` points to. -/
structure Examining (w : List UInt8) (l : ArmLog) (s : ArmState) : Prop where
  taken : l.taken = some w
  holds : ∃ i, s.reply = some i ∧ (s.proc.buffer i).Holds w

/-- A packet that may be answered with an update, if it passes the checks. -/
structure Trusted (c : ArmCall) (w : List UInt8) : Prop where
  whole : Whole w
  command : Passes c w → w.getD 2 0 = c.replyCommand

/-- **The packet is taken**, while no byte is stored where it lies. -/
theorem take_triple : ArmTriple Taking (armDo ⟨c, .taking⟩ .getPacket)
    fun _ l s => ∃ w, Trusted c w ∧ Examining w l s := by
  refine Triple.bind (Q := fun _ => Knows fun l s => ∃ w, Trusted c w ∧ Examining w l s)
    (arm_op ?_ (fun _ _ _ => trivial) ?_) fun _ => .pure fun _ _ hs => hs
  · intro l s b s' x hs hallows hr
    exact ⟨hs.1.byte hr, hs.2.byte hs.1 hallows hr⟩
  · intro l s v s' hs hcommand hact
    obtain rfl := Option.some.inj hact
    obtain ⟨-, i, w, hi, hholds, hw, hwhole⟩ := hs
    exact ⟨w, ⟨hwhole, hcommand rfl w hw⟩, hw, i, hi, hholds⟩

/-! ### The checks -/

/-- Bytes for the other buffer do not disturb the checks. -/
theorem examining_kept : Stage.examining.Keeps (Examining w) := by
  intro l s b s' x hs hallows hr
  obtain ⟨hcompletes, hapart⟩ := hallows
  obtain ⟨-, -, hbuffer, -⟩ := quiet_byte (l := l) hr hcompletes
  obtain ⟨-, hreply, -⟩ := receive_eq_some hr
  obtain ⟨i, hi, hholds⟩ := hs.holds
  have hne : i ≠ s.proc.buff := fun heq => hapart (heq ▸ hi)
  refine ⟨ArmLog.byte_taken.trans hs.taken, i, hreply.trans hi, ?_⟩
  rwa [hbuffer i hne]

/-- A byte of what a buffer holds. -/
theorem byte_of_holds {v : Prot2Buffer} {k : ℕ} (hv : v.Holds w) (hk : k < w.length) :
    v.byte k = w.getD k 0 := by
  obtain ⟨t, ht⟩ := hv
  rw [Prot2Buffer.byte, ← ht, List.getD_append _ _ _ _ hk]

/-- **A byte of the reply is read.** -/
theorem read_triple {k : ℕ} (hk : k < w.length) :
    ArmTriple (Examining w) (readReply c k) fun v l s => v = w.getD k 0 ∧ Examining w l s := by
  refine Triple.bind
    (Q := fun v => Knows fun l s => v = (w.getD k 0).toUInt32 ∧ Examining w l s)
    (arm_op examining_kept (fun _ _ _ => trivial) ?_) fun v => .pure fun _ _ hs => ?_
  · intro l s v s' hs _ hact
    obtain ⟨i, hi, hact⟩ := Option.bind_eq_some_iff.mp hact
    obtain ⟨j, hj, hholds⟩ := hs.holds
    obtain rfl : j = i := Option.some.inj (hj.symm.trans hi)
    split at hact
    next hv =>
        obtain rfl := Option.some.inj hact
        refine ⟨?_, hs⟩
        rw [hv.2.2, Int.toNat_natCast, byte_of_holds hholds hk]
    next => cases hact
  · refine ⟨?_, hs.2⟩
    rw [hs.1]
    exact UInt8.toUInt8_toUInt32 _

/-- The checksum is computed byte by byte. -/
theorem crcLoop_triple {is : List ℕ} (his : ∀ i ∈ is, i < w.length) {crc : UInt8} :
    ArmTriple (Examining w)
      (is.foldlM (fun crc (i : ℕ) => do
        let b ← readReply c i
        pure (crc ^^^ b)) crc)
      fun v l s => v = is.foldl (fun crc i => crc ^^^ w.getD i 0) crc ∧ Examining w l s := by
  induction is generalizing crc with
  | nil => exact .pure fun _ _ hs => ⟨rfl, hs⟩
  | cons i is ih =>
      rw [List.foldlM_cons, bind_assoc]
      refine (read_triple (his i List.mem_cons_self)).bind fun b => arm_pure ?_
      rintro rfl
      exact ih fun j hj => his j (List.mem_cons_of_mem _ hj)

/-- `uart_calculate_crc` of the reply. -/
theorem replyCrc_triple (hw : Whole w) : ArmTriple (Examining w) (replyCrc c)
    fun v l s => v = uartCalculateCrc (fun i => w.getD i 0) ∧ Examining w l s := by
  have hheader := hw.header
  refine (read_triple (k := 0) (by omega)).bind fun length => arm_pure ?_
  rintro rfl
  refine crcLoop_triple fun i hi => ?_
  have hlength := hw.length
  rw [List.mem_range] at hi
  omega

/-- **`uart_crc_ok` of the reply.** -/
theorem replyCrcOk_triple (hw : Whole w) : ArmTriple (Examining w) (replyCrcOk c)
    fun v l s => v = uartCrcOk (fun i => w.getD i 0) ∧ Examining w l s := by
  have hheader := hw.header
  have hlength := hw.length
  refine (read_triple (k := 0) (by omega)).bind fun len => arm_pure ?_
  rintro rfl
  refine (replyCrc_triple hw).bind fun crc => arm_pure ?_
  rintro rfl
  have hlast : (((w.getD 0 0).toNat : ℤ) - 1) = ((w.getD 0 0).toNat - 1 : ℕ) := by omega
  rw [hlast]
  refine (read_triple (by omega)).bind fun last => arm_pure ?_
  rintro rfl
  exact .pure fun _ _ hs => ⟨rfl, hs⟩

/-! ### The updates -/

/-- A justified update. -/
theorem set_triple (hjust : Justified c (some w) o)
    (hact : ∀ s v s', ArmState.act s o v = some s' → s'.reply = s.reply ∧ s'.proc = s.proc)
    (hne : o ≠ .getPacket) :
    ArmTriple (Examining w) (armDo ⟨c, .examining⟩ o) fun _ => Examining w := by
  refine arm_do examining_kept ?_ hne ?_
  · intro l s hs
    rw [hs.taken]
    exact hjust
  · intro l s v s' hs hs'
    obtain ⟨hreply, hproc⟩ := hact s v s' hs'
    refine ⟨hs.taken, ?_⟩
    rw [hreply, hproc]
    exact hs.holds

/-- The operations that update something leave the reply alone. -/
theorem act_set {v : UInt8} (ho : o = .setSlotId v ∨ o = .setPowerLed v ∨ o = .setStatusLed v)
    {u : UInt32} (hact : s.act o u = some s') : s'.reply = s.reply ∧ s'.proc = s.proc := by
  obtain rfl | rfl | rfl := ho <;> exact (Option.some.inj hact) ▸ ⟨rfl, rfl⟩

/-- **A reply is made use of.** -/
theorem update_triple (hw : IsReply c w) :
    ArmTriple (Examining w) (update c) fun _ => Examining w := by
  have hlength := hw.length
  cases c with
  | getSlotId =>
      refine (read_triple (k := 3) (by rw [hlength]; decide)).bind fun v => arm_pure ?_
      rintro rfl
      exact set_triple (o := .setSlotId _) ⟨w, rfl, hw, rfl⟩ (fun _ _ _ => act_set (.inl rfl))
        (by simp)
  | getFpLeds =>
      refine (read_triple (k := 3) (by rw [hlength]; decide)).bind fun v => arm_pure ?_
      rintro rfl
      refine (set_triple (o := .setPowerLed _) ⟨w, rfl, hw, rfl⟩
        (fun _ _ _ => act_set (.inr (.inl rfl))) (by simp)).bind fun _ => ?_
      refine (read_triple (k := 4) (by rw [hlength]; decide)).bind fun v => arm_pure ?_
      rintro rfl
      exact set_triple (o := .setStatusLed _) ⟨w, rfl, hw, rfl⟩
        (fun _ _ _ => act_set (.inr (.inr rfl))) (by simp)
  | setStatusLed alarm2 alarm1 => exact .pure fun _ _ hs => hs

/-- **The checks**: what passes them is a reply, if the packet may be trusted. -/
theorem examine_triple (hw : Trusted c w) :
    ArmTriple (Examining w) (examine c) fun _ _ _ => True := by
  have hheader := hw.whole.header
  refine (read_triple (k := 0) (by omega)).bind fun len => arm_pure ?_
  rintro rfl
  refine .ite (fun _ => leave_failed (by simp)) fun hlen => ?_
  refine (replyCrcOk_triple hw.whole).bind fun ok => arm_pure ?_
  rintro rfl
  refine .ite (fun _ => leave_failed (by simp)) fun hcrc => ?_
  refine (read_triple (k := 1) (by omega)).bind fun func => arm_pure ?_
  rintro rfl
  refine .ite (fun _ => leave_failed (by simp)) fun hfunc => ?_
  refine (read_triple (k := 2) (by omega)).bind fun command => arm_pure ?_
  rintro rfl
  refine .ite (fun _ => leave_failed (by simp)) fun _ => ?_
  have hpass : Passes c w := ⟨not_not.mp hlen, by simpa using hcrc, not_not.mp hfunc⟩
  have hreply : IsReply c w := hpass.isReply hw.whole (hw.command hpass)
  refine (update_triple hreply).bind fun _ => ?_
  exact leave_triple.conseq (fun _ _ hs _ => ⟨w, hs.taken, hreply⟩) fun _ _ _ hQ => hQ

/-- The wait, however long. -/
theorem await_triple {start : UInt32} {polls : ℕ} :
    ArmTriple AwaitingReply (await c start polls) fun _ _ _ => True := by
  induction polls with
  | zero =>
      exact arm_do waiting_kept (fun _ _ _ => trivial) (by simp) fun _ _ _ _ _ _ => trivial
  | succ polls ih =>
      refine poll_triple.bind fun ready => .ite (fun hready => ?_) fun _ => ?_
      · refine (take_triple.conseq (fun _ _ hs => hs.2 hready) fun _ _ _ hs => hs).bind
          fun _ => arm_exists fun w => arm_pure examine_triple
      · exact (ticks_triple.conseq (fun _ _ hs => hs.1) fun _ _ _ hs => hs).bind fun now =>
          .ite (fun _ => leave_failed (by simp)) fun _ => ih

/-- **An exchange.** -/
theorem exchange_triple {polls : ℕ} :
    ArmTriple (fun _ _ => True) (exchange c polls) fun _ _ _ => True := by
  refine startReset_triple.bind fun _ => ?_
  refine (Triple.forM fun k _ => clearReply_triple).bind fun _ => ?_
  refine (send_triple.conseq (fun _ _ hs => Clearing.waiting hs) fun _ _ _ hs => hs).bind
    fun _ => ?_
  exact ticks_triple.bind fun start => await_triple

end logic

/-- **An exchange with the ARM is sound** in every run that meets the condition: whatever packets
come, and whenever, a call returns `RET_SUCCESS` and updates what it reads only from a reply that it
has taken. -/
theorem armExchange_sound {s₀ : ArmState} {h : ArmHistory} {z : ArmState × ArmProg Unit}
    (hr : armMachine.Run (s₀, .done ()) h z)
    (hcareful : armSystem.Meets armMain s₀ Careful h) : ArmSound z.2.head h z.1 :=
  Triple.sound (I := Knows fun _ _ => True) (R := fun _ => Knows fun _ _ => True)
    (fun _ => exchange_triple) (fun _ _ _ _ _ => trivial) (fun _ _ _ _ _ _ _ _ => trivial)
    (fun _ _ _ place o hnext => by cases hnext) trivial hr hcareful

/-! ### A slot id -/

/-- Before the first exchange. -/
def armStart : ArmState where
  proc := ipglbProt2ProcessorInit .master fun _ => ByteBuffer.zero
  clock := ⟨0, 0⟩
  reply := none
  slotId := 0
  powerLed := 0
  statusLed := 0

/-- The slot id is asked for. -/
def slotIdAsked : ArmHistory :=
  let starting : ArmPlace := ⟨.getSlotId, .starting⟩
  let resetting : ArmPlace := ⟨.getSlotId, .resetting⟩
  let waiting : ArmPlace := ⟨.getSlotId, .waiting⟩
  [(.start ⟨.getSlotId, 1⟩, .started),
    (.task 0, .did starting (.reset .requestReady)),
    (.task 0, .did starting (.reset .receive)),
    (.task 0, .did resetting (.reset .cntr)),
    (.task 0, .did resetting (.reset .replyReady)),
    (.task 0, .did resetting (.reset .expectedLen)),
    (.task 0, .did resetting (.reset .buff)),
    (.task 0, .did waiting (.send ArmCall.getSlotId.request)),
    (.task 0, .did waiting .readTicks)]

/-- A packet of five bytes comes. -/
def slotIdReply (command crc : UInt8) : ArmHistory :=
  [(.interrupt ⟨0, 5⟩, .interrupted ⟨5, .listenLength, false⟩),
    (.interrupt ⟨0, 0x50⟩, .interrupted ⟨0x50, .listenFunc, false⟩),
    (.interrupt ⟨0, command⟩, .interrupted ⟨command, .listenCmd, false⟩),
    (.interrupt ⟨0, 7⟩, .interrupted ⟨7, .listenPayload, false⟩),
    (.interrupt ⟨0, crc⟩, .interrupted ⟨crc, .listenPayload, true⟩)]

/-- It is taken. -/
def slotIdTaken : ArmHistory :=
  [(.task 1, .did ⟨.getSlotId, .waiting⟩ .replyReady),
    (.task 0, .did ⟨.getSlotId, .taking⟩ .getPacket)]

/-- It is examined. -/
def slotIdExamined (command crc : UInt8) : ArmHistory :=
  let read (w : UInt8) (k : ℤ) : Event ArmStart ArmByte UInt32 × Output ArmPlace ArmOp ByteObs :=
    (.task w.toUInt32, .did ⟨.getSlotId, .examining⟩ (.readReply k))
  [read 5 0, read 5 0, read 5 0, read 5 0, read 0x50 1, read command 2, read 7 3, read crc 4,
    read 0x50 1, read command 2, read 7 3]

/-- An exchange up to the update of the slot id. -/
def slotIdExchange (command crc : UInt8) : ArmHistory :=
  slotIdAsked ++ slotIdReply command crc ++ slotIdTaken ++ slotIdExamined command crc

/-- An event of a task that the condition says nothing about. -/
def isQuiet : Event ArmStart ArmByte UInt32 × Output ArmPlace ArmOp ByteObs → Bool
  | (.task _, .did _ .getPacket) => false
  | (.task _, _) | (.start _, _) => true
  | (.interrupt _, _) => false

section careful

variable {s₀ : ArmState} {h' : ArmHistory} {z : ArmState × ArmProg Unit}

/-- Such events may follow. -/
theorem meets_careful_quiet (hcareful : armSystem.Meets armMain s₀ Careful h)
    (hr : armMachine.Run (s₀, .done ()) (h ++ h') z) (hquiet : ∀ e ∈ h', isQuiet e = true) :
    armSystem.Meets armMain s₀ Careful (h ++ h') := by
  induction h' using List.reverseRecOn generalizing z with
  | nil => simpa using hcareful
  | append_singleton h' ex ih =>
      obtain ⟨e, x⟩ := ex
      rw [← List.append_assoc] at hr ⊢
      obtain ⟨z', hr', hstep⟩ := hr.snoc_inv
      refine .snoc hr' (ih hr' fun e he => hquiet e (by simp [he])) ?_
      have hlast := hquiet (e, x) (by simp)
      obtain ⟨hdid, -⟩ := System.head_of_step hstep
      cases e with
      | start u => exact trivial
      | interrupt b => cases hlast
      | task w =>
          obtain ⟨p, o, rfl, hhead⟩ := hdid w rfl
          rw [hhead]
          cases o <;> first | exact trivial | cases hlast

/-- Bytes may follow where a call waits for them. -/
theorem meets_careful_bytes {c : ArmCall} {o : ArmOp}
    (hcareful : armSystem.Meets armMain s₀ Careful h)
    (hr : armMachine.Run (s₀, .done ()) (h ++ h') z)
    (hbytes : ∀ e ∈ h', ∃ b x, e = (.interrupt b, .interrupted x))
    (hhead : z.2.head = some (⟨c, .waiting⟩, o)) :
    armSystem.Meets armMain s₀ Careful (h ++ h') := by
  induction h' using List.reverseRecOn generalizing z with
  | nil => simpa using hcareful
  | append_singleton h' ex ih =>
      obtain ⟨b, x, rfl⟩ := hbytes ex (by simp)
      rw [← List.append_assoc] at hr ⊢
      obtain ⟨z', hr', hstep⟩ := hr.snoc_inv
      rw [System.prog_of_interrupt hstep] at hhead
      refine .snoc hr' (ih hr' (fun e he => hbytes e (by simp [he])) hhead) ?_
      rw [hhead]
      exact trivial

end careful

/-- A slot id from a reply. -/
theorem armExchange_sound_slotId : ∃ z,
    armMachine.Run (armStart, .done ()) (slotIdExchange 1 0x53) z ∧
      z.2.head = some (⟨.getSlotId, .examining⟩, .setSlotId 7) ∧
      ArmSound z.2.head (slotIdExchange 1 0x53) z.1 := by
  obtain ⟨z₁, hr₁, hhead₁⟩ : ∃ z, armMachine.Run (armStart, .done ())
      ([] ++ slotIdAsked ++ slotIdReply 1 0x53) z ∧
      z.2.head = some (⟨.getSlotId, .waiting⟩, .replyReady) := ⟨_, Machine.run_of_exec rfl, rfl⟩
  obtain ⟨z₂, hr₂, hhead₂⟩ : ∃ z, armMachine.Run (armStart, .done ())
      (([] ++ slotIdAsked ++ slotIdReply 1 0x53) ++ slotIdTaken.take 1) z ∧
      z.2.head = some (⟨.getSlotId, .taking⟩, .getPacket) := ⟨_, Machine.run_of_exec rfl, rfl⟩
  obtain ⟨z, hr, hhead⟩ : ∃ z, armMachine.Run (armStart, .done ()) (slotIdExchange 1 0x53) z ∧
      z.2.head = some (⟨.getSlotId, .examining⟩, .setSlotId 7) := ⟨_, Machine.run_of_exec rfl, rfl⟩
  obtain ⟨z₀, hr₀⟩ : ∃ z, armMachine.Run (armStart, .done ()) ([] ++ slotIdAsked) z :=
    ⟨_, Machine.run_of_exec rfl⟩
  have hasked := meets_careful_quiet .nil hr₀ (by decide)
  have hreply := meets_careful_bytes hasked hr₁ (by simp [slotIdReply]) hhead₁
  have hready := meets_careful_quiet hreply hr₂ (by decide)
  have htaken := System.Meets.snoc (e := .task 0)
    (x := .did ⟨.getSlotId, .taking⟩ .getPacket) hr₂ hready (by
      rw [hhead₂]
      intro w hw _
      obtain rfl : [5, 0x50, 1, 7, 0x53] = w := Option.some.inj hw
      rfl)
  have hmeets : armSystem.Meets armMain armStart Careful (slotIdExchange 1 0x53) :=
    meets_careful_quiet htaken hr (by decide)
  exact ⟨z, hr, hhead, armExchange_sound hr hmeets⟩

/-- **A negative reply is taken for an answer**: the ARM refuses the request, and the slot id is
set. -/
theorem negative_reply_taken : ∃ z,
    armMachine.Run (armStart, .done ()) (slotIdExchange 0x81 0xD3) z ∧
      ¬ ArmSound z.2.head (slotIdExchange 0x81 0xD3) z.1 := by
  refine ⟨_, Machine.run_of_exec rfl, fun hsound => ?_⟩
  obtain ⟨w, hw, hreply, -⟩ := hsound ⟨.getSlotId, .examining⟩ (.setSlotId 7) rfl
  obtain rfl : [5, 0x50, 0x81, 7, 0xD3] = w := Option.some.inj hw
  exact absurd hreply.command (by decide)

end Muxponder

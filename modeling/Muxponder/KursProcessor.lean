import Muxponder.Lib.Machine

/-!
# The KURS Processor

The receive side of the KURS protocol (`kurs_processor.c`): a listener with three states,
two buffers that are filled in turn, and a flag that hands a complete request to
`kurs_service`. `kurs_receive` runs in the UART interrupt, `kurs_service` in phases that
received bytes may separate; `kursMachine` interleaves the two.

A byte stored outside the two buffers has no defined effect, so `kursReceive` is partial:
it is `none` exactly when the index written is not below `KURS_MAX_BUFFER`.
-/

namespace Muxponder

/-- The size of each receive buffer. -/
def KURS_MAX_BUFFER : ℕ := 1024

/-- The end-of-packet character. -/
def KURS_EOP : UInt8 := 0x0D

/-- A receive buffer: exactly `KURS_MAX_BUFFER` bytes. -/
abbrev Buffer := Vector UInt8 KURS_MAX_BUFFER

/-- Storing a byte at an index, when the index lies inside the buffer. -/
def Buffer.store (b : Buffer) (i : ℕ) (c : UInt8) : Option Buffer :=
  if h : i < KURS_MAX_BUFFER then some (b.set i c h) else none

/-- The buffer after `memset(buff, 0, KURS_MAX_BUFFER)`. -/
def Buffer.zero : Buffer := Vector.replicate KURS_MAX_BUFFER 0

/-- The two buffers of a processor, as the targets of its pointers. -/
inductive BuffId
  | buff1
  | buff2
  deriving DecidableEq, Repr

/-- The buffer the double buffering switches to. -/
def BuffId.other : BuffId → BuffId
  | .buff1 => .buff2
  | .buff2 => .buff1

/-- The two buffers are different. -/
theorem BuffId.other_ne (b : BuffId) : b ≠ b.other := by cases b <;> simp [BuffId.other]

/-- The functions the `receive` pointer can designate. -/
inductive Listener
  | listenEop
  | listenSop
  | listenPayload
  deriving DecidableEq, Repr

/-- The processor object. `buffCopy` is not set before the first request. -/
structure KursProcessor where
  SOP : UInt8
  buff : BuffId
  cntr : ℕ
  requestReady : Bool
  buff1 : Buffer
  buff2 : Buffer
  buffCopy : Option BuffId
  receive : Listener

namespace KursProcessor

/-- The contents of one of the two buffers. -/
def buffer (p : KursProcessor) : BuffId → Buffer
  | .buff1 => p.buff1
  | .buff2 => p.buff2

/-- Replacing the contents of one of the two buffers. -/
def setBuffer (p : KursProcessor) (b : BuffId) (v : Buffer) : KursProcessor :=
  match b with
  | .buff1 => { p with buff1 := v }
  | .buff2 => { p with buff2 := v }

@[simp] theorem buffer_setBuffer_self (p : KursProcessor) (b : BuffId) (v : Buffer) :
    (p.setBuffer b v).buffer b = v := by
  cases b <;> rfl

@[simp] theorem buffer_setBuffer_other (p : KursProcessor) (b : BuffId) (v : Buffer) :
    (p.setBuffer b.other v).buffer b = p.buffer b := by
  cases b <;> rfl

theorem buffer_setBuffer_of_ne (p : KursProcessor) {b b' : BuffId} (v : Buffer)
    (h : b' ≠ b) : (p.setBuffer b v).buffer b' = p.buffer b' := by
  cases b <;> cases b' <;> first | rfl | exact absurd rfl h

@[simp] theorem setBuffer_SOP (p : KursProcessor) (b : BuffId) (v : Buffer) :
    (p.setBuffer b v).SOP = p.SOP := by cases b <;> rfl

@[simp] theorem setBuffer_buff (p : KursProcessor) (b : BuffId) (v : Buffer) :
    (p.setBuffer b v).buff = p.buff := by cases b <;> rfl

@[simp] theorem setBuffer_cntr (p : KursProcessor) (b : BuffId) (v : Buffer) :
    (p.setBuffer b v).cntr = p.cntr := by cases b <;> rfl

@[simp] theorem setBuffer_requestReady (p : KursProcessor) (b : BuffId) (v : Buffer) :
    (p.setBuffer b v).requestReady = p.requestReady := by cases b <;> rfl

@[simp] theorem setBuffer_buffCopy (p : KursProcessor) (b : BuffId) (v : Buffer) :
    (p.setBuffer b v).buffCopy = p.buffCopy := by cases b <;> rfl

@[simp] theorem setBuffer_receive (p : KursProcessor) (b : BuffId) (v : Buffer) :
    (p.setBuffer b v).receive = p.receive := by cases b <;> rfl

/-- The buffers are apart from the `receive` pointer. -/
@[simp] theorem buffer_with_receive (p : KursProcessor) (l : Listener) (b : BuffId) :
    { p with receive := l }.buffer b = p.buffer b := by cases b <;> rfl

/-- The buffers are apart from the request flag. -/
@[simp] theorem buffer_with_requestReady (p : KursProcessor) (r : Bool) (b : BuffId) :
    { p with requestReady := r }.buffer b = p.buffer b := by cases b <;> rfl

/-- `this->buff[this->_cntr++] = c`. -/
def push (p : KursProcessor) (c : UInt8) : Option KursProcessor :=
  ((p.buffer p.buff).store p.cntr c).map fun v =>
    { p.setBuffer p.buff v with cntr := p.cntr + 1 }

end KursProcessor

open KursProcessor

/-- A freshly allocated processor; the buffers hold whatever `malloc` returned. -/
def kursProcessorInit (sop : UInt8) (mem1 mem2 : Buffer) : KursProcessor where
  SOP := sop
  buff := .buff1
  cntr := 0
  requestReady := false
  buff1 := mem1
  buff2 := mem2
  buffCopy := none
  receive := .listenEop

/-- `listen_eop`: hunt for the end of a packet. -/
def listenEop (p : KursProcessor) (c : UInt8) : KursProcessor :=
  if c = KURS_EOP then { p with receive := .listenSop } else { p with receive := .listenEop }

/-- `listen_sop`: the packet starts here, or the hunt for the end of one starts again. -/
def listenSop (p : KursProcessor) (c : UInt8) : Option KursProcessor :=
  if c = p.SOP then
    { p with receive := .listenPayload }.push c
  else
    some { p with receive := .listenEop, cntr := 0 }

/-- The end of a packet: terminate the string, publish the buffer, switch to the other
one and clear it. -/
def publish (p : KursProcessor) : Option KursProcessor :=
  ((p.buffer p.buff).store p.cntr 0).map fun v =>
    { p.setBuffer p.buff v with
      receive := .listenSop, requestReady := true, cntr := 0, buffCopy := some p.buff,
      buff := p.buff.other }.setBuffer p.buff.other Buffer.zero

/-- `listen_payload`: store the byte; the end-of-packet character publishes the request. -/
def listenPayload (p : KursProcessor) (c : UInt8) : Option KursProcessor :=
  (p.push c).bind fun p =>
    if c = KURS_EOP then publish p else some { p with receive := .listenPayload }

/-- `kurs_receive`: the byte goes to the function `receive` points to. -/
def kursReceive (p : KursProcessor) (data : UInt8) : Option KursProcessor :=
  match p.receive with
  | .listenEop => some (listenEop p data)
  | .listenSop => listenSop p data
  | .listenPayload => listenPayload p data

/-! ### Servicing -/

/-- Where `kurs_service` stands: not called, with the request pointer copied, with the
request handled, or with the reply sent. -/
inductive ServicePhase
  | idle
  | taken (requestBuff : BuffId)
  | handled (requestBuff : BuffId)
  | replied (requestBuff : BuffId)
  deriving DecidableEq, Repr

/-- A processor together with the progress of `kurs_service` on it. -/
structure KursSystem where
  proc : KursProcessor
  phase : ServicePhase

/-- What happens next: a byte is received, or `kurs_service` makes its next step. -/
inductive KursEvent
  | byte (data : UInt8)
  | service
  deriving DecidableEq, Repr

/-- What an event makes visible: a request published in a buffer, a request handed to
`KURS_HandleRequests`, the flag cleared, or nothing. -/
inductive KursObs
  | quiet
  | published (b : BuffId) (content : Buffer)
  | handed (b : BuffId) (content : Buffer)
  | cleared

/-- Whether the next byte completes a request. -/
def completes (p : KursProcessor) (data : UInt8) : Bool :=
  decide (p.receive = .listenPayload ∧ data = KURS_EOP)

/-- One event. `handler` is what `KURS_HandleRequests` leaves in the request buffer. -/
def kursStep (handler : Buffer → Buffer) (s : KursSystem) :
    KursEvent → Option (KursSystem × KursObs)
  | .byte data =>
      (kursReceive s.proc data).map fun p =>
        ({ s with proc := p },
          if completes s.proc data then .published s.proc.buff (p.buffer s.proc.buff)
          else .quiet)
  | .service =>
      match s.phase with
      | .idle =>
          if s.proc.requestReady then
            s.proc.buffCopy.map fun b => ({ s with phase := .taken b }, .quiet)
          else some (s, .quiet)
      | .taken b =>
          some ({ proc := s.proc.setBuffer b (handler (s.proc.buffer b)), phase := .handled b },
            .handed b (s.proc.buffer b))
      | .handled b => some ({ s with phase := .replied b }, .quiet)
      | .replied _ =>
          some ({ proc := { s.proc with requestReady := false }, phase := .idle }, .cleared)

/-- The machine of one processor under any interleaving of bytes and service steps. -/
def kursMachine (handler : Buffer → Buffer) : Machine KursSystem KursEvent KursObs :=
  ⟨kursStep handler⟩

/-- The system at start-up. -/
def kursInit (sop : UInt8) (mem1 mem2 : Buffer) : KursSystem :=
  ⟨kursProcessorInit sop mem1 mem2, .idle⟩

/-! ### What one byte does -/

/-- A store succeeds exactly inside the buffer. -/
theorem Buffer.store_eq_some_iff {b v : Buffer} {i : ℕ} {c : UInt8} :
    b.store i c = some v ↔ ∃ h : i < KURS_MAX_BUFFER, b.set i c h = v := by
  unfold Buffer.store
  split
  · next h => simp [h]
  · next h => simp [h]

/-- A store succeeds exactly inside the buffer. -/
theorem Buffer.store_isSome_iff {b : Buffer} {i : ℕ} {c : UInt8} :
    (b.store i c).isSome = true ↔ i < KURS_MAX_BUFFER := by
  unfold Buffer.store
  split <;> simp_all

/-- A list already stored at the start of a buffer stays there, one byte longer, when the
next index is written. -/
theorem Buffer.prefix_store {b v : Buffer} {acc : List UInt8} {c : UInt8}
    (hacc : acc <+: b.toList) (h : b.store acc.length c = some v) :
    acc ++ [c] <+: v.toList := by
  obtain ⟨hi, rfl⟩ := Buffer.store_eq_some_iff.mp h
  obtain ⟨t, ht⟩ := hacc
  have hlen : acc.length + t.length = KURS_MAX_BUFFER := by
    have := congrArg List.length ht
    simpa using this
  rcases t with _ | ⟨d, t⟩
  · simp at hlen; omega
  · refine ⟨t, ?_⟩
    rw [Vector.toList_set, ← ht]
    simp

end Muxponder

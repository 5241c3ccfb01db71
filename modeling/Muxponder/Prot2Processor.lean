import Muxponder.KursProcessor
import Muxponder.Lib.ByteBuffer

/-!
# The PROT2 Processor

The receive side of the IPGLB2 protocol (`ipglb_prot2_processor.c`). A packet carries its
own length in its first byte, then a function and a command byte; the `receive` pointer
walks through one listener for each of the three and a fourth for the payload. A header
byte that comes more than `PROT2_TIMEOUT` ticks after the one before it resets the
listener. The two times this is judged by are variables of the file, so one `Prot2Clock`
serves all processors, and every listener takes and returns it.

`ipglb_prot2_service` is split into the steps an interrupt may separate; `prot2Machine`
interleaves them with received bytes and with calls of `ipglb_prot2_cleanup`.

As in the KURS processor, a byte stored outside the two buffers has no defined effect:
`ipglbProt2Receive` is `none` there.
-/

namespace Muxponder

/-- The size of each receive buffer. -/
def IPGLB2_MAX_BUFFER : ℕ := 256

/-- The longest time between two bytes of a header, in ticks. -/
def PROT2_TIMEOUT : UInt32 := 10000

/-- The command values, and the bit of a refused request. -/
def CMD_READ : UInt8 := 0

@[inherit_doc CMD_READ] def CMD_WRITE : UInt8 := 1

@[inherit_doc CMD_READ] def CMD_CONFIG : UInt8 := 2

@[inherit_doc CMD_READ] def OPCODE_NACK : UInt8 := 0x80

/-- A receive buffer: exactly `IPGLB2_MAX_BUFFER` bytes. -/
abbrev Prot2Buffer := ByteBuffer IPGLB2_MAX_BUFFER

/-- Who speaks first on the line. -/
inductive Prot2Mode
  | master
  | slave
  deriving DecidableEq, Repr

/-- The functions the `receive` pointer can designate. -/
inductive Prot2Listener
  | listenLength
  | listenFunc
  | listenCmd
  | listenPayload
  deriving DecidableEq, Repr

/-- The processor object; `buffer` are its members `buff_1` and `buff_2`. `buffCopy` is
not set before the first packet. -/
structure Prot2Processor where
  mode : Prot2Mode
  buff : BuffId
  cntr : ℕ
  expectedLen : UInt8
  requestReady : Bool
  replyReady : Bool
  buffer : BuffId → Prot2Buffer
  buffCopy : Option BuffId
  receive : Prot2Listener

/-- The file's variables `start_time` and `current_time`. -/
structure Prot2Clock where
  startTime : UInt32
  currentTime : UInt32
  deriving DecidableEq, Repr

/-- `alt_nticks()` at a given number of ticks since start-up. -/
def altNticks (time : ℕ) : UInt32 := UInt32.ofNat time

/-- `(current_time - start_time) > 10000`. -/
def Prot2Clock.expired (clk : Prot2Clock) : Bool :=
  decide (PROT2_TIMEOUT < clk.currentTime - clk.startTime)

/-- The command values a listener accepts, without the bit of a refused request. -/
def validCommand (c : UInt8) : Bool :=
  c &&& 0x7F == CMD_WRITE || c &&& 0x7F == CMD_READ || c &&& 0x7F == CMD_CONFIG

namespace Prot2Processor

/-- `this->buff[this->_cntr++] = c`. -/
def push (p : Prot2Processor) (c : UInt8) : Option Prot2Processor :=
  ((p.buffer p.buff).store p.cntr c).map fun v =>
    { p with buffer := Function.update p.buffer p.buff v, cntr := p.cntr + 1 }

/-- `listen_reset`: wait for a length byte, in the first buffer. -/
def listenReset (p : Prot2Processor) : Prot2Processor :=
  { p with
    receive := .listenLength, cntr := 0, replyReady := false, expectedLen := 0,
    buff := .buff1 }

end Prot2Processor

/-- A freshly allocated processor; the buffers hold whatever `malloc` returned. -/
def ipglbProt2ProcessorInit (mode : Prot2Mode) (mem : BuffId → Prot2Buffer) :
    Prot2Processor where
  mode := mode
  buff := .buff1
  cntr := 0
  expectedLen := 0
  requestReady := false
  replyReady := false
  buffer := mem
  buffCopy := none
  receive := .listenLength

/-- `ipglb_prot2_cleanup`. -/
def ipglbProt2Cleanup (p : Prot2Processor) : Prot2Processor :=
  { p with requestReady := false }.listenReset

namespace Prot2Processor

/-- `listen_length`: a packet starts, whatever the byte and however late it comes. -/
def listenLength (p : Prot2Processor) (now : UInt32) (c : UInt8) :
    Option (Prot2Processor × Prot2Clock) :=
  (p.push c).map fun p => ({ p with expectedLen := c, receive := .listenFunc }, ⟨now, now⟩)

/-- `listen_func`: a late byte is dropped. -/
def listenFunc (p : Prot2Processor) (now : UInt32) (clk : Prot2Clock) (c : UInt8) :
    Option (Prot2Processor × Prot2Clock) :=
  let clk := { clk with currentTime := now }
  if clk.expired then
    some (ipglbProt2Cleanup p, clk)
  else
    (p.push c).map fun p => ({ p with receive := .listenCmd }, { clk with startTime := now })

/-- `listen_cmd`: the byte is stored first; the clock is only read for a valid command. -/
def listenCmd (p : Prot2Processor) (now : UInt32) (clk : Prot2Clock) (c : UInt8) :
    Option (Prot2Processor × Prot2Clock) :=
  (p.push c).map fun p =>
    if validCommand c then
      let clk := { clk with currentTime := now }
      if clk.expired then (ipglbProt2Cleanup p, clk)
      else ({ p with receive := .listenPayload }, { clk with startTime := now })
    else (ipglbProt2Cleanup p, clk)

/-- The end of a packet: hand the buffer over, switch to the other one and clear it. -/
def publish (p : Prot2Processor) : Prot2Processor :=
  { p with
    receive := .listenLength
    replyReady := if p.mode = .master then true else p.replyReady
    requestReady := if p.mode = .master then p.requestReady else true
    buffCopy := some p.buff
    buff := p.buff.other
    buffer := Function.update p.buffer p.buff.other ByteBuffer.zero
    cntr := 0 }

/-- `listen_payload`: the packet ends where the counter meets the length byte. -/
def listenPayload (p : Prot2Processor) (c : UInt8) : Option Prot2Processor :=
  (p.push c).map fun p =>
    if p.cntr = p.expectedLen.toNat then p.publish else { p with receive := .listenPayload }

end Prot2Processor

/-- `ipglb_prot2_receive`: the byte goes to the function `receive` points to. -/
def ipglbProt2Receive (p : Prot2Processor) (now : UInt32) (clk : Prot2Clock) (data : UInt8) :
    Option (Prot2Processor × Prot2Clock) :=
  match p.receive with
  | .listenLength => p.listenLength now data
  | .listenFunc => p.listenFunc now clk data
  | .listenCmd => p.listenCmd now clk data
  | .listenPayload => (p.listenPayload data).map fun p => (p, clk)

/-! ### Servicing -/

/-- Where `ipglb_prot2_service` stands: not called, with a ready request taken, with the
request handled, or with the reply sent. -/
inductive Prot2Phase
  | idle
  | taken (requestBuff : BuffId)
  | handled
  | replied
  deriving DecidableEq, Repr

/-- A processor, the clock it is judged by, and the progress of `ipglb_prot2_service`. -/
structure Prot2System where
  proc : Prot2Processor
  clock : Prot2Clock
  phase : Prot2Phase

/-- What happens next: a byte arrives at some time, `ipglb_prot2_service` makes its next
step, or the owner of the processor calls `ipglb_prot2_cleanup`. -/
inductive Prot2Event
  | byte (time : ℕ) (data : UInt8)
  | service
  | cleanup
  deriving DecidableEq, Repr

/-- What an event makes visible: a packet published in a buffer, a request handed to
`handle_common`, the processor cleaned up, or nothing. -/
inductive Prot2Obs
  | quiet
  | published (b : BuffId) (content : Prot2Buffer)
  | handed (b : BuffId) (content : Prot2Buffer)
  | cleared

/-- Whether the next byte completes a packet. -/
def Prot2Processor.completes (p : Prot2Processor) : Bool :=
  decide (p.receive = .listenPayload ∧ p.cntr + 1 = p.expectedLen.toNat)

/-- One event. A master's `ipglb_prot2_service` does nothing; `handle_common` reads the
request and writes to the reply alone. -/
def prot2Step (s : Prot2System) : Prot2Event → Option (Prot2System × Prot2Obs)
  | .byte time data =>
      (ipglbProt2Receive s.proc (altNticks time) s.clock data).map fun r =>
        ({ s with proc := r.1, clock := r.2 },
          if s.proc.completes then .published s.proc.buff (r.1.buffer s.proc.buff)
          else .quiet)
  | .service =>
      match s.proc.mode, s.phase with
      | .master, _ => some (s, .quiet)
      | .slave, .idle =>
          if s.proc.requestReady then
            s.proc.buffCopy.map fun b => ({ s with phase := .taken b }, .quiet)
          else some (s, .quiet)
      | .slave, .taken b => some ({ s with phase := .handled }, .handed b (s.proc.buffer b))
      | .slave, .handled => some ({ s with phase := .replied }, .quiet)
      | .slave, .replied =>
          some ({ s with proc := ipglbProt2Cleanup s.proc, phase := .idle }, .cleared)
  | .cleanup => some ({ s with proc := ipglbProt2Cleanup s.proc }, .cleared)

/-- The machine of one processor under any interleaving of bytes, service steps and
cleanups. -/
def prot2Machine : Machine Prot2System Prot2Event Prot2Obs := ⟨prot2Step⟩

/-- The system at start-up. -/
def prot2Init (mode : Prot2Mode) (mem : BuffId → Prot2Buffer) : Prot2System :=
  ⟨ipglbProt2ProcessorInit mode mem, ⟨0, 0⟩, .idle⟩

/-- A history of bytes, service steps and cleanups. -/
abbrev Prot2History := List (Prot2Event × Prot2Obs)

namespace Prot2History

/-- The bytes received along a history, with their arrival times. -/
def arrivals (h : Prot2History) : List (ℕ × UInt8) :=
  h.filterMap fun e => match e.1 with
    | .byte time data => some (time, data)
    | _ => none

/-- The packets published along a history, with the buffer and its contents. -/
def published (h : Prot2History) : List (BuffId × Prot2Buffer) :=
  h.filterMap fun e => match e.2 with
    | .published b content => some (b, content)
    | _ => none

/-- The requests handed to `handle_common` along a history. -/
def handed (h : Prot2History) : List (BuffId × Prot2Buffer) :=
  h.filterMap fun e => match e.2 with
    | .handed b content => some (b, content)
    | _ => none

/-- The packets published since the processor was last cleaned up. -/
def pending (h : Prot2History) : List (BuffId × Prot2Buffer) :=
  h.foldl (fun acc e => match e.2 with
    | .published b content => acc ++ [(b, content)]
    | .cleared => []
    | _ => acc) []

end Prot2History

/-! ### What one byte does -/

namespace Prot2Processor

variable {p q r : Prot2Processor} {c : UInt8} {now : UInt32} {clk clk' : Prot2Clock}

/-- A byte is stored at the counter, in the active buffer. -/
theorem push_eq_some (h : p.push c = some r) :
    ∃ v, (p.buffer p.buff).store p.cntr c = some v ∧
      r = { p with buffer := Function.update p.buffer p.buff v, cntr := p.cntr + 1 } := by
  obtain ⟨v, hv, hr⟩ := Option.map_eq_some_iff.mp h
  exact ⟨v, hv, hr.symm⟩

/-- A byte can be stored while the counter is below the size of the buffer. -/
theorem push_isSome_iff : (p.push c).isSome = true ↔ p.cntr < IPGLB2_MAX_BUFFER := by
  rw [push, Option.isSome_map]
  exact ByteBuffer.store_isSome_iff

/-- Storing a byte moves the counter and nothing else outside the buffers. -/
theorem push_frame (h : p.push c = some r) :
    r.mode = p.mode ∧ r.buff = p.buff ∧ r.cntr = p.cntr + 1 ∧ r.expectedLen = p.expectedLen ∧
      r.requestReady = p.requestReady ∧ r.replyReady = p.replyReady ∧
      r.buffCopy = p.buffCopy := by
  obtain ⟨v, -, rfl⟩ := push_eq_some h
  exact ⟨rfl, rfl, rfl, rfl, rfl, rfl, rfl⟩

/-- A cleanup withdraws the request. -/
@[simp] theorem cleanup_requestReady : (ipglbProt2Cleanup p).requestReady = false := rfl

/-- A cleanup leaves the packet handed over last where it is. -/
@[simp] theorem cleanup_buffCopy : (ipglbProt2Cleanup p).buffCopy = p.buffCopy := rfl

/-- A cleanup leaves the buffers as they are. -/
@[simp] theorem cleanup_buffer : (ipglbProt2Cleanup p).buffer = p.buffer := rfl

/-- A cleanup leaves the mode alone. -/
@[simp] theorem cleanup_mode : (ipglbProt2Cleanup p).mode = p.mode := rfl

/-- A cleaned up processor waits for a length byte. -/
@[simp] theorem cleanup_receive : (ipglbProt2Cleanup p).receive = .listenLength := rfl

/-- Everything one byte can do. -/
inductive Received (p : Prot2Processor) (now : UInt32) (clk : Prot2Clock) (c : UInt8) :
    Prot2Processor → Prot2Clock → Prop
  | length {r : Prot2Processor} : p.receive = .listenLength → p.push c = some r →
      Received p now clk c { r with expectedLen := c, receive := .listenFunc } ⟨now, now⟩
  | funcLate : p.receive = .listenFunc → PROT2_TIMEOUT < now - clk.startTime →
      Received p now clk c (ipglbProt2Cleanup p) { clk with currentTime := now }
  | func {r : Prot2Processor} : p.receive = .listenFunc →
      ¬ PROT2_TIMEOUT < now - clk.startTime → p.push c = some r →
      Received p now clk c { r with receive := .listenCmd } ⟨now, now⟩
  | cmdRefused {r : Prot2Processor} {current : UInt32} : p.receive = .listenCmd →
      p.push c = some r → (validCommand c = true → PROT2_TIMEOUT < now - clk.startTime) →
      Received p now clk c (ipglbProt2Cleanup r) { clk with currentTime := current }
  | cmd {r : Prot2Processor} : p.receive = .listenCmd → p.push c = some r →
      validCommand c = true → ¬ PROT2_TIMEOUT < now - clk.startTime →
      Received p now clk c { r with receive := .listenPayload } ⟨now, now⟩
  | packetEnd {r : Prot2Processor} : p.receive = .listenPayload → p.push c = some r →
      r.cntr = r.expectedLen.toNat → Received p now clk c r.publish clk
  | payload {r : Prot2Processor} : p.receive = .listenPayload → p.push c = some r →
      r.cntr ≠ r.expectedLen.toNat →
      Received p now clk c { r with receive := .listenPayload } clk

/-- **The step lemma**: a byte does one of these things. -/
theorem received (h : ipglbProt2Receive p now clk c = some (q, clk')) :
    Received p now clk c q clk' := by
  rw [ipglbProt2Receive] at h
  cases hrec : p.receive with
  | listenLength =>
      simp only [hrec] at h
      obtain ⟨r, hr, he⟩ := Option.map_eq_some_iff.mp h
      obtain ⟨rfl, rfl⟩ := Prod.mk.inj he
      exact .length hrec hr
  | listenFunc =>
      simp only [hrec, listenFunc, Prot2Clock.expired] at h
      by_cases hlate : PROT2_TIMEOUT < now - clk.startTime
      · simp only [hlate, decide_true, if_true, Option.some.injEq] at h
        obtain ⟨rfl, rfl⟩ := Prod.mk.inj h
        exact .funcLate hrec hlate
      · simp only [hlate, decide_false, Bool.false_eq_true, if_false] at h
        obtain ⟨r, hr, he⟩ := Option.map_eq_some_iff.mp h
        obtain ⟨rfl, rfl⟩ := Prod.mk.inj he
        exact .func hrec hlate hr
  | listenCmd =>
      simp only [hrec, listenCmd] at h
      obtain ⟨r, hr, he⟩ := Option.map_eq_some_iff.mp h
      by_cases hv : validCommand c = true
      · by_cases hlate : PROT2_TIMEOUT < now - clk.startTime
        · simp only [hv, Prot2Clock.expired, hlate, decide_true, if_true] at he
          obtain ⟨rfl, rfl⟩ := Prod.mk.inj he
          exact .cmdRefused hrec hr fun _ => hlate
        · simp only [hv, Prot2Clock.expired, hlate, decide_false, Bool.false_eq_true,
            if_true, if_false] at he
          obtain ⟨rfl, rfl⟩ := Prod.mk.inj he
          exact .cmd hrec hr hv hlate
      · rw [if_neg hv] at he
        obtain ⟨rfl, rfl⟩ := Prod.mk.inj he
        exact .cmdRefused hrec hr fun h => absurd h hv
  | listenPayload =>
      simp only [hrec] at h
      obtain ⟨r, hr, he⟩ := Option.map_eq_some_iff.mp h
      obtain ⟨rfl, rfl⟩ := Prod.mk.inj he
      obtain ⟨r', hr', rfl⟩ := Option.map_eq_some_iff.mp hr
      split
      · next hend => exact .packetEnd hrec hr' hend
      · next hmore => exact .payload hrec hr' hmore

/-- A byte has a defined effect while the counter lies inside the buffer. -/
theorem receive_defined (h : p.cntr < IPGLB2_MAX_BUFFER) (now : UInt32) (clk : Prot2Clock)
    (c : UInt8) : ∃ q clk', ipglbProt2Receive p now clk c = some (q, clk') := by
  have hpush : (p.push c).isSome = true := push_isSome_iff.mpr h
  have hsome : (ipglbProt2Receive p now clk c).isSome = true := by
    rw [ipglbProt2Receive]
    cases p.receive with
    | listenLength => simp [listenLength, hpush]
    | listenFunc =>
        simp only [listenFunc]
        split
        · rfl
        · simp [hpush]
    | listenCmd => simp [listenCmd, hpush]
    | listenPayload => simp [listenPayload, hpush]
  obtain ⟨⟨q, clk'⟩, hq⟩ := Option.isSome_iff_exists.mp hsome
  exact ⟨q, clk', hq⟩

/-- The clock matters by what it says about a header byte. -/
theorem receive_congr (clk₁ : Prot2Clock)
    (hjudge : p.receive = .listenFunc ∨ p.receive = .listenCmd →
      (PROT2_TIMEOUT < now - clk.startTime ↔ PROT2_TIMEOUT < now - clk₁.startTime))
    (h : ipglbProt2Receive p now clk c = some (q, clk')) :
    ∃ clk₂, ipglbProt2Receive p now clk₁ c = some (q, clk₂) := by
  cases received h with
  | length hrec hr => exact ⟨⟨now, now⟩, by simp [ipglbProt2Receive, hrec, listenLength, hr]⟩
  | funcLate hrec hlate =>
      have hlate₁ := (hjudge (Or.inl hrec)).mp hlate
      refine ⟨{ clk₁ with currentTime := now }, ?_⟩
      simp [ipglbProt2Receive, hrec, listenFunc, Prot2Clock.expired, hlate₁]
  | func hrec hlate hr =>
      have hlate₁ := mt (hjudge (Or.inl hrec)).mpr hlate
      refine ⟨⟨now, now⟩, ?_⟩
      simp [ipglbProt2Receive, hrec, listenFunc, Prot2Clock.expired, hlate₁, hr]
  | cmdRefused hrec hr hno =>
      by_cases hv : validCommand c = true
      · have hlate₁ := (hjudge (Or.inr hrec)).mp (hno hv)
        refine ⟨{ clk₁ with currentTime := now }, ?_⟩
        simp [ipglbProt2Receive, hrec, listenCmd, Prot2Clock.expired, hlate₁, hv, hr]
      · exact ⟨clk₁, by simp [ipglbProt2Receive, hrec, listenCmd, hv, hr]⟩
  | cmd hrec hr hv hlate =>
      have hlate₁ := mt (hjudge (Or.inr hrec)).mpr hlate
      refine ⟨⟨now, now⟩, ?_⟩
      simp [ipglbProt2Receive, hrec, listenCmd, Prot2Clock.expired, hlate₁, hv, hr]
  | packetEnd hrec hr hend =>
      exact ⟨clk₁, by simp [ipglbProt2Receive, hrec, listenPayload, hr, hend]⟩
  | payload hrec hr hmore =>
      exact ⟨clk₁, by simp [ipglbProt2Receive, hrec, listenPayload, hr, hmore]⟩

/-- No byte changes who speaks first. -/
theorem receive_mode (h : ipglbProt2Receive p now clk c = some (q, clk')) :
    q.mode = p.mode := by
  cases received h with
  | length _ hr => exact (push_frame hr).1
  | funcLate => rfl
  | func _ _ hr => exact (push_frame hr).1
  | cmdRefused _ hr => exact (push_frame hr).1
  | cmd _ hr => exact (push_frame hr).1
  | packetEnd _ hr => exact (push_frame hr).1
  | payload _ hr => exact (push_frame hr).1

/-- Inside a header the clock keeps the time of the last byte. -/
theorem receive_clock (h : ipglbProt2Receive p now clk c = some (q, clk'))
    (hhead : q.receive = .listenFunc ∨ q.receive = .listenCmd) : clk'.startTime = now := by
  cases received h with
  | length => rfl
  | funcLate => exact absurd hhead (by simp)
  | func => rfl
  | cmdRefused => exact absurd hhead (by simp)
  | cmd => rfl
  | packetEnd => exact absurd hhead (by simp [publish])
  | payload => exact absurd hhead (by simp)

/-- A byte that completes no packet hands nothing over and raises no flag. -/
theorem receive_quiet (h : ipglbProt2Receive p now clk c = some (q, clk'))
    (hc : p.completes = false) :
    q.buffCopy = p.buffCopy ∧ (q.requestReady = true → p.requestReady = true) := by
  have hpush : ∀ {r : Prot2Processor}, p.push c = some r →
      r.buffCopy = p.buffCopy ∧ (r.requestReady = true → p.requestReady = true) := by
    intro r hr
    obtain ⟨-, -, -, -, hready, -, hcopy⟩ := push_frame hr
    exact ⟨hcopy, fun h => hready ▸ h⟩
  cases received h with
  | length _ hr =>
      obtain ⟨hcopy, hready⟩ := hpush hr
      exact ⟨hcopy, hready⟩
  | funcLate => exact ⟨rfl, fun h => absurd h (by simp)⟩
  | func _ _ hr =>
      obtain ⟨hcopy, hready⟩ := hpush hr
      exact ⟨hcopy, hready⟩
  | cmdRefused _ hr => exact ⟨(hpush hr).1, fun h => absurd h (by simp)⟩
  | cmd _ hr =>
      obtain ⟨hcopy, hready⟩ := hpush hr
      exact ⟨hcopy, hready⟩
  | packetEnd hrec hr hend =>
      obtain ⟨-, -, hcntr, hlen, -, -, -⟩ := push_frame hr
      rw [hcntr, hlen] at hend
      exact absurd hc (by simp [completes, hrec, hend])
  | payload _ hr =>
      obtain ⟨hcopy, hready⟩ := hpush hr
      exact ⟨hcopy, hready⟩

end Prot2Processor

end Muxponder

import Muxponder.KursService
import Muxponder.Prot2Bound

/-!
# Three Processors on Two UARTs

`callback_uart_rrdy` hands every received word to one of three processors: bit 8 tells the
bytes of the IPGLB2 master from those of the KURS processor on the ARM line, and the DVT
line has a PROT2 slave of its own. The processors are separate objects, but the two PROT2
processors are judged by one pair of time variables: a header byte of the one renews the
start time of the other, and a byte that is late for its own packet passes as being in
time.

A processor is therefore isolated as long as each of its header bytes is judged as its own
last byte would have it (`JudgedAlone`); the KURS processor has no clock and always is.

## Main results

* `uart_isolated`: two runs that agree on the bytes of one processor agree on what it
  publishes, when it is judged alone in both.
* `not_uart_isolated`: a byte to the one PROT2 processor makes the other publish a packet
  it would have given up.
-/

namespace Muxponder

/-- The bit of a received word that addresses the IPGLB2 master. -/
def BIT8 : UInt16 := 0x100

/-- The lines. -/
inductive Uart
  | armUart
  | dvtUart
  deriving DecidableEq, Repr

/-- The processors. -/
inductive UartPort
  | armProcessor
  | kursReqProcessor
  | dvtProcessor
  deriving DecidableEq, Repr

/-- The three processors and the clock of the PROT2 file. -/
structure UartSystem where
  armProcessor : Prot2Processor
  kursReqProcessor : KursProcessor
  dvtProcessor : Prot2Processor
  clock : Prot2Clock

/-- A word received on a line. -/
structure UartEvent where
  uart : Uart
  time : ℕ
  data : UInt16
  deriving DecidableEq, Repr

/-- What a received word makes visible, as its processor tells it. -/
inductive UartObs
  | prot2 (o : Prot2Obs)
  | kurs (o : KursObs)

/-- `BIT_IS_SET(data, mask)`. -/
def bitIsSet (data mask : UInt16) : Bool := data &&& mask == mask

/-- The processor a word is addressed to. -/
def UartEvent.port (e : UartEvent) : UartPort :=
  match e.uart with
  | .armUart => if bitIsSet e.data BIT8 then .armProcessor else .kursReqProcessor
  | .dvtUart => .dvtProcessor

/-- `callback_uart_rrdy`. -/
def callbackUartRrdy (s : UartSystem) (now : UInt32) (uart : Uart) (data : UInt16) :
    Option UartSystem :=
  match uart with
  | .armUart =>
      if bitIsSet data BIT8 then
        (ipglbProt2Receive s.armProcessor now s.clock data.toUInt8).map fun r =>
          { s with armProcessor := r.1, clock := r.2 }
      else
        (kursReceive s.kursReqProcessor data.toUInt8).map fun p =>
          { s with kursReqProcessor := p }
  | .dvtUart =>
      (ipglbProt2Receive s.dvtProcessor now s.clock data.toUInt8).map fun r =>
        { s with dvtProcessor := r.1, clock := r.2 }

/-- What a PROT2 processor publishes on its way from `p` to `q`. -/
def prot2Publication (p q : Prot2Processor) : Prot2Obs :=
  if p.completes then .published p.buff (q.buffer p.buff) else .quiet

/-- What the KURS processor publishes on its way from `p` to `q`. -/
def kursPublication (p q : KursProcessor) (data : UInt8) : KursObs :=
  if completes p data then .published p.buff (q.buffer p.buff) else .quiet

/-- The observation of a received word. -/
def uartObs (s s' : UartSystem) (e : UartEvent) : UartObs :=
  match e.port with
  | .armProcessor => .prot2 (prot2Publication s.armProcessor s'.armProcessor)
  | .kursReqProcessor =>
      .kurs (kursPublication s.kursReqProcessor s'.kursReqProcessor e.data.toUInt8)
  | .dvtProcessor => .prot2 (prot2Publication s.dvtProcessor s'.dvtProcessor)

/-- The machine of the two lines. -/
def uartMachine : Machine UartSystem UartEvent UartObs where
  step s e := (callbackUartRrdy s (altNticks e.time) e.uart e.data).map fun s' =>
    (s', uartObs s s' e)

/-- The three processors at start-up; `mem` are the buffers of the PROT2 processors. -/
def uartInit (sop : UInt8) (mem1 mem2 : Buffer) (mem : UartPort → BuffId → Prot2Buffer) :
    UartSystem where
  armProcessor := ipglbProt2ProcessorInit .master (mem .armProcessor)
  kursReqProcessor := kursProcessorInit sop mem1 mem2
  dvtProcessor := ipglbProt2ProcessorInit .slave (mem .dvtProcessor)
  clock := ⟨0, 0⟩

/-- A history of received words. -/
abbrev UartHistory := List (UartEvent × UartObs)

namespace UartHistory

/-- The bytes addressed to a processor along a history, with their arrival times. -/
def addressed (port : UartPort) (h : UartHistory) : List (ℕ × UInt8) :=
  h.filterMap fun e =>
    if e.1.port = port then some (e.1.time, e.1.data.toUInt8) else none

/-- The packets a processor publishes along a history, with their buffers. -/
def published (port : UartPort) (h : UartHistory) : List (BuffId × List UInt8) :=
  h.filterMap fun e => if e.1.port = port then
    match e.2 with
    | .prot2 (.published b v) => some (b, v.toList)
    | .kurs (.published b v) => some (b, v.toList)
    | _ => none
  else none

end UartHistory

/-- The PROT2 processor of a port. -/
def UartSystem.prot2 (s : UartSystem) : UartPort → Option Prot2Processor
  | .armProcessor => some s.armProcessor
  | .kursReqProcessor => none
  | .dvtProcessor => some s.dvtProcessor

/-- The time of the last of some bytes, as `alt_nticks()` gave it. -/
def lastTicks (arrivals : List (ℕ × UInt8)) : UInt32 :=
  (arrivals.getLast?.map fun b => altNticks b.1).getD 0

/-- Every header byte of the processor is judged in the run as its own last byte would have
it: the shared start time and the time of that byte agree on whether it is late. -/
def JudgedAlone (s₀ : UartSystem) (port : UartPort) (h : UartHistory) : Prop :=
  ∀ h' e o rest s p, h = h' ++ (e, o) :: rest → uartMachine.Run s₀ h' s → e.port = port →
    s.prot2 port = some p → p.receive = .listenFunc ∨ p.receive = .listenCmd →
    (PROT2_TIMEOUT < altNticks e.time - s.clock.startTime ↔
      PROT2_TIMEOUT < altNticks e.time - lastTicks (UartHistory.addressed port h'))

/-! ### One word -/

section Step

variable {s s' : UartSystem} {e : UartEvent} {o : UartObs} {port : UartPort}

/-- A word is received by its processor and leaves the others alone. -/
theorem uart_step (h : uartMachine.step s e = some (s', o)) :
    o = uartObs s s' e ∧ match e.port with
      | .armProcessor => s'.kursReqProcessor = s.kursReqProcessor ∧
          s'.dvtProcessor = s.dvtProcessor ∧
          ipglbProt2Receive s.armProcessor (altNticks e.time) s.clock e.data.toUInt8 =
            some (s'.armProcessor, s'.clock)
      | .kursReqProcessor => s'.armProcessor = s.armProcessor ∧
          s'.dvtProcessor = s.dvtProcessor ∧ s'.clock = s.clock ∧
          kursReceive s.kursReqProcessor e.data.toUInt8 = some s'.kursReqProcessor
      | .dvtProcessor => s'.armProcessor = s.armProcessor ∧
          s'.kursReqProcessor = s.kursReqProcessor ∧
          ipglbProt2Receive s.dvtProcessor (altNticks e.time) s.clock e.data.toUInt8 =
            some (s'.dvtProcessor, s'.clock) := by
  obtain ⟨m, hm, he⟩ := Option.map_eq_some_iff.mp h
  obtain ⟨rfl, rfl⟩ := Prod.mk.inj he
  refine ⟨rfl, ?_⟩
  rw [UartEvent.port]
  cases hu : e.uart with
  | armUart =>
      simp only [callbackUartRrdy, hu] at hm
      cases hbit : bitIsSet e.data BIT8 with
      | true =>
          simp only [hbit, if_true] at hm
          obtain ⟨⟨q, clk⟩, hq, rfl⟩ := Option.map_eq_some_iff.mp hm
          exact ⟨rfl, rfl, hq⟩
      | false =>
          simp only [hbit, Bool.false_eq_true, if_false] at hm
          obtain ⟨q, hq, rfl⟩ := Option.map_eq_some_iff.mp hm
          exact ⟨rfl, rfl, rfl, hq⟩
  | dvtUart =>
      simp only [callbackUartRrdy, hu] at hm
      obtain ⟨⟨q, clk⟩, hq, rfl⟩ := Option.map_eq_some_iff.mp hm
      exact ⟨rfl, rfl, hq⟩

/-- A word to another processor leaves a PROT2 processor as it is. -/
theorem uart_prot2_other (h : uartMachine.step s e = some (s', o)) (hport : e.port ≠ port) :
    s'.prot2 port = s.prot2 port := by
  obtain ⟨-, hstep⟩ := uart_step h
  cases hp : e.port with
  | armProcessor =>
      rw [hp] at hstep hport
      cases port <;> simp_all [UartSystem.prot2]
  | kursReqProcessor =>
      rw [hp] at hstep hport
      cases port <;> simp_all [UartSystem.prot2]
  | dvtProcessor =>
      rw [hp] at hstep hport
      cases port <;> simp_all [UartSystem.prot2]

/-- A word to a PROT2 processor is received by it. -/
theorem uart_prot2_own {p : Prot2Processor} (h : uartMachine.step s e = some (s', o))
    (hport : e.port = port) (hp : s.prot2 port = some p) :
    ∃ q, ipglbProt2Receive p (altNticks e.time) s.clock e.data.toUInt8 = some (q, s'.clock) ∧
      s'.prot2 port = some q ∧ o = .prot2 (prot2Publication p q) := by
  obtain ⟨rfl, hstep⟩ := uart_step h
  subst hport
  rw [uartObs]
  cases hq : e.port with
  | armProcessor =>
      rw [hq] at hp hstep
      obtain rfl : s.armProcessor = p := Option.some.inj hp
      exact ⟨_, hstep.2.2, rfl, rfl⟩
  | kursReqProcessor =>
      rw [hq] at hp
      exact absurd hp (by simp [UartSystem.prot2])
  | dvtProcessor =>
      rw [hq] at hp hstep
      obtain rfl : s.dvtProcessor = p := Option.some.inj hp
      exact ⟨_, hstep.2.2, rfl, rfl⟩

end Step

/-! ### One processor of a run -/

/-- What a PROT2 processor sees of a history. -/
def toProt2 (port : UartPort) (e : UartEvent × UartObs) : Option (Prot2Event × Prot2Obs) :=
  if e.1.port = port then
    some (.byte e.1.time e.1.data.toUInt8, match e.2 with
      | .prot2 o => o
      | .kurs _ => .quiet)
  else none

/-- What the KURS processor sees of a history. -/
def toKurs (e : UartEvent × UartObs) : Option (KursEvent × KursObs) :=
  if e.1.port = .kursReqProcessor then
    some (.byte e.1.data.toUInt8, match e.2 with
      | .prot2 _ => .quiet
      | .kurs o => o)
  else none

section Projection

variable {s₀ s : UartSystem} {h h' : UartHistory} {port : UartPort}

/-- The events of a PROT2 processor are the bytes addressed to it. -/
theorem toProt2_events (port : UartPort) (h : UartHistory) :
    (h.filterMap (toProt2 port)).map Prod.fst = arrive (h.addressed port) := by
  induction h with
  | nil => rfl
  | cons e h ih =>
      simp only [UartHistory.addressed, arrive] at ih ⊢
      by_cases hp : e.1.port = port
      · simp [toProt2, hp, ih]
      · simp [toProt2, hp, ih]

/-- The events of the KURS processor are the bytes addressed to it. -/
theorem toKurs_events (h : UartHistory) :
    (h.filterMap toKurs).map Prod.fst =
      (h.addressed .kursReqProcessor).map fun b => .byte b.2 := by
  induction h with
  | nil => rfl
  | cons e h ih =>
      simp only [UartHistory.addressed] at ih ⊢
      by_cases hp : e.1.port = .kursReqProcessor
      · simp [toKurs, hp, ih]
      · simp [toKurs, hp, ih]

/-- Along a run a PROT2 processor is told about by its own observations. -/
theorem prot2_obs_run (hport : port ≠ .kursReqProcessor) (hr : uartMachine.Run s₀ h s) :
    ∀ e ∈ h, e.1.port = port → ∃ o, e.2 = .prot2 o := by
  refine hr.invariant (I := fun h _ => ∀ e ∈ h, e.1.port = port → ∃ o, e.2 = .prot2 o)
    (by simp) ?_
  rintro h s e s' o - hI hstep
  obtain ⟨rfl, -⟩ := uart_step hstep
  simp only [List.mem_append, List.mem_singleton]
  rintro e' (he | rfl) hp
  · exact hI e' he hp
  · subst hp
    rw [uartObs]
    cases hq : e.port with
    | armProcessor => exact ⟨_, rfl⟩
    | kursReqProcessor => exact absurd hq hport
    | dvtProcessor => exact ⟨_, rfl⟩

/-- Along a run the KURS processor is told about by its own observations. -/
theorem kurs_obs_run (hr : uartMachine.Run s₀ h s) :
    ∀ e ∈ h, e.1.port = .kursReqProcessor → ∃ o, e.2 = .kurs o := by
  refine hr.invariant (I := fun h _ => ∀ e ∈ h, e.1.port = .kursReqProcessor →
    ∃ o, e.2 = .kurs o) (by simp) ?_
  rintro h s e s' o - hI hstep
  obtain ⟨rfl, -⟩ := uart_step hstep
  simp only [List.mem_append, List.mem_singleton]
  rintro e' (he | rfl) hp
  · exact hI e' he hp
  · refine ⟨kursPublication s.kursReqProcessor s'.kursReqProcessor e.data.toUInt8, ?_⟩
    have hport : e.port = .kursReqProcessor := hp
    simp only [uartObs, hport]

/-- What a PROT2 processor publishes is what it sees published. -/
theorem published_toProt2 (hobs : ∀ e ∈ h, e.1.port = port → ∃ o, e.2 = .prot2 o) :
    h.published port =
      (Prot2History.published (h.filterMap (toProt2 port))).map fun r => (r.1, r.2.toList) := by
  induction h with
  | nil => rfl
  | cons e h ih =>
      have ih := ih fun e he => hobs e (List.mem_cons_of_mem _ he)
      simp only [UartHistory.published, Prot2History.published] at ih ⊢
      by_cases hp : e.1.port = port
      · obtain ⟨o, ho⟩ := hobs e (by simp) hp
        cases o <;> simp [toProt2, hp, ho, ih]
      · simp [toProt2, hp, ih]

/-- What the KURS processor publishes is what it sees published. -/
theorem published_toKurs (hobs : ∀ e ∈ h, e.1.port = .kursReqProcessor → ∃ o, e.2 = .kurs o) :
    h.published .kursReqProcessor =
      (publishedOf (h.filterMap toKurs)).map fun r => (r.1, r.2.toList) := by
  induction h with
  | nil => rfl
  | cons e h ih =>
      have ih := ih fun e he => hobs e (List.mem_cons_of_mem _ he)
      simp only [UartHistory.published, publishedOf] at ih ⊢
      by_cases hp : e.1.port = .kursReqProcessor
      · obtain ⟨o, ho⟩ := hobs e (by simp) hp
        cases o <;> simp [toKurs, hp, ho, ih]
      · simp [toKurs, hp, ih]

/-- The last byte received is the last byte that arrived. -/
theorem received_last (h : Prot2History) : h.received.1.last = lastTicks h.arrivals := by
  induction h using List.reverseRecOn with
  | nil => rfl
  | append_singleton h e ih =>
      obtain ⟨e, o⟩ := e
      cases e with
      | byte t c =>
          rw [Prot2History.received_byte, arrivals_byte]
          simp [Reception.feed, lastTicks]
      | service =>
          rw [arrivals_service, ← ih]
          cases o <;> simp [Prot2History.received]
      | cleanup =>
          have harr : Prot2History.arrivals (h ++ [(.cleanup, o)]) = Prot2History.arrivals h := by
            simp [Prot2History.arrivals]
          rw [harr, ← ih]
          cases o <;> simp [Prot2History.received]

/-- **A PROT2 processor alone**: where it is judged alone, it does in a run what it does on
its own bytes alone. -/
theorem prot2_alone {mode : Prot2Mode} {mem : BuffId → Prot2Buffer}
    (hinit : s₀.prot2 port = some (ipglbProt2ProcessorInit mode mem))
    (hr : uartMachine.Run s₀ h s) (hj : JudgedAlone s₀ port h) :
    ∃ t, prot2Machine.Run (prot2Init mode mem) (h.filterMap (toProt2 port)) t ∧
      s.prot2 port = some t.proc := by
  have h0 : s₀.prot2 port = some (prot2Init mode mem).proc := hinit
  refine hr.project (N := prot2Machine) (R := fun s t => s.prot2 port = some t.proc)
    (P := fun h s e => ∀ p, e.port = port → s.prot2 port = some p →
      p.receive = .listenFunc ∨ p.receive = .listenCmd →
      (PROT2_TIMEOUT < altNticks e.time - s.clock.startTime ↔
        PROT2_TIMEOUT < altNticks e.time - lastTicks (UartHistory.addressed port h)))
    (toProt2 port) h0 ?_ ?_
    fun h' e o rest s hh hr' p => hj h' e o rest s p hh hr'
  · intro s e o s' t hR hstep hnone
    have hport : e.port ≠ port := fun hp => by simp [toProt2, hp] at hnone
    rw [uart_prot2_other hstep hport, hR]
  · rintro h s e o s' t k x - ht hP hR hstep hsome
    by_cases hport : e.port = port
    · simp only [toProt2, hport, if_true, Option.some.injEq, Prod.mk.injEq] at hsome
      obtain ⟨rfl, rfl⟩ := hsome
      obtain ⟨q, hq, hs', rfl⟩ := uart_prot2_own hstep hport hR
      obtain ⟨hat, -, -⟩ := prot2_standsAt_run ht
      have harr := arrivals_arrive (toProt2_events port h)
      obtain ⟨clk, hq'⟩ := Prot2Processor.receive_congr t.clock (fun hhead => by
        rw [hP t.proc hport hR hhead, hat.clock hhead, received_last, harr]) hq
      exact ⟨_, prot2_byte_step hq', hs'⟩
    · simp [toProt2, hport] at hsome

/-- **The KURS processor alone**: it does in a run what it does on its own bytes alone. -/
theorem kurs_alone {sop : UInt8} {mem1 mem2 : Buffer}
    (hinit : s₀.kursReqProcessor = kursProcessorInit sop mem1 mem2)
    (hr : uartMachine.Run s₀ h s) :
    ∃ t, (kursMachine id).Run (kursInit sop mem1 mem2) (h.filterMap toKurs) t ∧
      s.kursReqProcessor = t.proc := by
  have h0 : s₀.kursReqProcessor = (kursInit sop mem1 mem2).proc := hinit
  refine hr.project (N := kursMachine id) (R := fun s t => s.kursReqProcessor = t.proc)
    (P := fun _ _ _ => True) toKurs h0 ?_ ?_ fun _ _ _ _ _ _ _ => trivial
  · intro s e o s' t hR hstep hnone
    have hport : e.port ≠ .kursReqProcessor := fun hp => by simp [toKurs, hp] at hnone
    obtain ⟨-, hstep⟩ := uart_step hstep
    cases hq : e.port with
    | armProcessor =>
        rw [hq] at hstep
        rw [hstep.1, hR]
    | kursReqProcessor => exact absurd hq hport
    | dvtProcessor =>
        rw [hq] at hstep
        rw [hstep.2.1, hR]
  · rintro h s e o s' t k x - - - hR hstep hsome
    by_cases hport : e.port = .kursReqProcessor
    · simp only [toKurs, hport, if_true, Option.some.injEq, Prod.mk.injEq] at hsome
      obtain ⟨rfl, rfl⟩ := hsome
      obtain ⟨rfl, hkurs⟩ := uart_step hstep
      rw [hport] at hkurs
      have hq := hkurs.2.2.2
      rw [hR] at hq
      refine ⟨⟨s'.kursReqProcessor, t.phase⟩, (byte_step hq).trans ?_, rfl⟩
      simp only [uartObs, hport, kursPublication, hR]
    · simp [toKurs, hport] at hsome

end Projection

/-! ### Two runs -/

section TwoRuns

variable {sop : UInt8} {mem1 mem2 : Buffer} {mem : UartPort → BuffId → Prot2Buffer}
  {s s' : UartSystem} {h h' : UartHistory} {port : UartPort}

/-- Two runs that agree on the bytes of a PROT2 processor agree on what it publishes, when
it is judged alone in both. -/
theorem prot2_isolated {s₀ : UartSystem} {mode : Prot2Mode} {mem : BuffId → Prot2Buffer}
    (hinit : s₀.prot2 port = some (ipglbProt2ProcessorInit mode mem))
    (hr : uartMachine.Run s₀ h s) (hr' : uartMachine.Run s₀ h' s')
    (hagree : h.addressed port = h'.addressed port) (hj : JudgedAlone s₀ port h)
    (hj' : JudgedAlone s₀ port h') : h.published port = h'.published port := by
  have hport : port ≠ .kursReqProcessor := by
    rintro rfl
    exact absurd hinit (by simp [UartSystem.prot2])
  obtain ⟨t, ht, -⟩ := prot2_alone hinit hr hj
  obtain ⟨t', ht', -⟩ := prot2_alone hinit hr' hj'
  have hsame := ht.unique ht' (by rw [toProt2_events, toProt2_events, hagree])
  rw [published_toProt2 (prot2_obs_run hport hr), published_toProt2 (prot2_obs_run hport hr'),
    hsame]

/-- Two runs that agree on the bytes of the KURS processor agree on what it publishes. -/
theorem kurs_isolated (hr : uartMachine.Run (uartInit sop mem1 mem2 mem) h s)
    (hr' : uartMachine.Run (uartInit sop mem1 mem2 mem) h' s')
    (hagree : h.addressed .kursReqProcessor = h'.addressed .kursReqProcessor) :
    h.published .kursReqProcessor = h'.published .kursReqProcessor := by
  obtain ⟨t, ht, -⟩ := kurs_alone rfl hr
  obtain ⟨t', ht', -⟩ := kurs_alone rfl hr'
  have hsame := ht.unique ht' (by rw [toKurs_events, toKurs_events, hagree])
  rw [published_toKurs (kurs_obs_run hr), published_toKurs (kurs_obs_run hr'), hsame]

/-- **Isolation**: two runs that agree on the bytes addressed to a processor, and on their
arrival times, agree on what it publishes, as long as a PROT2 processor is judged alone in
both. -/
theorem uart_isolated (hr : uartMachine.Run (uartInit sop mem1 mem2 mem) h s)
    (hr' : uartMachine.Run (uartInit sop mem1 mem2 mem) h' s')
    (hagree : h.addressed port = h'.addressed port)
    (hj : JudgedAlone (uartInit sop mem1 mem2 mem) port h)
    (hj' : JudgedAlone (uartInit sop mem1 mem2 mem) port h') :
    h.published port = h'.published port := by
  cases port with
  | armProcessor =>
      have hinit : (uartInit sop mem1 mem2 mem).prot2 .armProcessor =
        some (ipglbProt2ProcessorInit .master (mem .armProcessor)) := rfl
      exact prot2_isolated hinit hr hr' hagree hj hj'
  | kursReqProcessor => exact kurs_isolated hr hr' hagree
  | dvtProcessor =>
      have hinit : (uartInit sop mem1 mem2 mem).prot2 .dvtProcessor =
        some (ipglbProt2ProcessorInit .slave (mem .dvtProcessor)) := rfl
      exact prot2_isolated hinit hr hr' hagree hj hj'

end TwoRuns

/-- A PROT2 processor is judged alone while nothing arrives for the other one. -/
theorem judgedAlone_of_sole {s₀ : UartSystem} {port : UartPort} {h : UartHistory}
    (h0 : ∀ p, s₀.prot2 port = some p → p.receive = .listenLength)
    (hsole : ∀ e ∈ h.map Prod.fst, e.port = port ∨ e.port = .kursReqProcessor) :
    JudgedAlone s₀ port h := by
  intro h' e o rest m p hh hm hport hp hhead
  have hclock : ∀ p, m.prot2 port = some p → p.receive = .listenFunc ∨ p.receive = .listenCmd →
      m.clock.startTime = lastTicks (UartHistory.addressed port h') := by
    refine hm.invariant (I := fun (h : UartHistory) s =>
      (∀ e ∈ h.map Prod.fst, e.port = port ∨ e.port = .kursReqProcessor) →
        ∀ p, s.prot2 port = some p →
        p.receive = .listenFunc ∨ p.receive = .listenCmd →
        s.clock.startTime = lastTicks (UartHistory.addressed port h))
      (fun _ p hp hhead => absurd hhead (by simp [h0 p hp])) ?_
      fun e he => hsole e (by rw [hh, List.map_append]; exact List.mem_append_left _ he)
    rintro h s e s' o - hI hstep hsole q hq hhead
    have hI := hI fun e he => hsole e (by rw [List.map_append]; exact List.mem_append_left _ he)
    by_cases hp : e.port = port
    · have hsome : s.prot2 port ≠ none := by
        intro hnone
        cases port with
        | armProcessor => exact absurd hnone (by simp [UartSystem.prot2])
        | kursReqProcessor => exact absurd hq (by simp [UartSystem.prot2])
        | dvtProcessor => exact absurd hnone (by simp [UartSystem.prot2])
      obtain ⟨p, hp'⟩ := Option.ne_none_iff_exists'.mp hsome
      obtain ⟨q', hrec, hq', -⟩ := uart_prot2_own hstep hp hp'
      obtain rfl : q' = q := Option.some.inj (hq'.symm.trans hq)
      rw [Prot2Processor.receive_clock hrec hhead]
      simp [UartHistory.addressed, lastTicks, hp]
    · have hkurs : e.port = .kursReqProcessor := (hsole e (by simp)).resolve_left hp
      have hother := uart_prot2_other hstep hp
      obtain ⟨-, hstep⟩ := uart_step hstep
      rw [hkurs] at hstep
      rw [hother] at hq
      rw [hstep.2.2.1, hI q hq hhead]
      simp [UartHistory.addressed, hp]
  rw [hclock p hp hhead]

/-- The words of a ping on the DVT line. -/
def dvtPing (gap : ℕ) : List UartEvent :=
  [⟨.dvtUart, 0, 4⟩, ⟨.dvtUart, gap, 0x0F⟩, ⟨.dvtUart, gap + 1, 0⟩, ⟨.dvtUart, gap + 2, 0x0B⟩]

/-- Whether a packet is published. -/
def UartObs.isPublication : UartObs → Bool
  | .prot2 (.published _ _) => true
  | .kurs (.published _ _) => true
  | _ => false

/-- The packets of a history are counted by its events and observations. -/
theorem published_length (port : UartPort) (h : UartHistory) :
    (h.published port).length =
      ((h.map Prod.fst).zip ((h.map Prod.snd).map UartObs.isPublication)).countP
        (fun e => decide (e.1.port = port) && e.2) := by
  induction h with
  | nil => rfl
  | cons e h ih =>
      obtain ⟨e, o⟩ := e
      simp only [UartHistory.published] at ih
      by_cases hp : e.port = port
      · rcases o with (_ | _ | _ | _) | (_ | _ | _ | _) <;>
          simp [UartHistory.published, UartObs.isPublication, hp, ih]
      · simp [UartHistory.published, hp, ih]

/-- The system the examples start from. -/
def uartZero : UartSystem :=
  uartInit 0x81 Buffer.zero Buffer.zero fun _ _ => ByteBuffer.zero

/-- A ping on the DVT line is published. -/
theorem dvtPing_exec : (uartMachine.exec uartZero (dvtPing 1)).map
    (fun r => r.2.map UartObs.isPublication) = some [false, false, false, true] := rfl

/-- A ping on the DVT line behind a byte to the KURS processor has a defined effect. -/
theorem kursDvtPing_exec :
    (uartMachine.exec uartZero (⟨.armUart, 0, 0x41⟩ :: dvtPing 1)).isSome = true := rfl

/-- The bytes addressed to a processor are read off the events. -/
theorem addressed_eq {h : UartHistory} {es : List UartEvent} (port : UartPort)
    (hev : h.map Prod.fst = es) :
    h.addressed port = es.filterMap fun e =>
      if e.port = port then some (e.time, e.data.toUInt8) else none := by
  subst hev
  rw [UartHistory.addressed, List.filterMap_map]
  rfl

/-- A ping on the DVT line is published alike with and without a byte to the KURS processor
in front of it. -/
theorem uart_isolated_ping : ∃ h h' s s', uartMachine.Run uartZero h s ∧
    uartMachine.Run uartZero h' s' ∧ h.length ≠ h'.length ∧
    (UartHistory.published .dvtProcessor h').length = 1 := by
  obtain ⟨⟨s, os⟩, hexec, hos⟩ := Option.map_eq_some_iff.mp dvtPing_exec
  obtain ⟨⟨s', os'⟩, hexec'⟩ := Option.isSome_iff_exists.mp kursDvtPing_exec
  obtain ⟨h, hr, hev, rfl⟩ := Machine.exec_eq_some_iff.mp hexec
  obtain ⟨h', hr', hev', -⟩ := Machine.exec_eq_some_iff.mp hexec'
  have h0 : ∀ p, uartZero.prot2 .dvtProcessor = some p → p.receive = .listenLength := by
    rintro p hp
    obtain rfl := Option.some.inj hp
    rfl
  have hsame := uart_isolated hr hr'
    (by rw [addressed_eq _ hev, addressed_eq _ hev']; rfl)
    (judgedAlone_of_sole h0 (by rw [hev]; decide))
    (judgedAlone_of_sole h0 (by rw [hev']; decide))
  refine ⟨h, h', s, s', hr, hr', ?_, ?_⟩
  · have hlen := congrArg List.length hev
    have hlen' := congrArg List.length hev'
    simp only [List.length_map, dvtPing, List.length_cons, List.length_nil] at hlen hlen'
    omega
  · rw [← hsame, published_length, hev, hos]
    rfl

/-- A ping whose function byte is late is given up. -/
theorem latePing_exec : (uartMachine.exec uartZero (dvtPing 20000)).map
    (fun r => r.2.map UartObs.isPublication) = some [false, false, false, false] := rfl

/-- It is published where a byte to the other PROT2 processor comes in between. -/
theorem renewedPing_exec :
    (uartMachine.exec uartZero (⟨.dvtUart, 0, 4⟩ :: ⟨.armUart, 15000, 0x104⟩ ::
      (dvtPing 20000).tail)).map (fun r => r.2.map UartObs.isPublication) =
    some [false, false, false, false, true] := rfl

/-- **The processors are not isolated**: a byte to the one PROT2 processor makes the other
publish a packet that it gives up without it. -/
theorem not_uart_isolated :
    ¬ ∀ (sop : UInt8) (mem1 mem2 : Buffer) (mem : UartPort → BuffId → Prot2Buffer)
      (h h' : UartHistory) (s s' : UartSystem) (port : UartPort),
      uartMachine.Run (uartInit sop mem1 mem2 mem) h s →
      uartMachine.Run (uartInit sop mem1 mem2 mem) h' s' →
      h.addressed port = h'.addressed port → h.published port = h'.published port := by
  intro hall
  obtain ⟨⟨s, os⟩, hexec, hos⟩ := Option.map_eq_some_iff.mp latePing_exec
  obtain ⟨⟨s', os'⟩, hexec', hos'⟩ := Option.map_eq_some_iff.mp renewedPing_exec
  obtain ⟨h, hr, hev, rfl⟩ := Machine.exec_eq_some_iff.mp hexec
  obtain ⟨h', hr', hev', rfl⟩ := Machine.exec_eq_some_iff.mp hexec'
  have hlen := congrArg List.length (hall _ _ _ _ h h' s s' .dvtProcessor hr hr'
    (by rw [addressed_eq _ hev, addressed_eq _ hev']; rfl))
  rw [published_length, published_length, hev, hev', hos, hos'] at hlen
  exact absurd hlen (by decide)

end Muxponder

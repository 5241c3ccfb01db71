import Muxponder.Prot2Bound

/-!
# Serving PROT2 Requests under Interrupts

`ipglb_prot2_service` ends with `ipglb_prot2_cleanup`, and that resets the listener as
well: the counter, the active buffer and the `receive` pointer belong to a packet that the
UART interrupt may already be receiving. Bytes that arrive between the end of a request
and its cleanup are thrown away, or complete a packet that takes the place of the request
being served.

Where no byte arrives in that window, the cleanup finds the listener between two packets,
and every packet of the stream is served once (`prot2_service_run`).

## Main results

* `prot2_service_run`: along every run in which no byte arrives while a request waits or
  is served, no request is torn, lost or misaligned.
* `prot2_service_discards`: a byte behind the reply and in front of the cleanup costs the
  packet it starts.
-/

namespace Muxponder

/-- The condition on a step: no byte arrives while a request waits or is served, and
nobody else cleans the processor up. -/
def Prot2Undisturbed (s : Prot2System) : Prot2Event → Prop
  | .byte _ _ => s.proc.requestReady = false
  | .service => True
  | .cleanup => False

/-- Serving and receiving do not disturb each other. -/
structure ServedOnce (mem : BuffId → Prot2Buffer) (h : Prot2History) (s : Prot2System) :
    Prop where
  /-- What is published and not cleaned up yet keeps its bytes. -/
  untorn : ∀ r ∈ h.pending, s.proc.buffer r.1 = r.2
  /-- Every cleanup finds the listener between two packets. -/
  aligned : ∀ h₁ e h₂ s₁, h = h₁ ++ (e, .cleared) :: h₂ →
    prot2Machine.Run (prot2Init .slave mem) h₁ s₁ →
    s₁.proc.receive = .listenLength ∧ s₁.proc.cntr = 0
  /-- The packets published are handed over once and in order, but for one that the next
  steps of `ipglb_prot2_service` hand over. -/
  handed : h.published = h.handed ∨ ∃ r, h.published = h.handed ++ [r] ∧
    ∃ s' os, prot2Machine.exec s [.service, .service] = some (s', os) ∧ .handed r.1 r.2 ∈ os
  /-- The packets of the stream are the packets published. -/
  stream : ∀ (pkts : List (List (ℕ × UInt8))) part pkt, h.arrivals = pkts.flatten ++ part →
    (∀ p ∈ pkts, WellFormedPacket (bytes p) ∧ Paced p) →
    WellFormedPacket (bytes pkt) → Paced pkt → part <+: pkt → part ≠ pkt →
    List.Forall₂ PublishedAs h.published (pkts.map bytes)

/-- A request is held in its buffer, and the listener stands between two packets. -/
structure Prot2Held (h : Prot2History) (p : Prot2Processor) (b : BuffId) : Prop where
  ready : p.requestReady = true
  alone : h.pending = [(b, p.buffer b)]
  receive : p.receive = .listenLength
  cntr : p.cntr = 0

/-- **The invariant of serving**, by the phase of `ipglb_prot2_service`. -/
def Prot2Serving (h : Prot2History) (s : Prot2System) : Prop :=
  match s.phase with
  | .idle =>
      (s.proc.requestReady = false ∧ h.pending = [] ∧ h.published = h.handed) ∨
        ∃ b, Prot2Held h s.proc b ∧ s.proc.buffCopy = some b ∧
          h.published = h.handed ++ [(b, s.proc.buffer b)]
  | .taken b => Prot2Held h s.proc b ∧ h.published = h.handed ++ [(b, s.proc.buffer b)]
  | .handled | .replied => ∃ b, Prot2Held h s.proc b ∧ h.published = h.handed

/-! ### Histories step by step -/

namespace Prot2History

variable {h : Prot2History} {e : Prot2Event} {b : BuffId} {v : Prot2Buffer}

/-- A step without effect on the requests. -/
theorem snoc_quiet : published (h ++ [(e, .quiet)]) = published h ∧
    handed (h ++ [(e, .quiet)]) = handed h ∧ pending (h ++ [(e, .quiet)]) = pending h := by
  simp [published, handed, pending]

/-- A packet is published. -/
theorem snoc_published :
    published (h ++ [(e, .published b v)]) = published h ++ [(b, v)] ∧
    handed (h ++ [(e, .published b v)]) = handed h ∧
    pending (h ++ [(e, .published b v)]) = pending h ++ [(b, v)] := by
  simp [published, handed, pending]

/-- A request is handed over. -/
theorem snoc_handed : published (h ++ [(e, .handed b v)]) = published h ∧
    handed (h ++ [(e, .handed b v)]) = handed h ++ [(b, v)] ∧
    pending (h ++ [(e, .handed b v)]) = pending h := by
  simp [published, handed, pending]

/-- The processor is cleaned up. -/
theorem snoc_cleared : published (h ++ [(e, .cleared)]) = published h ∧
    handed (h ++ [(e, .cleared)]) = handed h ∧ pending (h ++ [(e, .cleared)]) = [] := by
  simp [published, handed, pending]

end Prot2History

/-! ### The step lemma -/

/-- A byte in an undisturbed run: the request it completes is held. -/
theorem prot2Serving_byte {h : Prot2History} {s s' : Prot2System} {acc : List UInt8} {t : ℕ}
    {c : UInt8} {o : Prot2Obs} (hs : Prot2Serving h s) (hready : s.proc.requestReady = false)
    (hat : StandsAtPacket s.proc acc) (hmode : s.proc.mode = .slave)
    (hstep : prot2Machine.step s (.byte t c) = some (s', o)) :
    Prot2Serving (h ++ [(.byte t c, o)]) s' := by
  obtain ⟨hq, hphase, ho⟩ := prot2_byte hstep
  obtain ⟨p, clk, phase⟩ := s
  obtain ⟨q, clk', phase'⟩ := s'
  obtain rfl : phase' = phase := hphase
  have hidle : phase' = .idle ∧ h.pending = [] ∧ h.published = h.handed := by
    cases phase' with
    | idle =>
        rcases hs with ⟨-, hpend, hpub⟩ | ⟨b, hheld, -⟩
        · exact ⟨rfl, hpend, hpub⟩
        · exact absurd (hheld.ready.symm.trans hready) (by simp)
    | taken b => exact absurd (hs.1.ready.symm.trans hready) (by simp)
    | handled =>
        obtain ⟨b, hheld, -⟩ := hs
        exact absurd (hheld.ready.symm.trans hready) (by simp)
    | replied =>
        obtain ⟨b, hheld, -⟩ := hs
        exact absurd (hheld.ready.symm.trans hready) (by simp)
  obtain ⟨rfl, hpend, hpub⟩ := hidle
  have hnext := hat.next hq
  cases hcompl : p.completes with
  | false =>
      simp only [hcompl, Bool.false_eq_true, if_false] at ho
      subst ho
      obtain ⟨h1, h2, h3⟩ := Prot2History.snoc_quiet (h := h) (e := .byte t c)
      left
      refine ⟨?_, by rw [h3, hpend], by rw [h1, h2, hpub]⟩
      have hflag := (Prot2Processor.receive_quiet hq hcompl).2
      cases hq : q.requestReady with
      | false => rfl
      | true => exact absurd ((hflag hq).symm.trans hready) (by simp)
  | true =>
      simp only [hcompl, if_true] at ho
      subst ho
      rw [hat.completes_eq (decide (PROT2_TIMEOUT < altNticks t - clk.startTime)) c,
        Option.isSome_iff_exists] at hcompl
      obtain ⟨w, hw⟩ := hcompl
      obtain ⟨-, hcopy, -, hflag, -⟩ := hat.next_emits hq hw
      obtain ⟨-, hnil, -⟩ := nextPacket_emits hw
      rw [hnil] at hnext
      obtain ⟨h1, h2, h3⟩ := Prot2History.snoc_published (h := h) (e := .byte t c)
        (b := p.buff) (v := q.buffer p.buff)
      have hslave : p.mode = .slave := hmode
      right
      refine ⟨p.buff, ⟨?_, ?_, hnext.receive, hnext.cntr⟩, hcopy, ?_⟩
      · rw [hflag, hslave]
        rfl
      · rw [h3, hpend]
        rfl
      · rw [h1, h2, hpub]

/-- A service step. -/
theorem prot2Serving_service {h : Prot2History} {s s' : Prot2System} {o : Prot2Obs}
    (hs : Prot2Serving h s) (hmode : s.proc.mode = .slave)
    (hstep : prot2Machine.step s .service = some (s', o)) :
    Prot2Serving (h ++ [(.service, o)]) s' := by
  obtain ⟨p, clk, phase⟩ := s
  have hslave : p.mode = .slave := hmode
  cases phase with
  | idle =>
      obtain ⟨h1, h2, h3⟩ := Prot2History.snoc_quiet (h := h) (e := .service)
      rcases hs with ⟨hready, hpend, hpub⟩ | ⟨b, hheld, hcopy, hpub⟩
      · have hready : p.requestReady = false := hready
        simp only [prot2Machine, prot2Step, hslave, hready, Bool.false_eq_true, if_false,
          Option.some.injEq] at hstep
        obtain ⟨rfl, rfl⟩ := Prod.mk.inj hstep
        exact Or.inl ⟨hready, by rw [h3, hpend], by rw [h1, h2, hpub]⟩
      · have hcopy : p.buffCopy = some b := hcopy
        have hready : p.requestReady = true := hheld.ready
        simp only [prot2Machine, prot2Step, hslave, hready, if_true, hcopy, Option.map_some,
          Option.some.injEq] at hstep
        obtain ⟨rfl, rfl⟩ := Prod.mk.inj hstep
        exact ⟨⟨hready, by rw [h3, hheld.alone], hheld.receive, hheld.cntr⟩,
          by rw [h1, h2, hpub]⟩
  | taken b =>
      obtain ⟨hheld, hpub⟩ := hs
      simp only [prot2Machine, prot2Step, hslave, Option.some.injEq] at hstep
      obtain ⟨rfl, rfl⟩ := Prod.mk.inj hstep
      obtain ⟨h1, h2, h3⟩ := Prot2History.snoc_handed (h := h) (e := .service) (b := b)
        (v := p.buffer b)
      refine ⟨b, ⟨hheld.ready, by rw [h3, hheld.alone], hheld.receive, hheld.cntr⟩, ?_⟩
      rw [h1, h2]
      exact hpub
  | handled =>
      obtain ⟨b, hheld, hpub⟩ := hs
      simp only [prot2Machine, prot2Step, hslave, Option.some.injEq] at hstep
      obtain ⟨rfl, rfl⟩ := Prod.mk.inj hstep
      obtain ⟨h1, h2, h3⟩ := Prot2History.snoc_quiet (h := h) (e := .service)
      exact ⟨b, ⟨hheld.ready, by rw [h3, hheld.alone], hheld.receive, hheld.cntr⟩,
        by rw [h1, h2, hpub]⟩
  | replied =>
      obtain ⟨b, hheld, hpub⟩ := hs
      simp only [prot2Machine, prot2Step, hslave, Option.some.injEq] at hstep
      obtain ⟨rfl, rfl⟩ := Prod.mk.inj hstep
      obtain ⟨h1, h2, h3⟩ := Prot2History.snoc_cleared (h := h) (e := .service)
      exact Or.inl ⟨rfl, h3, by rw [h1, h2, hpub]⟩

/-! ### The run lemma -/

/-- The listener at start-up. -/
def Reception.start : Reception := ⟨[], 0⟩

/-- The cleanups have thrown nothing away: what has been received is what the stream of
bytes makes of itself. -/
def Undiscarded (h : Prot2History) : Prop :=
  h.received = (Reception.start.after h.arrivals, Reception.start.packets h.arrivals)

/-- A byte is taken from the stream. -/
theorem Undiscarded.byte {h : Prot2History} (hu : Undiscarded h) (t : ℕ) (c : UInt8)
    (o : Prot2Obs) : Undiscarded (h ++ [(.byte t c, o)]) := by
  rw [Undiscarded, Prot2History.received_byte, hu, arrivals_byte, Reception.after_append,
    Reception.packets_append]
  simp [Reception.after, Reception.packets]

/-- A step that finds the listener between two packets throws nothing away. -/
theorem Undiscarded.service {h : Prot2History} (hu : Undiscarded h) {o : Prot2Obs}
    (ho : o = .cleared → h.received.1.acc = []) : Undiscarded (h ++ [(.service, o)]) := by
  rw [Undiscarded, arrivals_service, ← hu]
  by_cases hc : o = .cleared
  · subst hc
    rw [Prot2History.received_cleared h (by simp), ← ho rfl]
  · exact Prot2History.received_service h hc

/-- A service step of a serving processor cleans up only between two packets. -/
theorem Prot2Serving.cleared {h : Prot2History} {s s' : Prot2System}
    (hs : Prot2Serving h s) (hmode : s.proc.mode = .slave)
    (hstep : prot2Machine.step s .service = some (s', .cleared)) :
    s.proc.receive = .listenLength ∧ s.proc.cntr = 0 := by
  obtain ⟨p, clk, phase⟩ := s
  have hslave : p.mode = .slave := hmode
  cases phase with
  | idle =>
      simp only [prot2Machine, prot2Step, hslave] at hstep
      split at hstep <;> simp at hstep
  | taken b => simp [prot2Machine, prot2Step, hslave] at hstep
  | handled => simp [prot2Machine, prot2Step, hslave] at hstep
  | replied =>
      obtain ⟨b, hheld, -⟩ := hs
      exact ⟨hheld.receive, hheld.cntr⟩

section Run

variable {mem : BuffId → Prot2Buffer} {h : Prot2History} {s : Prot2System}

/-- The invariant holds along every undisturbed run, and nothing is thrown away. -/
theorem prot2Serving_run (hr : prot2Machine.Run (prot2Init .slave mem) h s)
    (hc : prot2Machine.Along (prot2Init .slave mem) h Prot2Undisturbed) :
    Prot2Serving h s ∧ Undiscarded h := by
  have h0 : Prot2Serving [] (prot2Init .slave mem) := Or.inl ⟨rfl, rfl, rfl⟩
  refine hr.invariant_along (I := fun (h : Prot2History) s => Prot2Serving h s ∧ Undiscarded h)
    ⟨h0, rfl⟩ ?_ hc
  rintro (h : Prot2History) s e s' o hr ⟨hs, hu⟩ hc hstep
  obtain ⟨hat, -, hmode⟩ := prot2_standsAt_run hr
  cases e with
  | byte t c => exact ⟨prot2Serving_byte hs hc hat.packet hmode hstep, hu.byte t c o⟩
  | service =>
      refine ⟨prot2Serving_service hs hmode hstep, hu.service ?_⟩
      rintro rfl
      exact (expects_length_iff hr).mp (hs.cleared hmode hstep).1
  | cleanup => exact absurd hc id

/-- Every cleanup of an undisturbed run finds the listener between two packets. -/
theorem aligned_run (hr : prot2Machine.Run (prot2Init .slave mem) h s)
    (hc : prot2Machine.Along (prot2Init .slave mem) h Prot2Undisturbed) {h₁ h₂ : Prot2History}
    {e : Prot2Event} {s₁ : Prot2System} (hh : h = h₁ ++ (e, .cleared) :: h₂)
    (hr₁ : prot2Machine.Run (prot2Init .slave mem) h₁ s₁) :
    s₁.proc.receive = .listenLength ∧ s₁.proc.cntr = 0 := by
  subst hh
  obtain ⟨m, hm, hrest⟩ := hr.split
  obtain rfl := hm.det hr₁
  obtain ⟨s₂, hstep, -⟩ := hrest.cons_inv
  have he := hc h₁ e .cleared h₂ m rfl hm
  cases e with
  | byte t c => exact absurd rfl (byte_obs hstep)
  | service => exact (prot2Serving_run hm hc.init).1.cleared (prot2_standsAt_run hm).2.2 hstep
  | cleanup => exact absurd he id

/-- Packets one behind the other are received one by one. -/
theorem packets_flatten {r : Reception} (hr : r.acc = []) {pkts : List (List (ℕ × UInt8))}
    (hwf : ∀ p ∈ pkts, WellFormedPacket (bytes p) ∧ Paced p) :
    r.packets pkts.flatten = pkts.map bytes ∧ (r.after pkts.flatten).acc = [] := by
  induction pkts generalizing r with
  | nil => exact ⟨rfl, hr⟩
  | cons pkt pkts ih =>
      obtain ⟨hw, hp⟩ := hwf pkt (by simp)
      obtain ⟨hpk, hacc⟩ := Reception.packets_packet hr hw hp
      obtain ⟨hpks, haccs⟩ := ih hacc fun p hp => hwf p (List.mem_cons_of_mem _ hp)
      rw [List.flatten_cons, Reception.packets_append, Reception.after_append, hpk, hpks]
      exact ⟨rfl, haccs⟩

/-- **Serving under interrupts**: along a run in which no byte arrives while a request
waits or is served, every request is served once and as it was received. -/
theorem prot2_service_run (hr : prot2Machine.Run (prot2Init .slave mem) h s)
    (hc : prot2Machine.Along (prot2Init .slave mem) h Prot2Undisturbed) :
    ServedOnce mem h s := by
  obtain ⟨hs, hu⟩ := prot2Serving_run hr hc
  obtain ⟨-, hpub, hmode⟩ := prot2_standsAt_run hr
  refine ⟨?_, fun h₁ e h₂ s₁ hh hr₁ => aligned_run hr hc hh hr₁, ?_, ?_⟩
  · have huntorn : ∀ {b}, Prot2Held h s.proc b → ∀ r ∈ h.pending, s.proc.buffer r.1 = r.2 := by
      intro b hheld r hmem
      rw [hheld.alone, List.mem_singleton] at hmem
      subst hmem
      rfl
    rw [Prot2Serving] at hs
    split at hs
    · rcases hs with ⟨-, hpend, -⟩ | ⟨b, hheld, -⟩
      · simp [hpend]
      · exact huntorn hheld
    · exact huntorn hs.1
    · exact huntorn hs.choose_spec.1
    · exact huntorn hs.choose_spec.1
  · obtain ⟨p, clk, phase⟩ := s
    have hslave : p.mode = .slave := hmode
    cases phase with
    | idle =>
        rcases hs with ⟨-, -, hpub⟩ | ⟨b, hheld, hcopy, hpub⟩
        · exact Or.inl hpub
        · have hready : p.requestReady = true := hheld.ready
          have hcopy : p.buffCopy = some b := hcopy
          refine Or.inr ⟨_, hpub, ?_⟩
          simp [Machine.exec, prot2Machine, prot2Step, hslave, hready, hcopy]
    | taken b =>
        refine Or.inr ⟨_, hs.2, ?_⟩
        simp [Machine.exec, prot2Machine, prot2Step, hslave]
    | handled =>
        obtain ⟨b, -, hpub⟩ := hs
        exact Or.inl hpub
    | replied =>
        obtain ⟨b, -, hpub⟩ := hs
        exact Or.inl hpub
  · intro pkts part pkt harr hwf hw hp hpart hne
    obtain ⟨hpks, hacc⟩ := packets_flatten (r := Reception.start) rfl hwf
    rw [hu, harr, Reception.packets_append, hpks,
      Reception.packets_part hacc hw hp hpart hne, List.append_nil] at hpub
    exact hpub

end Run

/-- A ping is served once. -/
theorem prot2_service_run_ping : ∃ h s, (Prot2History.published h).length = 1 ∧
    ServedOnce (fun _ => ByteBuffer.zero) h s := by
  have r₀ : prot2Machine.Run (prot2Init .slave fun _ => ByteBuffer.zero) []
      (prot2Init .slave fun _ => ByteBuffer.zero) := Machine.Run.nil
  have r₁ := r₀.snoc (prot2_byte_step (t := 0) (c := 4) rfl)
  have r₂ := r₁.snoc (prot2_byte_step (t := 1) (c := 0x0F) rfl)
  have r₃ := r₂.snoc (prot2_byte_step (t := 2) (c := CMD_READ) rfl)
  have r₄ := r₃.snoc (prot2_byte_step (t := 3) (c := 0x0B) rfl)
  have hc₀ : prot2Machine.Along (prot2Init .slave fun _ => ByteBuffer.zero) []
      Prot2Undisturbed := fun h₁ _ _ _ _ hh => absurd hh (by simp)
  have hbyte : ∀ {s : Prot2System} {t : ℕ} {c : UInt8}, s.proc.requestReady = false →
      Prot2Undisturbed s (.byte t c) := fun h => h
  refine ⟨_, _, ?_, prot2_service_run r₄ ?_⟩
  · rfl
  · exact (((hc₀.snoc r₀ (hbyte rfl)).snoc r₁ (hbyte rfl)).snoc r₂ (hbyte rfl)).snoc r₃
      (hbyte rfl)

/-- A ping is received and served up to its reply; then another packet starts. -/
theorem overtakenPing_exec :
    (prot2Machine.exec (prot2Init .slave fun _ => ByteBuffer.zero)
      (arrive (pingPacket 0) ++ [.service, .service, .service, .byte 10 4])).map
        (fun r => (r.1.proc.mode, r.1.phase, r.1.proc.receive)) =
    some (.slave, .replied, .listenFunc) := rfl

/-- **A packet is thrown away** whose reception begins behind the reply and in front of the
cleanup. -/
theorem prot2_service_discards :
    ¬ ∀ (mem : BuffId → Prot2Buffer) (h : Prot2History) (s : Prot2System),
      prot2Machine.Run (prot2Init .slave mem) h s → (∀ e ∈ h, e.1 ≠ .cleanup) →
      ServedOnce mem h s := by
  intro hall
  obtain ⟨⟨s, os⟩, hexec, hproc⟩ := Option.map_eq_some_iff.mp overtakenPing_exec
  obtain ⟨h, hr, hev, -⟩ := Machine.exec_eq_some_iff.mp hexec
  obtain ⟨hmode, hphase, hrec⟩ : s.proc.mode = .slave ∧ s.phase = .replied ∧
      s.proc.receive = .listenFunc := by
    simpa using hproc
  have hstep : prot2Machine.step s .service =
      some ({ s with proc := ipglbProt2Cleanup s.proc, phase := .idle }, .cleared) := by
    simp [prot2Machine, prot2Step, hmode, hphase]
  have hevents : ∀ e ∈ h ++ [(.service, .cleared)], e.1 ≠ .cleanup := by
    intro e he heq
    have hmem := List.mem_map_of_mem (f := Prod.fst) he
    rw [List.map_append, hev, heq] at hmem
    simp [arrive, pingPacket] at hmem
  have haligned := (hall _ _ _ (hr.snoc hstep) hevents).aligned h .service [] s rfl hr
  exact absurd (hrec.symm.trans haligned.1) (by simp)

end Muxponder

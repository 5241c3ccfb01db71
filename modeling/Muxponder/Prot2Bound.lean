import Muxponder.Prot2Framing

/-!
# The Bound of the PROT2 Buffers

A packet ends where the counter equals the length byte, and the counter is 3 when the
header has been received. A length byte from 4 on is met before it passes 255; one of 0 to
3 is never met, and the payload of such a packet runs on until something cleans the
processor up.

## Main results

* `prot2_storesInside_iff`: every byte is stored inside the buffers exactly when every
  packet with such a length byte is cleaned up before its 254th payload byte.
-/

namespace Muxponder

/-- The indices written while a byte is received, those of the `memset` included. -/
def Prot2Processor.storeIndices (p : Prot2Processor) (now : UInt32) (clk : Prot2Clock) :
    List ℕ :=
  match p.receive with
  | .listenLength | .listenCmd => [p.cntr]
  | .listenFunc => if { clk with currentTime := now }.expired then [] else [p.cntr]
  | .listenPayload =>
      p.cntr :: if p.completes then List.range IPGLB2_MAX_BUFFER else []

/-- Every index written along the events lies inside the buffers. -/
def Prot2StoresInside (mode : Prot2Mode) (mem : BuffId → Prot2Buffer)
    (events : List Prot2Event) : Prop :=
  ∀ h s t c rest, prot2Machine.Run (prot2Init mode mem) h s →
    h.map Prod.fst ++ .byte t c :: rest = events →
    ∀ i ∈ s.proc.storeIndices (altNticks t) s.clock, i < IPGLB2_MAX_BUFFER

/-- A header has just been received whose length byte does not even count the header and a
checksum. -/
structure ShortHeader (p : Prot2Processor) : Prop where
  receive : p.receive = .listenPayload
  cntr : p.cntr = 3
  expectedLen : p.expectedLen.toNat < 4

/-- No cleanup happens along a history. -/
def Uncleared (h : Prot2History) : Prop := ∀ e ∈ h, e.2 ≠ .cleared

/-- Behind a header with a length byte of 0 to 3, at most 253 bytes arrive until the next
cleanup. -/
def ShortPacketsCleared (mode : Prot2Mode) (mem : BuffId → Prot2Buffer)
    (events : List Prot2Event) : Prop :=
  ∀ h₁ s₁ h₂ s₂ t c rest, prot2Machine.Run (prot2Init mode mem) h₁ s₁ →
    ShortHeader s₁.proc → prot2Machine.Run s₁ h₂ s₂ → Uncleared h₂ →
    (h₁ ++ h₂).map Prod.fst ++ .byte t c :: rest = events →
    (Prot2History.arrivals h₂).length + 1 ≤ 253

section Histories

variable {h : Prot2History} {e : Prot2Event} {o : Prot2Obs}

/-- A longer history has no cleanup when neither part has one. -/
theorem uncleared_snoc : Uncleared (h ++ [(e, o)]) ↔ Uncleared h ∧ o ≠ .cleared := by
  simp [Uncleared, or_imp, forall_and]

/-- A byte arrives at the end. -/
@[simp] theorem arrivals_byte (h : Prot2History) (t : ℕ) (c : UInt8) (o : Prot2Obs) :
    Prot2History.arrivals (h ++ [(.byte t c, o)]) = Prot2History.arrivals h ++ [(t, c)] := by
  simp [Prot2History.arrivals]

/-- Nothing arrives with a service step. -/
@[simp] theorem arrivals_service (h : Prot2History) (o : Prot2Obs) :
    Prot2History.arrivals (h ++ [(.service, o)]) = Prot2History.arrivals h := by
  simp [Prot2History.arrivals]

end Histories

/-- A byte step cleans nothing up. -/
theorem byte_obs {s s' : Prot2System} {t : ℕ} {c : UInt8} {o : Prot2Obs}
    (h : prot2Machine.step s (.byte t c) = some (s', o)) : o ≠ .cleared := by
  obtain ⟨-, -, rfl⟩ := prot2_byte h
  split <;> simp

/-- The payload of such a packet goes on: every byte moves the counter past its length. -/
theorem shortHeader_run {s s' : Prot2System} {h : Prot2History} (hs : ShortHeader s.proc)
    (hr : prot2Machine.Run s h s') (hc : Uncleared h) :
    s'.proc.receive = .listenPayload ∧ s'.proc.expectedLen = s.proc.expectedLen ∧
      s'.proc.cntr = 3 + (Prot2History.arrivals h).length := by
  refine hr.invariant (I := fun (h : Prot2History) s' => Uncleared h →
    s'.proc.receive = .listenPayload ∧ s'.proc.expectedLen = s.proc.expectedLen ∧
      s'.proc.cntr = 3 + (Prot2History.arrivals h).length)
    (fun _ => ⟨hs.receive, rfl, hs.cntr⟩) ?_ hc
  rintro (h : Prot2History) m e ⟨q, clk', phase⟩ o - hI hstep hc
  obtain ⟨hc, ho⟩ := uncleared_snoc.mp hc
  obtain ⟨hrec, hlen, hcntr⟩ := hI hc
  cases e with
  | byte t c =>
      obtain ⟨hbyte, -⟩ := prot2_byte hstep
      rw [arrivals_byte, List.length_append, List.length_singleton]
      cases Prot2Processor.received hbyte with
      | length h => exact absurd (h.symm.trans hrec) (by simp)
      | funcLate h => exact absurd (h.symm.trans hrec) (by simp)
      | func h => exact absurd (h.symm.trans hrec) (by simp)
      | cmdRefused h => exact absurd (h.symm.trans hrec) (by simp)
      | cmd h => exact absurd (h.symm.trans hrec) (by simp)
      | packetEnd _ hpush hend =>
          obtain ⟨-, -, hcntr', hlen', -⟩ := Prot2Processor.push_frame hpush
          have hshort := hs.expectedLen
          rw [hcntr', hlen', hcntr, hlen] at hend
          omega
      | payload _ hpush =>
          obtain ⟨-, -, hcntr', hlen', -⟩ := Prot2Processor.push_frame hpush
          refine ⟨rfl, hlen'.trans hlen, ?_⟩
          simp only [hcntr', hcntr]
          omega
  | service =>
      obtain ⟨-, ⟨hproc, -⟩ | ⟨-, rfl⟩⟩ := prot2_service hstep
      · obtain rfl : q = m.proc := hproc
        rw [arrivals_service]
        exact ⟨hrec, hlen, hcntr⟩
      · exact absurd rfl ho
  | cleanup =>
      exact absurd (prot2_cleanup hstep).2.2.2 ho

/-- Where the payload is received, the counter has not met the length byte yet, or it never
will. -/
def PayloadBound (mode : Prot2Mode) (mem : BuffId → Prot2Buffer) (h : Prot2History)
    (s : Prot2System) : Prop :=
  s.proc.cntr < s.proc.expectedLen.toNat ∨
    ∃ h₁ s₁ h₂, h = h₁ ++ h₂ ∧ prot2Machine.Run (prot2Init mode mem) h₁ s₁ ∧
      ShortHeader s₁.proc ∧ prot2Machine.Run s₁ h₂ s ∧ Uncleared h₂

/-- The bound holds along every run. -/
theorem payloadBound_run {mode : Prot2Mode} {mem : BuffId → Prot2Buffer} {h : Prot2History}
    {s : Prot2System} (hr : prot2Machine.Run (prot2Init mode mem) h s)
    (hpay : s.proc.receive = .listenPayload) : PayloadBound mode mem h s := by
  refine hr.invariant (I := fun (h : Prot2History) s =>
    s.proc.receive = .listenPayload → PayloadBound mode mem h s)
    (fun h => absurd h (by simp [prot2Init, ipglbProt2ProcessorInit])) ?_ hpay
  rintro (h : Prot2History) m e ⟨q, clk', phase⟩ o hr hI hstep hpay
  cases e with
  | byte t c =>
      obtain ⟨hbyte, -⟩ := prot2_byte hstep
      cases Prot2Processor.received hbyte with
      | length => exact absurd hpay (by simp)
      | funcLate => exact absurd hpay (by simp)
      | func => exact absurd hpay (by simp)
      | cmdRefused => exact absurd hpay (by simp)
      | packetEnd => exact absurd hpay (by simp)
      | @cmd r hcmd hpush =>
          obtain ⟨-, -, hcntr, -⟩ := Prot2Processor.push_frame hpush
          have hacc := (prot2_standsAt_run hr).1.packet
          have htwo : m.proc.cntr = 2 := by
            rw [hacc.cntr]
            exact listenerAt_eq_cmd.mp (hcmd.symm.trans hacc.receive)
          by_cases hshort : r.expectedLen.toNat < 4
          · right
            refine ⟨_, _, [], (List.append_nil _).symm, hr.snoc hstep, ⟨rfl, ?_, hshort⟩,
              .nil, by simp [Uncleared]⟩
            simp only [hcntr, htwo]
          · left
            simp only [hcntr, htwo]
            omega
      | @payload r hpayload hpush hmore =>
          obtain ⟨-, -, hcntr, hlen, -⟩ := Prot2Processor.push_frame hpush
          rcases hI hpayload with hlt | ⟨h₁, s₁, h₂, rfl, hr₁, hs, hr₂, hc⟩
          · left
            rw [hcntr, hlen] at hmore
            simp only [hcntr, hlen]
            omega
          · right
            refine ⟨h₁, s₁, h₂ ++ [(.byte t c, o)], by simp, hr₁, hs, hr₂.snoc hstep, ?_⟩
            exact uncleared_snoc.mpr ⟨hc, byte_obs hstep⟩
  | service =>
      obtain ⟨-, ⟨hproc, ho⟩ | ⟨hproc, -⟩⟩ := prot2_service hstep
      · obtain rfl : q = m.proc := hproc
        rcases hI hpay with hlt | ⟨h₁, s₁, h₂, rfl, hr₁, hs, hr₂, hc⟩
        · exact Or.inl hlt
        · right
          refine ⟨h₁, s₁, h₂ ++ [(.service, o)], by simp, hr₁, hs, hr₂.snoc hstep, ?_⟩
          refine uncleared_snoc.mpr ⟨hc, ?_⟩
          rcases ho with rfl | ⟨b, v, rfl⟩ <;> simp
      · obtain rfl : q = ipglbProt2Cleanup m.proc := hproc
        exact absurd hpay (by simp)
  | cleanup =>
      obtain rfl : q = ipglbProt2Cleanup m.proc := (prot2_cleanup hstep).1
      exact absurd hpay (by simp)

/-- Where the counter lies inside the buffer, so does every index written. -/
theorem Prot2Processor.storeIndices_lt {p : Prot2Processor} (h : p.cntr < IPGLB2_MAX_BUFFER)
    (now : UInt32) (clk : Prot2Clock) :
    ∀ i ∈ p.storeIndices now clk, i < IPGLB2_MAX_BUFFER := by
  intro i hi
  rw [storeIndices] at hi
  cases hrec : p.receive with
  | listenLength => simp_all
  | listenFunc =>
      simp only [hrec] at hi
      split at hi
      · exact absurd hi (by simp)
      · simp_all
  | listenCmd => simp_all
  | listenPayload =>
      simp only [hrec, List.mem_cons] at hi
      rcases hi with rfl | hi
      · exact h
      · split at hi
        · exact List.mem_range.mp hi
        · exact absurd hi (by simp)

section Bound

variable {mode : Prot2Mode} {mem : BuffId → Prot2Buffer} {events : List Prot2Event}

/-- Stores inside the buffers leave room for the payload of short packets. -/
theorem shortPacketsCleared_of_storesInside (hin : Prot2StoresInside mode mem events) :
    ShortPacketsCleared mode mem events := by
  intro h₁ s₁ h₂ s₂ t c rest hr₁ hs hr₂ hc hev
  obtain ⟨hrec, -, hcntr⟩ := shortHeader_run hs hr₂ hc
  have hlt := hin _ _ t c rest (hr₁.append hr₂) hev s₂.proc.cntr
    (by simp [Prot2Processor.storeIndices, hrec])
  rw [hcntr] at hlt
  simp only [IPGLB2_MAX_BUFFER] at hlt
  omega

/-- Short packets that are cleaned up in time keep the stores inside the buffers. -/
theorem storesInside_of_shortPacketsCleared (hcond : ShortPacketsCleared mode mem events) :
    Prot2StoresInside mode mem events := by
  intro h s t c rest hr hev
  refine Prot2Processor.storeIndices_lt ?_ _ _
  obtain ⟨hat, -, -⟩ := prot2_standsAt_run hr
  simp only [IPGLB2_MAX_BUFFER]
  by_cases hpay : s.proc.receive = .listenPayload
  · rcases payloadBound_run hr hpay with hlt | ⟨h₁, s₁, h₂, rfl, hr₁, hs, hr₂, hc⟩
    · have hbyte := s.proc.expectedLen.toNat_lt
      omega
    · have hcount := hcond h₁ s₁ h₂ s t c rest hr₁ hs hr₂ hc hev
      have hcntr := (shortHeader_run hs hr₂ hc).2.2
      omega
  · have hhead : ¬ 3 ≤ (Prot2History.received h).1.acc.length := fun h3 =>
      hpay (hat.packet.receive.trans (listenerAt_eq_payload.mpr h3).symm)
    rw [hat.packet.cntr]
    omega

end Bound

/-- **Buffer bound**: every byte is stored inside the buffers exactly when every packet
whose length byte is 0 to 3 is cleaned up before its 254th payload byte. -/
theorem prot2_storesInside_iff (mode : Prot2Mode) (mem : BuffId → Prot2Buffer)
    (events : List Prot2Event) :
    Prot2StoresInside mode mem events ↔ ShortPacketsCleared mode mem events :=
  ⟨shortPacketsCleared_of_storesInside, storesInside_of_shortPacketsCleared⟩

/-- Bytes behind such a header have a defined effect up to the end of the buffer. -/
theorem shortHeader_bytes {s : Prot2System} (hs : ShortHeader s.proc) {n : ℕ} (hn : n ≤ 253) :
    ∃ h s', prot2Machine.Run s h s' ∧ Uncleared h ∧
      h.map Prod.fst = arrive (List.replicate n (0, 0)) := by
  induction n with
  | zero => exact ⟨[], s, .nil, by simp [Uncleared], rfl⟩
  | succ n ih =>
      obtain ⟨h, s', hr, hc, hev⟩ := ih (by omega)
      obtain ⟨-, -, hcntr⟩ := shortHeader_run hs hr hc
      rw [arrivals_arrive hev, List.length_replicate] at hcntr
      have hroom : s'.proc.cntr < IPGLB2_MAX_BUFFER := by
        simp only [hcntr, IPGLB2_MAX_BUFFER]
        omega
      obtain ⟨q, clk', hq⟩ := Prot2Processor.receive_defined hroom (altNticks 0) s'.clock 0
      have hstep := prot2_byte_step hq
      refine ⟨_, _, hr.snoc hstep, uncleared_snoc.mpr ⟨hc, byte_obs hstep⟩, ?_⟩
      rw [List.map_append, hev, List.replicate_succ']
      simp [arrive]

/-- A header of three zero bytes is received. -/
theorem zeroHeader_exec :
    (prot2Machine.exec (prot2Init .slave fun _ => ByteBuffer.zero)
      (arrive (List.replicate 3 (0, 0)))).map
        (fun r => (r.1.proc.receive, r.1.proc.cntr, r.1.proc.expectedLen)) =
    some (.listenPayload, 3, 0) := rfl

/-- A packet with the length byte 0 is stored on behind the end of the buffer. -/
theorem not_prot2_storesInside_zero :
    ¬ Prot2StoresInside .slave (fun _ => ByteBuffer.zero)
      (arrive (List.replicate (3 + 253 + 1) (0, 0))) := by
  intro hin
  obtain ⟨⟨s₁, os⟩, hexec, hproc⟩ := Option.map_eq_some_iff.mp zeroHeader_exec
  obtain ⟨h₁, hr₁, hev₁, -⟩ := Machine.exec_eq_some_iff.mp hexec
  obtain ⟨hrec, hcntr, hlen⟩ : s₁.proc.receive = .listenPayload ∧ s₁.proc.cntr = 3 ∧
      s₁.proc.expectedLen = 0 := by
    simpa using hproc
  have hs : ShortHeader s₁.proc := ⟨hrec, hcntr, by rw [hlen]; decide⟩
  obtain ⟨h₂, s₂, hr₂, hc, hev₂⟩ := shortHeader_bytes hs le_rfl
  have hcount := shortPacketsCleared_of_storesInside hin h₁ s₁ h₂ s₂ 0 0 [] hr₁ hs hr₂ hc (by
    rw [List.map_append, hev₁, hev₂, List.replicate_succ', List.replicate_add, arrive_append,
      arrive_append]
    rfl)
  rw [arrivals_arrive hev₂, List.length_replicate] at hcount
  omega

end Muxponder

import Muxponder.KursFraming

/-!
# The Bound of the Receive Buffers

`listen_payload` advances the counter without comparing it with `KURS_MAX_BUFFER`, so
whether a byte lands inside a buffer is a matter of the stream alone. Calls of
`kurs_service` in between change nothing about it (`standsAt_run`): the counter belongs
to the listener.

## Main results

* `storesInside_iff`: every byte is stored inside the buffers exactly when no packet of
  the stream outgrows one.
-/

namespace Muxponder

open Framing

/-! ### Stores inside the buffers -/

/-- The bytes received along a history. -/
def bytesOf (h : List (KursEvent × KursObs)) : List UInt8 :=
  h.filterMap fun e => match e.1 with
    | .byte data => some data
    | .service => none

/-- A service step receives nothing. -/
@[simp] theorem bytesOf_service (h : List (KursEvent × KursObs)) (o : KursObs) :
    bytesOf (h ++ [(.service, o)]) = bytesOf h := by
  simp [bytesOf]

/-- A byte is received at the end. -/
@[simp] theorem bytesOf_byte (h : List (KursEvent × KursObs)) (c : UInt8) (o : KursObs) :
    bytesOf (h ++ [(.byte c, o)]) = bytesOf h ++ [c] := by
  simp [bytesOf]

/-- Every index written while the stream is received, at any interleaving with
`kurs_service`, lies inside the buffers. -/
def StoresInside (handler : Buffer → Buffer) (sop : UInt8) (mem1 mem2 : Buffer)
    (stream : List UInt8) : Prop :=
  ∀ h s c rest, (kursMachine handler).Run (kursInit sop mem1 mem2) h s →
    bytesOf h ++ c :: rest = stream → ∀ i ∈ storeIndices s.proc c, i < KURS_MAX_BUFFER

/-- Every packet the stream starts after an odd run of end-of-packet characters fits a
buffer, and with its terminating NUL too when it completes. -/
def FitsBuffer (sop : UInt8) (stream : List UInt8) : Prop :=
  ∀ pre w post, stream = pre ++ sop :: (w ++ post) → KURS_EOP ∉ w →
    runAfter KURS_EOP 0 pre % 2 = 1 →
    w.length < KURS_MAX_BUFFER ∧
      (post.head? = some KURS_EOP → w.length + 2 < KURS_MAX_BUFFER)

/-- A service step leaves the listener alone. -/
theorem service_receive {handler : Buffer → Buffer} {s s' : KursSystem} {o : KursObs}
    (h : (kursMachine handler).step s .service = some (s', o)) :
    s'.proc.receive = s.proc.receive ∧ s'.proc.cntr = s.proc.cntr ∧
      s'.proc.SOP = s.proc.SOP := by
  cases hph : s.phase with
  | idle =>
      simp only [kursMachine, kursStep, hph] at h
      by_cases hready : s.proc.requestReady = true
      · rw [if_pos hready] at h
        obtain ⟨b, -, he⟩ := Option.map_eq_some_iff.mp h
        obtain ⟨rfl, rfl⟩ := Prod.mk.inj he
        exact ⟨rfl, rfl, rfl⟩
      · rw [if_neg hready, Option.some.injEq] at h
        obtain ⟨rfl, rfl⟩ := Prod.mk.inj h
        exact ⟨rfl, rfl, rfl⟩
  | taken b =>
      simp only [kursMachine, kursStep, hph, Option.some.injEq] at h
      obtain ⟨rfl, rfl⟩ := Prod.mk.inj h
      simp
  | handled b =>
      simp only [kursMachine, kursStep, hph, Option.some.injEq] at h
      obtain ⟨rfl, rfl⟩ := Prod.mk.inj h
      exact ⟨rfl, rfl, rfl⟩
  | replied b =>
      simp only [kursMachine, kursStep, hph, Option.some.injEq] at h
      obtain ⟨rfl, rfl⟩ := Prod.mk.inj h
      exact ⟨rfl, rfl, rfl⟩

/-- A byte step is `kurs_receive`. -/
theorem byte_receive {handler : Buffer → Buffer} {s s' : KursSystem} {c : UInt8} {o : KursObs}
    (h : (kursMachine handler).step s (.byte c) = some (s', o)) :
    kursReceive s.proc c = some s'.proc ∧ s'.phase = s.phase ∧
      o = if completes s.proc c then .published s.proc.buff (s'.proc.buffer s.proc.buff)
        else .quiet := by
  obtain ⟨p, hp, he⟩ := Option.map_eq_some_iff.mp h
  obtain ⟨rfl, rfl⟩ := Prod.mk.inj he
  exact ⟨hp, rfl, rfl⟩

/-- A byte with a defined effect makes a step. -/
theorem byte_step {handler : Buffer → Buffer} {s : KursSystem} {c : UInt8} {p : KursProcessor}
    (h : kursReceive s.proc c = some p) :
    (kursMachine handler).step s (.byte c) = some (⟨p, s.phase⟩,
      if completes s.proc c then .published s.proc.buff (p.buffer s.proc.buff)
      else .quiet) := by
  simp [kursMachine, kursStep, h]

/-- **The run lemma**: at any interleaving the listener stands at the phase of the bytes
received so far. -/
theorem standsAt_run {handler : Buffer → Buffer} {sop : UInt8} {mem1 mem2 : Buffer}
    {h : List (KursEvent × KursObs)} {s : KursSystem}
    (hr : (kursMachine handler).Run (kursInit sop mem1 mem2) h s) :
    StandsAt s.proc ((Phase.outside 0).after sop (bytesOf h)) ∧ s.proc.SOP = sop := by
  refine hr.invariant (I := fun h s =>
    StandsAt s.proc ((Phase.outside 0).after sop (bytesOf h)) ∧ s.proc.SOP = sop)
    ⟨standsAt_init sop mem1 mem2, rfl⟩ ?_
  rintro h s e s' o - ⟨hat, hsop⟩ hstep
  cases e with
  | byte c =>
      obtain ⟨hrec, -⟩ := byte_receive hstep
      obtain ⟨hat', hsop'⟩ := standsAt_receive hat hrec
      rw [bytesOf_byte, after_append]
      exact ⟨hsop ▸ hat', hsop'.trans hsop⟩
  | service =>
      obtain ⟨h1, h2, h3⟩ := service_receive hstep
      rw [bytesOf_service]
      exact ⟨⟨h1.trans hat.receive, h2.trans hat.cntr⟩, h3.trans hsop⟩

/-- While every store lies inside, the bytes alone make a run. -/
theorem run_of_storesInside {handler : Buffer → Buffer} {sop : UInt8} {mem1 mem2 : Buffer}
    {s rest : List UInt8} (hin : StoresInside handler sop mem1 mem2 (s ++ rest)) :
    ∃ h q, (kursMachine handler).Run (kursInit sop mem1 mem2) h q ∧ bytesOf h = s := by
  induction s using List.reverseRecOn generalizing rest with
  | nil => exact ⟨[], _, Machine.Run.nil, rfl⟩
  | append_singleton s c ih =>
      rw [List.append_assoc] at hin
      obtain ⟨h, q, hr, rfl⟩ := ih hin
      have hstores := hin h q c rest hr rfl
      obtain ⟨p, hp⟩ := Option.isSome_iff_exists.mp
        (receive_isSome_iff_storeIndices.mpr hstores)
      exact ⟨_, _, hr.snoc (byte_step hp), bytesOf_byte h c _⟩

/-- Stores inside the buffers leave room for every packet. -/
theorem fitsBuffer_of_storesInside {handler : Buffer → Buffer} {sop : UInt8}
    {mem1 mem2 : Buffer} {stream : List UInt8}
    (hin : StoresInside handler sop mem1 mem2 stream) : FitsBuffer sop stream := by
  -- what the listener can do with the next byte inside the packet `sop :: w`
  have hfits : ∀ pre w c post, stream = pre ++ sop :: (w ++ c :: post) → KURS_EOP ∉ w →
      runAfter KURS_EOP 0 pre % 2 = 1 → (Phase.inside (sop :: w)).fits c := by
    intro pre w c post hs hw hodd
    have hcut : stream = (pre ++ sop :: w) ++ c :: post := by simpa using hs
    rw [hcut] at hin
    obtain ⟨h, q, hr, hb⟩ := run_of_storesInside hin
    obtain ⟨hat, -⟩ := standsAt_run hr
    rw [hb, after_eq_inside_iff.mpr ⟨pre, w, rfl, rfl, hw, hodd⟩] at hat
    exact (storeIndices_fits hat).mp (hin h q c post hr (by rw [hb]))
  intro pre w post hs hw hodd
  constructor
  · induction w using List.reverseRecOn with
    | nil => simp [KURS_MAX_BUFFER]
    | append_singleton w c _ =>
        have hw' : KURS_EOP ∉ w := fun hmem => hw (List.mem_append_left _ hmem)
        have hlen := (hfits pre w c post (by simpa using hs) hw' hodd).1
        simpa using hlen
  · intro hhead
    obtain ⟨post, rfl⟩ := List.head?_eq_some_iff.mp hhead
    have hlen := (hfits pre w KURS_EOP post hs hw hodd).2 rfl
    simpa using hlen

/-- Room for every packet keeps the stores inside the buffers. -/
theorem storesInside_of_fitsBuffer {handler : Buffer → Buffer} {sop : UInt8}
    {mem1 mem2 : Buffer} {stream : List UInt8} (hfit : FitsBuffer sop stream) :
    StoresInside handler sop mem1 mem2 stream := by
  intro h s c rest hr hs
  obtain ⟨hat, -⟩ := standsAt_run hr
  rw [storeIndices_fits hat]
  cases hph : (Phase.outside 0).after sop (bytesOf h) with
  | outside n => exact trivial
  | inside acc =>
      obtain ⟨pre, w, rfl, hb, hw, hodd⟩ := after_eq_inside_iff.mp hph
      rw [hb] at hs
      by_cases he : c = KURS_EOP
      · subst he
        have hlen := (hfit pre w (KURS_EOP :: rest) (by simpa using hs.symm) hw hodd).2 rfl
        simp only [Phase.fits, List.length_cons]
        omega
      · have hw' : KURS_EOP ∉ w ++ [c] := by simp [hw, Ne.symm he]
        have hlen := (hfit pre (w ++ [c]) rest (by simpa using hs.symm) hw' hodd).1
        simp only [List.length_append, List.length_singleton] at hlen
        exact ⟨hlen, fun h => absurd h he⟩

/-- **Buffer bound**: every byte is stored inside the buffers exactly when no packet of
the stream outgrows one. -/
theorem storesInside_iff (handler : Buffer → Buffer) (sop : UInt8) (mem1 mem2 : Buffer)
    (stream : List UInt8) :
    StoresInside handler sop mem1 mem2 stream ↔ FitsBuffer sop stream :=
  ⟨fitsBuffer_of_storesInside, storesInside_of_fitsBuffer⟩

/-- A packet with as many characters after its start as the buffer has is stored behind
the end of the buffer. -/
theorem not_storesInside_long :
    ¬ StoresInside id 0x81 Buffer.zero Buffer.zero
      (KURS_EOP :: 0x81 :: (List.replicate KURS_MAX_BUFFER 0x41 ++ [])) := by
  intro h
  have hbody : KURS_EOP ∉ List.replicate KURS_MAX_BUFFER (0x41 : UInt8) := fun hmem =>
    absurd (List.eq_of_mem_replicate hmem) (by decide)
  have hlen := (fitsBuffer_of_storesInside h [KURS_EOP] _ [] rfl hbody rfl).1
  rw [List.length_replicate] at hlen
  exact absurd hlen (lt_irrefl _)

end Muxponder

import Muxponder.KursBound
import Muxponder.KursUpdateStep

/-!
# Serving Requests under Interrupts

`kurs_receive` publishes requests from the UART interrupt while `kurs_service` works on
them in phases. They share a flag, a pointer and two buffers, and no lock. A frame that
completes while the flag is set publishes over the request being served: the pointer is
replaced, the other buffer is cleared, and the flag is cleared for both at once.

As long as this does not happen every request is handed over once and unchanged
(`service_run`). Besides the listener, the handler of `0x0F` requests writes into the
request itself, where it cuts off the checksum.

## Main results

* `service_run`: along every run in which no frame completes while the flag is set, no
  request is torn or lost.
* `service_loses_request`: a frame that completes after the reply and before the flag is
  cleared is never handed over.
-/

namespace Muxponder

open KursProcessor CString

/-- The command byte of safe reprogramming. -/
def KURS_SAFE_REPROGRAMMING : UInt8 := 0x0F

/-- What `KURS_HandleRequests` leaves in the request buffer: safe reprogramming puts a
terminator in front of the checksum, no other command writes to the request. -/
def handleRequests (b : Buffer) : Buffer :=
  if b.toList.getD 1 0 = KURS_SAFE_REPROGRAMMING then
    match strchr KURS_EOP b.toList with
    | some (some dwLen) => if dwLen < 6 then b else (b.store (dwLen - 4) 0).getD b
    | _ => b
  else b

/-- A request that its handler does not write to. -/
def SparesRequest (b : Buffer) : Prop :=
  b.toList.getD 1 0 ≠ KURS_SAFE_REPROGRAMMING ∨
    ∀ dwLen, strchr KURS_EOP b.toList = some (some dwLen) → dwLen < 6

/-- The handler leaves such a request as it is. -/
theorem handleRequests_spares {b : Buffer} (h : SparesRequest b) : handleRequests b = b := by
  rw [handleRequests]
  rcases h with h | h
  · rw [if_neg h]
  · split
    · split
      · next dwLen hlen => rw [if_pos (h dwLen hlen)]
      · rfl
    · rfl

/-- For a valid reprogramming request this is the text the handler goes on with. -/
theorem handleRequests_valid {b : Buffer} {str : List UInt8}
    (hcmd : b.toList.getD 1 0 = KURS_SAFE_REPROGRAMMING)
    (h : checkRequest b.toList = some (.valid str)) : (handleRequests b).toList = str := by
  obtain ⟨dwLen, hlen, h6, rfl, -⟩ := checkRequest_valid_iff.mp h
  obtain ⟨pre, rest, hsplit, hpre, -⟩ := strchr_eq_some_iff.mp hlen
  have hbound : dwLen - 4 < KURS_MAX_BUFFER := by
    have hsize := congrArg List.length hsplit
    rw [Vector.length_toList, List.length_append, List.length_cons] at hsize
    omega
  have hstrchr : strchr KURS_EOP b.toList = some (some dwLen) := hlen
  rw [handleRequests, if_pos hcmd]
  simp only [hstrchr]
  rw [if_neg (by omega), Buffer.store, dif_pos hbound, Option.getD_some, Vector.toList_set]

/-- A history of bytes and service steps. -/
abbrev KursHistory := List (KursEvent × KursObs)

/-- The requests published along a history, with the buffer and its contents. -/
def publishedOf (h : KursHistory) : List (BuffId × Buffer) :=
  h.filterMap fun e => match e.2 with
    | .published b content => some (b, content)
    | _ => none

/-- The requests handed to `KURS_HandleRequests` along a history. -/
def handedOf (h : KursHistory) : List (BuffId × Buffer) :=
  h.filterMap fun e => match e.2 with
    | .handed b content => some (b, content)
    | _ => none

/-- The requests published since the flag was last cleared. -/
def openOf (h : KursHistory) : List (BuffId × Buffer) :=
  h.foldl (fun acc e => match e.2 with
    | .published b content => acc ++ [(b, content)]
    | .cleared => []
    | _ => acc) []

/-- The condition on a step: no frame completes while the flag is set, and no request is
handed over that its handler writes to. -/
def Undisturbed (s : KursSystem) : KursEvent → Prop
  | .byte data => completes s.proc data = true → s.proc.requestReady = false
  | .service => ∀ b, s.phase = .taken b → SparesRequest (s.proc.buffer b)

/-- No request is torn or lost: what is published and not cleared keeps its bytes, and the
requests handed over are those published, but for one that the next steps of
`kurs_service` hand over. -/
structure NoneLost (h : KursHistory) (s : KursSystem) : Prop where
  untorn : ∀ r ∈ openOf h, s.proc.buffer r.1 = r.2
  handed : publishedOf h = handedOf h ∨
    ∃ r, publishedOf h = handedOf h ++ [r] ∧
      ∃ s' os, (kursMachine handleRequests).exec s [.service, .service] = some (s', os) ∧
        .handed r.1 r.2 ∈ os

/-- The last request published is held in its buffer, and the listener fills the other. -/
structure Held (h : KursHistory) (p : KursProcessor) (b : BuffId) : Prop where
  ready : p.requestReady = true
  alone : openOf h = [(b, p.buffer b)]
  active : p.buff = b.other

/-- **The invariant of serving**, by the phase of `kurs_service`. -/
def Serving (h : KursHistory) (s : KursSystem) : Prop :=
  match s.phase with
  | .idle =>
      (s.proc.requestReady = false ∧ openOf h = [] ∧ publishedOf h = handedOf h) ∨
        ∃ b, Held h s.proc b ∧ s.proc.buffCopy = some b ∧
          publishedOf h = handedOf h ++ [(b, s.proc.buffer b)]
  | .taken b => Held h s.proc b ∧ publishedOf h = handedOf h ++ [(b, s.proc.buffer b)]
  | .handled b => Held h s.proc b ∧ publishedOf h = handedOf h
  | .replied b => Held h s.proc b ∧ publishedOf h = handedOf h

/-! ### Histories step by step -/

section Histories

variable {h : KursHistory} {e : KursEvent} {b : BuffId} {v : Buffer}

/-- A step without effect on the requests. -/
theorem history_quiet : publishedOf (h ++ [(e, .quiet)]) = publishedOf h ∧
    handedOf (h ++ [(e, .quiet)]) = handedOf h ∧ openOf (h ++ [(e, .quiet)]) = openOf h := by
  simp [publishedOf, handedOf, openOf]

/-- A request is published. -/
theorem history_published :
    publishedOf (h ++ [(e, .published b v)]) = publishedOf h ++ [(b, v)] ∧
    handedOf (h ++ [(e, .published b v)]) = handedOf h ∧
    openOf (h ++ [(e, .published b v)]) = openOf h ++ [(b, v)] := by
  simp [publishedOf, handedOf, openOf]

/-- A request is handed over. -/
theorem history_handed : publishedOf (h ++ [(e, .handed b v)]) = publishedOf h ∧
    handedOf (h ++ [(e, .handed b v)]) = handedOf h ++ [(b, v)] ∧
    openOf (h ++ [(e, .handed b v)]) = openOf h := by
  simp [publishedOf, handedOf, openOf]

/-- The flag is cleared. -/
theorem history_cleared : publishedOf (h ++ [(e, .cleared)]) = publishedOf h ∧
    handedOf (h ++ [(e, .cleared)]) = handedOf h ∧ openOf (h ++ [(e, .cleared)]) = [] := by
  simp [publishedOf, handedOf, openOf]

end Histories

/-! ### The step lemma -/

/-- What a byte leaves alone that does not complete a packet. -/
theorem receive_frame {p q : KursProcessor} {c : UInt8} (hc : completes p c = false)
    (h : kursReceive p c = some q) :
    q.requestReady = p.requestReady ∧ q.buffCopy = p.buffCopy ∧ q.buff = p.buff ∧
      ∀ b, b ≠ p.buff → q.buffer b = p.buffer b := by
  have hno : ¬ (p.receive = .listenPayload ∧ c = KURS_EOP) := by
    simpa [completes] using hc
  have hpush : ∀ {p q : KursProcessor}, p.push c = some q →
      q.requestReady = p.requestReady ∧ q.buffCopy = p.buffCopy ∧ q.buff = p.buff ∧
        ∀ b, b ≠ p.buff → q.buffer b = p.buffer b := by
    intro p q h
    obtain ⟨v, -, rfl⟩ := push_eq_some h
    refine ⟨by simp, by simp, by simp, fun b hb => ?_⟩
    exact (buffer_setBuffer_of_ne p v hb)
  cases hrec : p.receive with
  | listenEop =>
      simp only [kursReceive, hrec, Option.some.injEq] at h
      subst h
      rcases eq_or_ne c KURS_EOP with he | he
      · simp [Muxponder.listenEop, he]
      · simp [Muxponder.listenEop, he]
  | listenSop =>
      simp only [kursReceive, hrec, Muxponder.listenSop] at h
      rcases eq_or_ne c p.SOP with hsop | hsop
      · rw [if_pos hsop] at h
        simpa using hpush h
      · rw [if_neg hsop, Option.some.injEq] at h
        subst h
        exact ⟨rfl, rfl, rfl, fun b _ => by cases b <;> rfl⟩
  | listenPayload =>
      simp only [kursReceive, hrec] at h
      obtain ⟨r, hr, rfl⟩ := listenPayload_next (fun he => hno ⟨hrec, he⟩) h
      simpa using hpush hr

/-- A held request stays held while no packet completes. -/
theorem Held.receive {h : KursHistory} {p q : KursProcessor} {b : BuffId} {c : UInt8}
    (hh : Held h p b) (hc : completes p c = false) (hq : kursReceive p c = some q) :
    Held (h ++ [(.byte c, .quiet)]) q b ∧ q.buffer b = p.buffer b ∧
      q.buffCopy = p.buffCopy := by
  obtain ⟨hready, hcopy, hbuff, hbuffer⟩ := receive_frame hc hq
  have hsame : q.buffer b = p.buffer b := hbuffer b (hh.active ▸ b.other_ne)
  refine ⟨⟨hready.trans hh.ready, ?_, hbuff.trans hh.active⟩, hsame, hcopy⟩
  rw [history_quiet.2.2, hh.alone, hsame]

/-- A byte that completes a packet while no request waits. -/
theorem serving_publish {h : KursHistory} {p q : KursProcessor} {c : UInt8}
    (hc : completes p c = true) (hq : kursReceive p c = some q) (hopen : openOf h = [])
    (hpub : publishedOf h = handedOf h) :
    Serving (h ++ [(.byte c, .published p.buff (q.buffer p.buff))]) ⟨q, .idle⟩ := by
  obtain ⟨hrec, rfl⟩ : p.receive = .listenPayload ∧ c = KURS_EOP := by
    simpa [completes] using hc
  simp only [kursReceive, hrec] at hq
  obtain ⟨r, hr, hpublish⟩ := listenPayload_eop hq
  have hbuff := (push_frame hr).2.1
  obtain ⟨v, -, -, -, hready, -, hcopy, hactive, -, -⟩ := publish_eq_some hpublish
  rw [hbuff] at hcopy hactive
  obtain ⟨h1, h2, h3⟩ := history_published (h := h) (e := .byte KURS_EOP) (b := p.buff)
    (v := q.buffer p.buff)
  refine Or.inr ⟨p.buff, ⟨hready, ?_, hactive⟩, hcopy, ?_⟩
  · rw [h3, hopen]
    rfl
  · rw [h1, h2, hpub]

/-- A byte that completes no packet. -/
theorem serving_quiet {h : KursHistory} {p q : KursProcessor} {phase : ServicePhase} {c : UInt8}
    (hs : Serving h ⟨p, phase⟩) (hcomp : completes p c = false) (hq : kursReceive p c = some q) :
    Serving (h ++ [(.byte c, .quiet)]) ⟨q, phase⟩ := by
  obtain ⟨h1, h2, h3⟩ := history_quiet (h := h) (e := .byte c)
  cases phase with
  | idle =>
      rcases hs with ⟨hready, hopen, hpub⟩ | ⟨b, hheld, hcopy, hpub⟩
      · refine Or.inl ⟨(receive_frame hcomp hq).1.trans hready, ?_, ?_⟩
        · rw [h3, hopen]
        · rw [h1, h2, hpub]
      · obtain ⟨hheld', hsame, hcopy'⟩ := hheld.receive hcomp hq
        refine Or.inr ⟨b, hheld', hcopy'.trans hcopy, ?_⟩
        rw [h1, h2, hsame, hpub]
  | taken b =>
      obtain ⟨hheld', hsame, -⟩ := hs.1.receive hcomp hq
      refine ⟨hheld', ?_⟩
      rw [h1, h2, hsame]
      exact hs.2
  | handled b =>
      refine ⟨(hs.1.receive hcomp hq).1, ?_⟩
      rw [h1, h2]
      exact hs.2
  | replied b =>
      refine ⟨(hs.1.receive hcomp hq).1, ?_⟩
      rw [h1, h2]
      exact hs.2

/-- A byte that completes a packet does so while no request waits, and so between two calls. -/
theorem serving_completed {h : KursHistory} {p q : KursProcessor} {phase : ServicePhase} {c : UInt8}
    (hs : Serving h ⟨p, phase⟩) (hready : p.requestReady = false) (hcomp : completes p c = true)
    (hq : kursReceive p c = some q) :
    Serving (h ++ [(.byte c, .published p.buff (q.buffer p.buff))]) ⟨q, phase⟩ := by
  cases phase with
  | idle =>
      rcases hs with ⟨-, hopen, hpub⟩ | ⟨b, hheld, -⟩
      · exact serving_publish hcomp hq hopen hpub
      · rw [hheld.ready] at hready
        exact absurd hready (by simp)
  | taken b => exact absurd (hs.1.ready.symm.trans hready) (by simp)
  | handled b => exact absurd (hs.1.ready.symm.trans hready) (by simp)
  | replied b => exact absurd (hs.1.ready.symm.trans hready) (by simp)

/-- A step of the service. -/
theorem serving_service {h : KursHistory} {p : KursProcessor} {phase : ServicePhase}
    {s' : KursSystem} {o : KursObs} (hs : Serving h ⟨p, phase⟩)
    (hc : Undisturbed ⟨p, phase⟩ .service)
    (hstep : (kursMachine handleRequests).step ⟨p, phase⟩ .service = some (s', o)) :
    Serving (h ++ [(.service, o)]) s' := by
  cases phase with
  | idle =>
      obtain ⟨h1, h2, h3⟩ := history_quiet (h := h) (e := .service)
      rcases hs with ⟨hready, hopen, hpub⟩ | ⟨b, hheld, hcopy, hpub⟩
      · have hready : p.requestReady = false := hready
        simp only [kursMachine, kursStep, hready, Bool.false_eq_true, if_false,
          Option.some.injEq] at hstep
        obtain ⟨rfl, rfl⟩ := Prod.mk.inj hstep
        refine Or.inl ⟨hready, ?_, ?_⟩
        · rw [h3, hopen]
        · rw [h1, h2, hpub]
      · have hcopy : p.buffCopy = some b := hcopy
        have hready : p.requestReady = true := hheld.ready
        simp only [kursMachine, kursStep, hready, if_true, hcopy, Option.map_some,
          Option.some.injEq] at hstep
        obtain ⟨rfl, rfl⟩ := Prod.mk.inj hstep
        refine ⟨⟨hready, ?_, hheld.active⟩, ?_⟩
        · rw [h3, hheld.alone]
        · rw [h1, h2, hpub]
  | taken b =>
      obtain ⟨hheld, hpub⟩ := hs
      have hspare := handleRequests_spares (hc b rfl)
      simp only [kursMachine, kursStep, Option.some.injEq, hspare] at hstep
      obtain ⟨rfl, rfl⟩ := Prod.mk.inj hstep
      obtain ⟨h1, h2, h3⟩ := history_handed (h := h) (e := .service) (b := b)
        (v := p.buffer b)
      refine ⟨⟨?_, ?_, ?_⟩, ?_⟩
      · simpa using hheld.ready
      · rw [h3, hheld.alone, buffer_setBuffer_self]
      · simpa using hheld.active
      · rw [h1, h2]
        exact hpub
  | handled b =>
      simp only [kursMachine, kursStep, Option.some.injEq] at hstep
      obtain ⟨rfl, rfl⟩ := Prod.mk.inj hstep
      obtain ⟨h1, h2, h3⟩ := history_quiet (h := h) (e := .service)
      refine ⟨⟨hs.1.ready, ?_, hs.1.active⟩, ?_⟩
      · rw [h3, hs.1.alone]
      · rw [h1, h2]
        exact hs.2
  | replied b =>
      simp only [kursMachine, kursStep, Option.some.injEq] at hstep
      obtain ⟨rfl, rfl⟩ := Prod.mk.inj hstep
      obtain ⟨h1, h2, h3⟩ := history_cleared (h := h) (e := .service)
      refine Or.inl ⟨rfl, h3, ?_⟩
      rw [h1, h2]
      exact hs.2

/-- **The step lemma**: an undisturbed step keeps the invariant. -/
theorem serving_step {h : KursHistory} {s s' : KursSystem} {e : KursEvent} {o : KursObs}
    (hs : Serving h s) (hc : Undisturbed s e)
    (hstep : (kursMachine handleRequests).step s e = some (s', o)) :
    Serving (h ++ [(e, o)]) s' := by
  obtain ⟨p, phase⟩ := s
  cases e with
  | byte c =>
      obtain ⟨hq, hphase, ho⟩ := byte_receive hstep
      obtain ⟨q, phase'⟩ := s'
      obtain rfl : phase' = phase := hphase
      cases hcomp : completes p c with
      | true =>
          rw [hcomp, if_pos rfl] at ho
          exact ho ▸ serving_completed hs (hc hcomp) hcomp hq
      | false =>
          rw [hcomp, if_neg (by simp)] at ho
          exact ho ▸ serving_quiet hs hcomp hq
  | service => exact serving_service hs hc hstep

/-- The invariant holds along every undisturbed run. -/
theorem serving_run {sop : UInt8} {mem1 mem2 : Buffer} {h : KursHistory} {s : KursSystem}
    (hr : (kursMachine handleRequests).Run (kursInit sop mem1 mem2) h s)
    (hc : (kursMachine handleRequests).Along (kursInit sop mem1 mem2) h Undisturbed) :
    Serving h s := by
  have h0 : Serving [] (kursInit sop mem1 mem2) := Or.inl ⟨rfl, rfl, rfl⟩
  exact hr.invariant_along h0 (fun _ _ _ _ _ _ hs hc hstep => serving_step hs hc hstep) hc

/-- **No request is torn or lost** along a run in which no frame completes while the flag
is set and no request is handed over that its handler writes to. -/
theorem service_run {sop : UInt8} {mem1 mem2 : Buffer} {h : KursHistory} {s : KursSystem}
    (hr : (kursMachine handleRequests).Run (kursInit sop mem1 mem2) h s)
    (hc : (kursMachine handleRequests).Along (kursInit sop mem1 mem2) h Undisturbed) :
    NoneLost h s := by
  have hs := serving_run hr hc
  obtain ⟨p, phase⟩ := s
  have huntorn : ∀ {b}, Held h p b → ∀ r ∈ openOf h, p.buffer r.1 = r.2 := by
    intro b hheld r hmem
    rw [hheld.alone, List.mem_singleton] at hmem
    subst hmem
    rfl
  cases phase with
  | idle =>
      rcases hs with ⟨-, hopen, hpub⟩ | ⟨b, hheld, hcopy, hpub⟩
      · exact ⟨by simp [hopen], Or.inl hpub⟩
      · have hready : p.requestReady = true := hheld.ready
        have hcopy : p.buffCopy = some b := hcopy
        refine ⟨huntorn hheld, Or.inr ⟨_, hpub, ?_⟩⟩
        simp [Machine.exec, kursMachine, kursStep, hready, hcopy]
  | taken b =>
      refine ⟨huntorn hs.1, Or.inr ⟨_, hs.2, ?_⟩⟩
      simp [Machine.exec, kursMachine, kursStep]
  | handled b => exact ⟨huntorn hs.1, Or.inl hs.2⟩
  | replied b => exact ⟨huntorn hs.1, Or.inl hs.2⟩

/-- A request just published is not lost. -/
theorem service_run_request : ∃ h s, (publishedOf h).length = 1 ∧ NoneLost h s := by
  have r₀ : (kursMachine handleRequests).Run (kursInit 0x81 Buffer.zero Buffer.zero) []
      (kursInit 0x81 Buffer.zero Buffer.zero) := Machine.Run.nil
  have r₁ := r₀.snoc (byte_step (c := KURS_EOP) rfl)
  have r₂ := r₁.snoc (byte_step (c := 0x81) rfl)
  have r₃ := r₂.snoc (byte_step (c := 0x41) rfl)
  have r₄ := r₃.snoc (byte_step (c := KURS_EOP) rfl)
  have hc₀ : (kursMachine handleRequests).Along (kursInit 0x81 Buffer.zero Buffer.zero) []
      Undisturbed := fun h₁ _ _ _ _ hh => absurd hh (by simp)
  have hbyte : ∀ {s : KursSystem} {c : UInt8}, s.proc.requestReady = false →
      Undisturbed s (.byte c) := fun h _ => h
  refine ⟨_, _, ?_, service_run r₄ ?_⟩
  · rfl
  · exact (((hc₀.snoc r₀ (hbyte rfl)).snoc r₁ (hbyte rfl)).snoc r₂ (hbyte rfl)).snoc r₃
      (hbyte rfl)

/-- What an observation is about, without the contents. -/
def KursObs.tag : KursObs → ℕ
  | .quiet => 0
  | .published _ _ => 1
  | .handed _ _ => 2
  | .cleared => 3

/-- A request, and another one that completes between the reply and the end of the call
that serves the first. -/
def overtakenEvents : List KursEvent :=
  [.byte KURS_EOP, .byte 0x81, .byte 0x41, .byte KURS_EOP, .service, .service, .service,
    .byte 0x81, .byte 0x42, .byte KURS_EOP, .service]

/-- The events run through with two requests published and one handed over. -/
theorem overtaken_exec :
    ((kursMachine handleRequests).exec (kursInit 0x81 Buffer.zero Buffer.zero)
      overtakenEvents).map (fun r => (r.1.phase, r.1.proc.requestReady, r.2.map KursObs.tag)) =
    some (.idle, false, [0, 0, 0, 1, 0, 2, 0, 0, 0, 1, 3]) := rfl

/-- The publications of a history are counted by its observations. -/
theorem publishedOf_length (h : KursHistory) :
    (publishedOf h).length = ((h.map Prod.snd).map KursObs.tag).count 1 := by
  induction h with
  | nil => rfl
  | cons e h ih =>
      obtain ⟨e, o⟩ := e
      cases o <;> simp_all [publishedOf, KursObs.tag]

/-- The requests handed over in a history are counted by its observations. -/
theorem handedOf_length (h : KursHistory) :
    (handedOf h).length = ((h.map Prod.snd).map KursObs.tag).count 2 := by
  induction h with
  | nil => rfl
  | cons e h ih =>
      obtain ⟨e, o⟩ := e
      cases o <;> simp_all [handedOf, KursObs.tag]

/-- **A request is lost** when it completes between the reply to another and the end of
the call that serves that one. -/
theorem service_loses_request :
    ¬ ∀ (sop : UInt8) (mem1 mem2 : Buffer) (h : KursHistory) (s : KursSystem),
      (kursMachine handleRequests).Run (kursInit sop mem1 mem2) h s → NoneLost h s := by
  intro hall
  obtain ⟨⟨s, os⟩, hexec, htag⟩ := Option.map_eq_some_iff.mp overtaken_exec
  obtain ⟨h, hr, -, hos⟩ := Machine.exec_eq_some_iff.mp hexec
  obtain ⟨hphase, hready, htags⟩ : s.phase = .idle ∧ s.proc.requestReady = false ∧
      os.map KursObs.tag = [0, 0, 0, 1, 0, 2, 0, 0, 0, 1, 3] := by
    simpa using htag
  have hpub : (publishedOf h).length = 2 := by
    rw [publishedOf_length, hos, htags]
    rfl
  have hhand : (handedOf h).length = 1 := by
    rw [handedOf_length, hos, htags]
    rfl
  rcases (hall _ _ _ h s hr).handed with heq | ⟨r, -, s', os', hnext, hmem⟩
  · rw [heq, hhand] at hpub
    exact absurd hpub (by decide)
  · simp only [Machine.exec, kursMachine, kursStep, hphase, hready, Bool.false_eq_true,
      if_false, Option.bind_some, Option.map_some, Option.some.injEq] at hnext
    obtain ⟨-, rfl⟩ := Prod.mk.inj hnext
    simp at hmem

end Muxponder

import Mathlib.Data.List.TakeWhile
import Muxponder.KursLine
import Muxponder.KursReplyBound

/-!
# Requests Answered on the Line

As long as no frame completes while a request is waiting or being served, and every word finds room
in the ring buffer, each frame is answered once, in order, and with its whole reply; and so it is
with the packets of the other protocol, whatever comes in between.

What serves the requests is a parameter first, and then the handlers of `kursHandleRequests`: what
holds of every run of the requests holds of what is received and sent.

## Main results

* `lineStep_keeps`: what one step does to the requests, the server and the words on their way.
* `line_answers`, `line_quiets`: the words written are the replies to the frames received, and all
  of them are written in the end.
* `kurs_line_answers`, `kurs_line_quiets`: the same of the handlers.
-/

namespace Muxponder

open KursProcessor Framing

variable {σ : Type*}

/-- The reply that is still to be sent. -/
def KursLine.pendingReply (s : KursLine σ) : List ArmPacket :=
  match s.kurs.phase with
  | .handled _ => [.kurs s.tx_buff]
  | _ => []

/-- **The invariant of the line**: the frames are those answered and the one that waits, the
requests answered are served one after the other, and of their replies and of the packets of the
other protocol every word is accounted for. -/
structure LineKept (answer : σ → Buffer → Option (σ × List UInt8)) (sop : UInt8) (server : σ)
    (h : LineHistory) (s : KursLine σ) : Prop where
  reception : LineReception sop h.received h.requests s.kurs
  served : serve answer server h.requests = some (s.server, h.replies)
  sent : ∃ calls, Transmission h.written calls s.transmitter ∧ calls true = h.packets ∧
    calls false ++ s.pendingReply = h.replies

variable {answer : σ → Buffer → Option (σ × List UInt8)} {sop : UInt8} {server : σ}
  {h : LineHistory} {s s' : KursLine σ} {e : LineEvent} {o : LineObs}

/-- One step more. -/
theorem LineKept.snoc
    (hreception : LineReception sop (h.received ++ e.bytes) (h.requests ++ o.requests) s'.kurs)
    (hserved : serve answer server (h.requests ++ o.requests) =
      some (s'.server, h.replies ++ o.replies))
    (hsent : ∃ calls, Transmission (h.written ++ o.words) calls s'.transmitter ∧
      calls true = h.packets ++ e.calls ∧
      calls false ++ s'.pendingReply = h.replies ++ o.replies) :
    LineKept answer sop server (h ++ [(e, o)]) s' := by
  refine ⟨?_, ?_, ?_⟩
  · simpa [LineHistory.received, LineHistory.requests] using hreception
  · simpa [LineHistory.replies, LineHistory.requests] using hserved
  · simpa [LineHistory.written, LineHistory.packets, LineHistory.replies] using hsent

/-- A word is received. -/
theorem LineKept.rrdy {data : UInt16} (hk : LineKept answer sop server h s)
    (hroom : HasRoom s (.rrdy data)) (hs : lineStep answer s (.rrdy data) = some (s', o)) :
    LineKept answer sop server (h ++ [(.rrdy data, o)]) s' := by
  rw [lineStep] at hs
  by_cases hbit : bitIsSet data BIT8 = true
  · rw [if_pos hbit, Option.some.injEq] at hs
    obtain ⟨rfl, rfl⟩ := Prod.mk.inj hs
    have hreceived : (LineEvent.rrdy data).bytes = [] := by simp [LineEvent.bytes, hbit]
    refine LineKept.snoc ?_ ?_ ?_
    · simpa [hreceived, LineObs.requests] using hk.reception
    · simpa [LineObs.requests, LineObs.replies] using hk.served
    · simpa [LineObs.words, LineEvent.calls, LineObs.replies] using hk.sent
  · rw [if_neg hbit] at hs
    obtain ⟨p, hp, hps⟩ := Option.map_eq_some_iff.mp hs
    obtain ⟨rfl, rfl⟩ := Prod.mk.inj hps
    have hreceived : (LineEvent.rrdy data).bytes = [data.toUInt8] := by
      simp [LineEvent.bytes, hbit]
    refine LineKept.snoc ?_ ?_ ?_
    · have hrequests : h.requests ++ LineObs.quiet.requests = h.requests := List.append_nil _
      rw [hreceived, hrequests]
      cases hc : completes s.kurs.proc data.toUInt8 with
      | true => exact hk.reception.complete hc (hroom (by simpa using hbit) hc) hp
      | false => exact hk.reception.byte hc hp
    · simpa [LineObs.requests, LineObs.replies] using hk.served
    · simpa [LineObs.words, LineEvent.calls, LineObs.replies, KursLine.pendingReply] using hk.sent

/-- `kurs_service` makes its next step. -/
theorem LineKept.service (hk : LineKept answer sop server h s) (hroom : HasRoom s .service)
    (hs : lineStep answer s .service = some (s', o)) :
    LineKept answer sop server (h ++ [(.service, o)]) s' := by
  obtain ⟨⟨k, ko⟩, hkurs, hs⟩ := Option.bind_eq_some_iff.mp hs
  obtain ⟨calls, hsent, hpackets, hreplies⟩ := hk.sent
  rw [KursLine.pendingReply] at hreplies
  cases hphase : s.kurs.phase with
  | idle =>
      simp only [hphase, List.append_nil] at hs hreplies
      obtain ⟨rfl, rfl⟩ := Prod.mk.inj (Option.some.inj hs)
      have hreception := hk.reception.idle hphase hkurs
      have hpending : KursLine.pendingReply { s with kurs := k } = [] := by
        rw [kursStep, hphase] at hkurs
        dsimp only at hkurs
        split at hkurs
        · obtain ⟨b, -, hb⟩ := Option.map_eq_some_iff.mp hkurs
          obtain ⟨rfl, -⟩ := Prod.mk.inj hb
          rfl
        · obtain ⟨rfl, -⟩ := Prod.mk.inj (Option.some.inj hkurs)
          simp [KursLine.pendingReply, hphase]
      refine LineKept.snoc ?_ ?_ ⟨calls, ?_, ?_, ?_⟩
      · simpa [LineEvent.bytes, LineObs.requests] using hreception
      · simpa [LineObs.requests, LineObs.replies] using hk.served
      · simpa [LineObs.words] using hsent
      · simpa [LineEvent.calls] using hpackets
      · simpa [LineObs.replies, hpending] using hreplies
  | taken b =>
      simp only [hphase, List.append_nil] at hs hreplies
      obtain ⟨a, ha, hs⟩ := Option.bind_eq_some_iff.mp hs
      split at hs
      case isFalse => cases hs
      obtain ⟨rfl, rfl⟩ := Prod.mk.inj (Option.some.inj hs)
      simp only [kursStep, hphase, Option.some.injEq] at hkurs
      obtain ⟨rfl, -⟩ := Prod.mk.inj hkurs
      refine LineKept.snoc ?_ ?_ ⟨calls, ?_, ?_, ?_⟩
      · simpa [LineEvent.bytes, LineObs.requests] using hk.reception.handle hphase
      · exact serve_snoc hk.served ha
      · simpa [LineObs.words] using hsent
      · simpa [LineEvent.calls] using hpackets
      · simp [LineObs.replies, KursLine.pendingReply, hreplies]
  | handled b =>
      simp only [hphase] at hs hreplies
      obtain ⟨t, ht, hs⟩ := Option.map_eq_some_iff.mp hs
      obtain ⟨rfl, rfl⟩ := Prod.mk.inj hs
      simp only [kursStep, hphase, Option.some.injEq] at hkurs
      obtain ⟨rfl, -⟩ := Prod.mk.inj hkurs
      refine LineKept.snoc ?_ ?_ ⟨Function.update calls false (calls false ++ [.kurs s.tx_buff]),
        ?_, ?_, ?_⟩
      · simpa [LineEvent.bytes, LineObs.requests] using hk.reception.reply hphase
      · simpa [LineObs.requests, LineObs.replies] using hk.served
      · simpa [LineObs.words, ArmPacket.isArm] using hsent.begin (hroom b hphase) ht
      · simpa [LineEvent.calls, ArmPacket.isArm] using hpackets
      · simpa [LineObs.replies, KursLine.pendingReply, ArmPacket.isArm] using hreplies
  | replied b =>
      simp only [hphase, List.append_nil] at hs hreplies
      split at hs
      case isFalse => cases hs
      obtain ⟨rfl, rfl⟩ := Prod.mk.inj (Option.some.inj hs)
      simp only [kursStep, hphase, Option.some.injEq] at hkurs
      obtain ⟨rfl, -⟩ := Prod.mk.inj hkurs
      refine LineKept.snoc ?_ ?_ ⟨calls, ?_, ?_, ?_⟩
      · simpa [LineEvent.bytes, LineObs.requests] using hk.reception.clear hphase
      · simpa [LineObs.requests, LineObs.replies] using hk.served
      · simpa [LineObs.words] using hsent
      · simpa [LineEvent.calls] using hpackets
      · simpa [LineObs.replies, KursLine.pendingReply] using hreplies

/-- A packet of the other protocol begins to be queued. -/
theorem LineKept.packet {packet : List UInt8} (hk : LineKept answer sop server h s)
    (hroom : HasRoom s (.packet packet)) (hs : lineStep answer s (.packet packet) = some (s', o)) :
    LineKept answer sop server (h ++ [(.packet packet, o)]) s' := by
  obtain ⟨t, ht, hs⟩ := Option.map_eq_some_iff.mp hs
  obtain ⟨rfl, rfl⟩ := Prod.mk.inj hs
  obtain ⟨calls, hsent, hpackets, hreplies⟩ := hk.sent
  refine LineKept.snoc ?_ ?_ ⟨Function.update calls true (calls true ++ [.arm packet]), ?_, ?_, ?_⟩
  · simpa [LineEvent.bytes, LineObs.requests] using hk.reception
  · simpa [LineObs.requests, LineObs.replies] using hk.served
  · simpa [LineObs.words, ArmPacket.isArm] using hsent.begin hroom ht
  · simpa [LineEvent.calls, ArmPacket.isArm] using hpackets
  · simpa [LineObs.replies, KursLine.pendingReply, ArmPacket.isArm] using hreplies

/-- The call in progress goes on. -/
theorem LineKept.next (hk : LineKept answer sop server h s) (hroom : HasRoom s .next)
    (hs : lineStep answer s .next = some (s', o)) :
    LineKept answer sop server (h ++ [(.next, o)]) s' := by
  obtain ⟨t, ht, hs⟩ := Option.map_eq_some_iff.mp hs
  obtain ⟨rfl, rfl⟩ := Prod.mk.inj hs
  obtain ⟨calls, hsent, hpackets, hreplies⟩ := hk.sent
  refine LineKept.snoc ?_ ?_ ⟨calls, ?_, ?_, ?_⟩
  · simpa [LineEvent.bytes, LineObs.requests] using hk.reception
  · simpa [LineObs.requests, LineObs.replies] using hk.served
  · simpa [LineObs.words] using hsent.continue hroom ht
  · simpa [LineEvent.calls] using hpackets
  · simpa [LineObs.replies, KursLine.pendingReply] using hreplies

/-- A word that is written is all that is to be seen of it. -/
theorem written_obs (word : Option UInt16) {o : LineObs}
    (ho : (match word with
      | some word => LineObs.written word
      | none => .quiet) = o) : o.words = word.toList ∧ o.requests = [] ∧ o.replies = [] := by
  subst ho
  cases word <;> exact ⟨rfl, rfl, rfl⟩

/-- The UART is ready. -/
theorem LineKept.trdy (hk : LineKept answer sop server h s)
    (hs : lineStep answer s .trdy = some (s', o)) :
    LineKept answer sop server (h ++ [(.trdy, o)]) s' := by
  obtain ⟨rfl, ho⟩ := Prod.mk.inj (Option.some.inj hs)
  obtain ⟨calls, hsent, hpackets, hreplies⟩ := hk.sent
  obtain ⟨hwords, hrequests, hnone⟩ := written_obs _ ho
  refine LineKept.snoc ?_ ?_ ⟨calls, ?_, ?_, ?_⟩
  · simpa [LineEvent.bytes, hrequests] using hk.reception
  · simpa [hrequests, hnone] using hk.served
  · simpa [hwords] using hsent.ready
  · simpa [LineEvent.calls] using hpackets
  · simpa [hnone, KursLine.pendingReply] using hreplies

/-- **What one step does**, if there is room. -/
theorem lineStep_keeps (hk : LineKept answer sop server h s) (hroom : HasRoom s e)
    (hs : lineStep answer s e = some (s', o)) : LineKept answer sop server (h ++ [(e, o)]) s' := by
  cases e with
  | rrdy data => exact hk.rrdy hroom hs
  | service => exact hk.service hroom hs
  | packet packet => exact hk.packet hroom hs
  | next => exact hk.next hroom hs
  | trdy => exact hk.trdy hs

variable {mem1 mem2 : Buffer} {buf : Fin (2 ^ TX_ORDER) → UInt16}

/-- At start-up nothing has happened. -/
theorem lineKept_init :
    LineKept answer sop server [] (lineInit sop mem1 mem2 server buf) := by
  have hring : (transmitterInit buf).ring.contents = [] := RingBuffer.contents_init
  refine ⟨⟨standsAt_init sop mem1 mem2, rfl, List.nil_prefix, ?_, .nil⟩, rfl,
    fun _ => [], ⟨?_, ?_, ?_⟩, rfl, rfl⟩
  · simp [KursSystem.InPhase, lineInit, kursInit, kursProcessorInit]
  · intro arm
    rw [lineInit, hring]
    cases arm <;> rfl
  · simp
  · simp [lineInit, hring]

/-- What is known after a history is known after a longer one. -/
theorem LineKept.run {h' : LineHistory} (hk : LineKept answer sop server h s)
    (hr : (lineMachine answer).Run s h' s')
    (hc : (lineMachine answer).Along s h' HasRoom) :
    LineKept answer sop server (h ++ h') s' := by
  refine Machine.Run.invariant_along (I := fun h' s' => LineKept answer sop server (h ++ h') s')
    (by simpa using hk) (fun h' s e s' o _ hk hroom hs => ?_) hr hc
  rw [← List.append_assoc]
  exact lineStep_keeps hk hroom hs

/-- The words that have been written, in front of those that are on their way. -/
theorem Transmission.written_prefix {written : List UInt16} {calls : Bool → List ArmPacket}
    {t : ArmTransmitter} (ht : Transmission written calls t) (arm : Bool) :
    tagged arm written <+: wordsOf (calls arm) := by
  rw [← ht.sent arm, tagged_append, List.append_assoc]
  exact List.prefix_append _ _

/-- All words have been written. -/
theorem Transmission.written_eq {written : List UInt16} {calls : Bool → List ArmPacket}
    {t : ArmTransmitter} (ht : Transmission written calls t) (hd : t.drained) (arm : Bool) :
    tagged arm written = wordsOf (calls arm) := by
  obtain ⟨hring, hkurs, harm⟩ := hd
  have hrest : t.restOf arm = [] := by
    cases arm
    · exact hkurs
    · exact harm
  rw [← ht.sent arm, hring, hrest, List.append_nil, List.append_nil]

/-- **The line answers**: along every run with room for what is received and sent, each frame
becomes one request, in order; the requests that have been answered are served one after the other;
and what is written are the words of the replies and those of the packets of the other protocol,
each in order and told apart by the ninth bit. -/
theorem line_answers (hsop : sop ≠ KURS_EOP)
    (hr : (lineMachine answer).Run (lineInit sop mem1 mem2 server buf) h s)
    (hc : (lineMachine answer).Along (lineInit sop mem1 mem2 server buf) h HasRoom) :
    List.Forall₂ IsRequest (oddFrames sop KURS_EOP h.received) (h.requests ++ s.kurs.waiting) ∧
      serve answer server h.requests = some (s.server, h.replies) ∧
      tagged false h.written <+: wordsOf h.replies ∧
      tagged true h.written <+: wordsOf h.packets := by
  have hk : LineKept answer sop server h s := lineKept_init.run hr hc
  obtain ⟨calls, hsent, hpackets, hreplies⟩ := hk.sent
  refine ⟨?_, hk.served, ?_, ?_⟩
  · have hframes := hk.reception.frames
    rwa [packets_outside hsop 0] at hframes
  · rw [← hreplies, wordsOf, List.flatMap_append]
    exact (hsent.written_prefix false).trans (List.prefix_append _ _)
  · rw [← hpackets]
    exact hsent.written_prefix true

/-! ### What has been received is answered -/

/-- A step of the line that nothing comes in with. -/
def SelfStep (answer : σ → Buffer → Option (σ × List UInt8)) (s s' : KursLine σ) : Prop :=
  ∃ e o, e.bytes = [] ∧ e.calls = [] ∧ HasRoom s e ∧ lineStep answer s e = some (s', o)

/-- The words that have still to be written, those to be queued counted twice. -/
def ArmTransmitter.left (t : ArmTransmitter) : ℕ :=
  t.ring.contents.length + 2 * (t.kurs.rest.length + t.arm.rest.length)

/-- A word more in the ring buffer, at the most. -/
theorem queueDataToArm_length_le (t : ArmTransmitter) (w : UInt16) :
    (queueDataToArm t w).ring.contents.length ≤ t.ring.contents.length + 1 := by
  rw [queueDataToArm]
  split
  next ring hput => simp [RingBuffer.contents_of_put hput]
  next => exact Nat.le_succ _

/-- The transmitter of the line can do something about the words that are left. -/
theorem left_decreases {ht : TransmitHistory} {t : ArmTransmitter}
    (hr : armTransmitter.Run (transmitterInit buf) ht t) (hleft : ¬ t.drained) :
    t.ready.1.left < t.left ∨
      t.ring.full = false ∧ ∃ t', t.continue = some t' ∧ t'.left < t.left := by
  cases hring : t.ring.contents with
  | cons w ws =>
      -- the UART takes a word
      refine Or.inl ?_
      have hon := itrdy_of_queued hr (by simp [hring])
      obtain ⟨⟨hkurs, harm⟩, hcases⟩ := ready_cases (t := t)
      rcases hcases with ⟨hnone, -⟩ | ⟨d, -, hcontents⟩
      · rw [ArmTransmitter.ready, if_pos hon, callbackUartTrdy] at hnone
        split at hnone
        next hget => simp [RingBuffer.get_eq_none_iff.mp hget] at hring
        next => simp at hnone
      · have hlen := congrArg List.length hcontents
        rw [List.length_cons] at hlen
        rw [ArmTransmitter.left, ArmTransmitter.left, hkurs, harm]
        omega
  | nil =>
      -- a word is queued
      refine Or.inr ⟨?_, ?_⟩
      · rw [← Bool.not_eq_true, RingBuffer.full_iff, hring]
        simp [TX_ORDER]
      · cases hkurs : t.kurs.rest with
        | cons w ws =>
            refine ⟨{ queueDataToArm t w with kurs := { t.kurs with rest := ws } }, ?_, ?_⟩
            · rw [ArmTransmitter.continue, hkurs]
            · have hlen := queueDataToArm_length_le t w
              have hsame := (queueDataToArm_calls (t := t) (w := w)).2
              simp only [ArmTransmitter.left, hkurs, hsame, List.length_cons]
              omega
        | nil =>
            cases harm : t.arm.rest with
            | cons w ws =>
                refine ⟨{ queueDataToArm t w with arm := { t.arm with rest := ws } }, ?_, ?_⟩
                · rw [ArmTransmitter.continue, hkurs, harm]
                · have hlen := queueDataToArm_length_le t w
                  have hsame := (queueDataToArm_calls (t := t) (w := w)).1
                  simp only [ArmTransmitter.left, hkurs, harm, hsame, List.length_cons]
                  omega
            | nil => exact absurd ⟨hring, hkurs, harm⟩ hleft

/-- The transmitter of the line runs as it does alone. -/
def Transmits (buf : Fin (2 ^ TX_ORDER) → UInt16) (t : ArmTransmitter) : Prop :=
  ∃ ht, armTransmitter.Run (transmitterInit buf) ht t

/-- Each step of the line is one of its transmitter, or none. -/
theorem Transmits.step (ht : Transmits buf s.transmitter)
    (hs : lineStep answer s e = some (s', o)) : Transmits buf s'.transmitter := by
  obtain ⟨ht, hr⟩ := ht
  have hstep : ∀ e' o', armTransmitter.step s.transmitter e' = some (s'.transmitter, o') →
      Transmits buf s'.transmitter := fun _ _ h => ⟨_, hr.snoc h⟩
  have hsame : s'.transmitter = s.transmitter → Transmits buf s'.transmitter :=
    fun h => h ▸ ⟨ht, hr⟩
  cases e with
  | rrdy data =>
      rw [lineStep] at hs
      split at hs
      · obtain ⟨rfl, -⟩ := Prod.mk.inj (Option.some.inj hs)
        exact hsame rfl
      · obtain ⟨p, -, hs⟩ := Option.map_eq_some_iff.mp hs
        obtain ⟨rfl, -⟩ := Prod.mk.inj hs
        exact hsame rfl
  | service =>
      obtain ⟨r, -, hs⟩ := Option.bind_eq_some_iff.mp hs
      cases hphase : s.kurs.phase with
      | idle =>
          simp only [hphase] at hs
          obtain ⟨rfl, -⟩ := Prod.mk.inj (Option.some.inj hs)
          exact hsame rfl
      | taken b =>
          simp only [hphase] at hs
          obtain ⟨a, -, hs⟩ := Option.bind_eq_some_iff.mp hs
          split at hs
          case isFalse => cases hs
          obtain ⟨rfl, -⟩ := Prod.mk.inj (Option.some.inj hs)
          exact hsame rfl
      | handled b =>
          simp only [hphase] at hs
          obtain ⟨t, ht, hs⟩ := Option.map_eq_some_iff.mp hs
          obtain ⟨rfl, -⟩ := Prod.mk.inj hs
          exact hstep (.call (.kurs s.tx_buff)) none (Option.map_eq_some_iff.mpr ⟨t, ht, rfl⟩)
      | replied b =>
          simp only [hphase] at hs
          split at hs
          case isFalse => cases hs
          obtain ⟨rfl, -⟩ := Prod.mk.inj (Option.some.inj hs)
          exact hsame rfl
  | packet packet =>
      obtain ⟨t, ht, hs⟩ := Option.map_eq_some_iff.mp hs
      obtain ⟨rfl, -⟩ := Prod.mk.inj hs
      exact hstep (.call (.arm packet)) none (Option.map_eq_some_iff.mpr ⟨t, ht, rfl⟩)
  | next =>
      obtain ⟨t, ht, hs⟩ := Option.map_eq_some_iff.mp hs
      obtain ⟨rfl, -⟩ := Prod.mk.inj hs
      exact hstep .next none (Option.map_eq_some_iff.mpr ⟨t, ht, rfl⟩)
  | trdy =>
      obtain ⟨rfl, -⟩ := Prod.mk.inj (Option.some.inj hs)
      exact hstep .trdy s.transmitter.ready.2 rfl

section Quiet

variable (answer)

/-- The transmitter takes all words that are left. -/
theorem line_drains (ht : Transmits buf s.transmitter) :
    ∃ t, Relation.ReflTransGen (SelfStep answer) s { s with transmitter := t } ∧ t.drained ∧
      Transmits buf t := by
  obtain ⟨n, hn⟩ : ∃ n, s.transmitter.left = n := ⟨_, rfl⟩
  induction n using Nat.strong_induction_on generalizing s with
  | _ n ih =>
      by_cases hleft : s.transmitter.drained
      · exact ⟨s.transmitter, .refl, hleft, ht⟩
      obtain ⟨hist, hr⟩ := ht
      rcases left_decreases hr hleft with hlt | ⟨hroom, t, hnext, hlt⟩
      · obtain ⟨o, ho⟩ : ∃ o, lineStep answer s .trdy =
            some ({ s with transmitter := s.transmitter.ready.1 }, o) := ⟨_, rfl⟩
        have hself : SelfStep answer s { s with transmitter := s.transmitter.ready.1 } :=
          ⟨.trdy, o, rfl, rfl, trivial, ho⟩
        obtain ⟨t, hsteps, hdrained, htransmits⟩ :=
          ih _ (hn ▸ hlt) (Transmits.step ⟨hist, hr⟩ ho) rfl
        exact ⟨t, .head hself hsteps, hdrained, htransmits⟩
      · have ho : lineStep answer s .next = some ({ s with transmitter := t }, .quiet) := by
          rw [lineStep, hnext]
          rfl
        have hself : SelfStep answer s { s with transmitter := t } :=
          ⟨.next, .quiet, rfl, rfl, hroom, ho⟩
        obtain ⟨t', hsteps, hdrained, htransmits⟩ :=
          ih _ (hn ▸ hlt) (Transmits.step ⟨hist, hr⟩ ho) rfl
        exact ⟨t', .head hself hsteps, hdrained, htransmits⟩

/-- A reply that has been handed over is sent, and the flag cleared. -/
theorem replied_quiets {b : BuffId} (ht : Transmits buf s.transmitter)
    (hphase : s.kurs.phase = .replied b) :
    ∃ s', Relation.ReflTransGen (SelfStep answer) s s' ∧ s'.Quiet := by
  obtain ⟨t, hsteps, hdrained, -⟩ := line_drains answer ht
  have hlast : SelfStep answer { s with transmitter := t }
      { s with kurs := ⟨{ s.kurs.proc with requestReady := false }, .idle⟩, transmitter := t } := by
    refine ⟨.service, .quiet, rfl, rfl, fun c hc => ?_, ?_⟩
    · exact absurd (hphase.symm.trans hc) (by simp)
    · simp [lineStep, kursStep, hphase, hdrained.2.1]
  exact ⟨_, hsteps.tail hlast, rfl, rfl, hdrained⟩

/-- A reply that has been made is handed over. -/
theorem handled_quiets {b : BuffId} (ht : Transmits buf s.transmitter)
    (hphase : s.kurs.phase = .handled b) :
    ∃ s', Relation.ReflTransGen (SelfStep answer) s s' ∧ s'.Quiet := by
  obtain ⟨t, hsteps, hdrained, htransmits⟩ := line_drains answer ht
  obtain ⟨t', ht'⟩ : ∃ t', t.begin (.kurs s.tx_buff) = some t' := by
    rw [ArmTransmitter.begin, if_pos ⟨hdrained.2.1, fun h => by simp [ArmPacket.isArm] at h⟩]
    split <;> exact ⟨_, rfl⟩
  have hroom : t.ring.full = false := by
    rw [← Bool.not_eq_true, RingBuffer.full_iff, hdrained.1]
    simp [TX_ORDER]
  have hs : lineStep answer { s with transmitter := t } .service =
      some ({ s with kurs := ⟨s.kurs.proc, .replied b⟩, transmitter := t' }, .quiet) := by
    simp [lineStep, kursStep, hphase, ht']
  have hself : SelfStep answer { s with transmitter := t }
      { s with kurs := ⟨s.kurs.proc, .replied b⟩, transmitter := t' } :=
    ⟨.service, .quiet, rfl, rfl, fun _ _ => hroom, hs⟩
  obtain ⟨s', hrest, hquiet⟩ := replied_quiets answer
    (Transmits.step htransmits hs) rfl
  exact ⟨s', hsteps.trans (.head hself hrest), hquiet⟩

/-- The request that waits can be served, and its reply has room. -/
def KursLine.Answers (answer : σ → Buffer → Option (σ × List UInt8)) (s : KursLine σ) : Prop :=
  ∀ r ∈ s.kurs.waiting, ∃ a, answer s.server r = some a ∧ a.2.length + 1 ≤ TX_BUFF_SIZE

/-- A request that has been taken is served. -/
theorem taken_quiets {b : BuffId} (hanswers : s.Answers answer)
    (ht : Transmits buf s.transmitter) (hphase : s.kurs.phase = .taken b) :
    ∃ s', Relation.ReflTransGen (SelfStep answer) s s' ∧ s'.Quiet := by
  obtain ⟨a, ha, hfits⟩ := hanswers (s.kurs.proc.buffer b) (by simp [KursSystem.waiting, hphase])
  have hs : lineStep answer s .service =
      some (⟨⟨s.kurs.proc.setBuffer b (handleRequests (s.kurs.proc.buffer b)), .handled b⟩,
        a.1, a.2, s.transmitter⟩, .answered (s.kurs.proc.buffer b) a.2) := by
    simp only [lineStep, kursStep, hphase, ha, Option.bind_some, if_pos hfits]
  have hself : SelfStep answer s _ :=
    ⟨.service, _, rfl, rfl, fun c hc => absurd (hphase.symm.trans hc) (by simp), hs⟩
  obtain ⟨s', hrest, hquiet⟩ := handled_quiets answer (ht.step hs) rfl
  exact ⟨s', .head hself hrest, hquiet⟩

/-- The line can always come to rest by itself. -/
theorem exists_quiet (hanswers : s.Answers answer) (ht : Transmits buf s.transmitter)
    (hin : s.kurs.InPhase) : ∃ s', Relation.ReflTransGen (SelfStep answer) s s' ∧ s'.Quiet := by
  cases hphase : s.kurs.phase with
  | idle =>
      cases hready : s.kurs.proc.requestReady with
      | false =>
          obtain ⟨t, hsteps, hdrained, -⟩ := line_drains answer ht
          exact ⟨_, hsteps, hphase, hready, hdrained⟩
      | true =>
          simp only [KursSystem.InPhase, hphase] at hin
          obtain ⟨b, hb, -⟩ := hin hready
          have hs : lineStep answer s .service =
              some ({ s with kurs := ⟨s.kurs.proc, .taken b⟩ }, .quiet) := by
            simp [lineStep, kursStep, hphase, hready, hb]
          have hself : SelfStep answer s { s with kurs := ⟨s.kurs.proc, .taken b⟩ } :=
            ⟨.service, .quiet, rfl, rfl, fun c hc => absurd (hphase.symm.trans hc) (by simp), hs⟩
          have htaken : KursLine.Answers answer { s with kurs := ⟨s.kurs.proc, .taken b⟩ } := by
            intro r hr
            exact hanswers r (by simpa [KursSystem.waiting, hphase, hready, hb] using hr)
          obtain ⟨s', hrest, hquiet⟩ := taken_quiets answer htaken (ht.step hs) rfl
          exact ⟨s', .head hself hrest, hquiet⟩
  | taken b => exact taken_quiets answer hanswers ht hphase
  | handled b => exact handled_quiets answer ht hphase
  | replied b => exact replied_quiets answer ht hphase

end Quiet

/-- Steps of the line by itself, as a run. -/
theorem LineKept.self_run (hk : LineKept answer sop server h s)
    (hsteps : Relation.ReflTransGen (SelfStep answer) s s') :
    ∃ h', (lineMachine answer).Run s h' s' ∧ LineHistory.received h' = [] ∧
      LineHistory.packets h' = [] ∧ LineKept answer sop server (h ++ h') s' := by
  induction hsteps with
  | refl => exact ⟨[], .nil, rfl, rfl, by simpa using hk⟩
  | tail _ hself ih =>
      obtain ⟨h', hr, hreceived, hpackets, hk'⟩ := ih
      obtain ⟨e, o, hbytes, hcalls, hroom, hs⟩ := hself
      refine ⟨_, hr.snoc hs, ?_, ?_, ?_⟩
      · rw [LineHistory.received] at hreceived ⊢
        simp [hreceived, hbytes]
      · rw [LineHistory.packets] at hpackets ⊢
        simp [hpackets, hcalls]
      · rw [← List.append_assoc]
        exact lineStep_keeps hk' hroom hs

/-- **The line comes to rest** after every run with room, without another word being received or
packet called; then one request has been served for each frame, and the words written are those of
all replies and packets. -/
theorem line_quiets (hsop : sop ≠ KURS_EOP)
    (hr : (lineMachine answer).Run (lineInit sop mem1 mem2 server buf) h s)
    (hc : (lineMachine answer).Along (lineInit sop mem1 mem2 server buf) h HasRoom)
    (hanswers : s.Answers answer) :
    ∃ (h' : LineHistory) (s' : KursLine σ) (requests : List Buffer) (replies : List ArmPacket),
      (lineMachine answer).Run s h' s' ∧ h'.received = [] ∧ h'.packets = [] ∧ s'.Quiet ∧
      List.Forall₂ IsRequest (oddFrames sop KURS_EOP h.received) requests ∧
      serve answer server requests = some (s'.server, replies) ∧
      tagged false (h ++ h').written = wordsOf replies ∧
      tagged true (h ++ h').written = wordsOf h.packets := by
  have hk : LineKept answer sop server h s := lineKept_init.run hr hc
  have htransmits : Transmits buf s.transmitter := by
    refine Machine.Run.invariant (I := fun _ s => Transmits buf s.transmitter) ⟨[], .nil⟩ ?_ hr
    exact fun _ _ _ _ _ _ ht hs => ht.step hs
  obtain ⟨s', hsteps, hquiet⟩ := exists_quiet answer hanswers htransmits hk.reception.inPhase
  obtain ⟨h', hrun, hreceived, hpackets, hk'⟩ := hk.self_run hsteps
  obtain ⟨calls, hsent, hcalls, hreplies⟩ := hk'.sent
  have hwaiting : s'.kurs.waiting = [] := by
    simp [KursSystem.waiting, hquiet.phase, hquiet.ready]
  have hpending : s'.pendingReply = [] := by
    simp [KursLine.pendingReply, hquiet.phase]
  have hframes := hk'.reception.frames
  have hreceived' : LineHistory.received (h ++ h') = h.received := by
    rw [LineHistory.received] at hreceived ⊢
    rw [List.flatMap_append, hreceived, List.append_nil, LineHistory.received]
  have hpackets' : LineHistory.packets (h ++ h') = h.packets := by
    rw [LineHistory.packets] at hpackets ⊢
    rw [List.flatMap_append, hpackets, List.append_nil, LineHistory.packets]
  rw [hwaiting, List.append_nil, packets_outside hsop 0, hreceived'] at hframes
  rw [hpending, List.append_nil] at hreplies
  refine ⟨h', s', _, _, hrun, hreceived, hpackets, hquiet, hframes, hk'.served, ?_, ?_⟩
  · rw [hsent.written_eq hquiet.drained, hreplies]
  · rw [hsent.written_eq hquiet.drained, hcalls, hpackets']

/-! ### The handlers at the line -/

/-- The program that serves the requests: its variables, and what the handlers will read elsewhere,
as calls in which the request has still to be filled in. -/
structure KursServer where
  state : KursState
  calls : ℕ → KursCall

/-- The characters in front of the end of the packet are others. -/
theorem requestOf_noEop (cs : List UInt8) :
    KURS_EOP ∉ cs.takeWhile fun c => decide (c ≠ KURS_EOP) := fun h => by
  simpa using List.mem_takeWhile_imp h

/-- The request in a buffer. -/
def requestOf (b : Buffer) : Option KursRequest :=
  match b.toList with
  | [] => none
  | sop :: cs =>
      match cs.dropWhile fun c => decide (c ≠ KURS_EOP) with
      | _ :: 0 :: rest => some ⟨sop, _, requestOf_noEop cs, rest⟩
      | _ => none

/-- `KURS_HandleRequests` on the request in a buffer. -/
def kursAnswer (tps : UInt32) {L : Layout} (T : KursTables L) (server : KursServer)
    (request : Buffer) : Option (KursServer × List UInt8) :=
  (requestOf request).bind fun q =>
    (kursHandleRequests tps T server.state { server.calls 0 with request := q }).map fun r =>
      (⟨r.1, fun n => server.calls (n + 1)⟩, r.2)

/-- The calls that requests come to. -/
def Makes : (ℕ → KursCall) → List Buffer → List KursCall → Prop
  | _, [], [] => True
  | calls, r :: rs, c :: cs =>
      c.strRx = r.toList ∧ c = { calls 0 with request := c.request } ∧
        Makes (fun n => calls (n + 1)) rs cs
  | _, _, _ => False

section Handlers

variable {L : Layout} {T : KursTables L} {tps : UInt32} {server : KursServer}

/-- A request is what its buffer holds. -/
theorem requestOf_chars {b : Buffer} {q : KursRequest} (h : requestOf b = some q) :
    q.chars = b.toList := by
  rw [requestOf] at h
  split at h
  case h_1 => cases h
  next sop cs hb =>
  split at h
  case h_2 => cases h
  next d rest hdrop =>
  obtain rfl := Option.some.inj h
  have hd : d = KURS_EOP := by
    have hhead := List.head?_dropWhile_not (fun c => decide (c ≠ KURS_EOP)) cs
    rw [hdrop] at hhead
    simpa using hhead
  have hsplit := List.takeWhile_append_dropWhile (p := fun c => decide (c ≠ KURS_EOP)) (l := cs)
  rw [hdrop, hd] at hsplit
  rw [KursRequest.chars, hb]
  exact congrArg (sop :: ·) hsplit

/-- A frame in its buffer is a request. -/
theorem requestOf_isSome {b : Buffer} {sop : UInt8} {w : List UInt8} (hw : KURS_EOP ∉ w)
    (hf : IsRequest (sop :: (w ++ [KURS_EOP])) b) : ∃ q, requestOf b = some q := by
  obtain ⟨rest, hrest⟩ := hf
  have hb : b.toList = sop :: (w ++ KURS_EOP :: 0 :: rest) := by
    rw [← hrest]
    simp
  have hdrop : (w ++ KURS_EOP :: 0 :: rest).dropWhile (fun c => decide (c ≠ KURS_EOP)) =
      KURS_EOP :: 0 :: rest := by
    rw [List.dropWhile_append_of_pos fun c hc => by
      simpa using fun he : c = KURS_EOP => hw (he ▸ hc)]
    simp
  refine ⟨⟨sop, _, requestOf_noEop (w ++ KURS_EOP :: 0 :: rest), rest⟩, ?_⟩
  rw [requestOf, hb]
  simp only [hdrop]

/-- Each frame that the listener finds is a request in its buffer. -/
theorem requestOf_of_frames {sop : UInt8} {bytes : List UInt8} {rs : List Buffer}
    (h : List.Forall₂ IsRequest (oddFrames sop KURS_EOP bytes) rs) :
    ∀ r ∈ rs, ∃ q, requestOf r = some q := by
  intro r hr
  obtain ⟨i, hi, rfl⟩ := List.getElem_of_mem hr
  obtain ⟨hlen, hget⟩ := List.forall₂_iff_get.mp h
  have hf := hget i (hlen ▸ hi) hi
  have hmem := List.get_mem (oddFrames sop KURS_EOP bytes) ⟨i, hlen ▸ hi⟩
  obtain ⟨_, w, _, -, hw, -, hframe⟩ := mem_framesAfter.mp hmem
  rw [hframe] at hf
  exact requestOf_isSome hw hf

/-- **The handlers as a server**: what is served one after the other is a run of the requests. -/
theorem run_of_serve {rs : List Buffer} {server' : KursServer} {replies : List ArmPacket}
    (h : serve (kursAnswer tps T) server rs = some (server', replies)) :
    ∃ hist : List (KursCall × List UInt8),
      (kursRequests tps T).Run server.state hist server'.state ∧
      Makes server.calls rs (hist.map Prod.fst) ∧ replies = hist.map fun e => .kurs e.2 := by
  induction rs generalizing server replies with
  | nil =>
      obtain ⟨rfl, rfl⟩ := Prod.mk.inj (Option.some.inj h)
      exact ⟨[], .nil, trivial, rfl⟩
  | cons r rs ih =>
      obtain ⟨a, ha, h⟩ := Option.bind_eq_some_iff.mp h
      obtain ⟨t, ht, hts⟩ := Option.map_eq_some_iff.mp h
      obtain ⟨rfl, rfl⟩ := Prod.mk.inj hts
      obtain ⟨q, hq, hhandle⟩ := Option.bind_eq_some_iff.mp ha
      obtain ⟨⟨S', reply⟩, hreply, rfl⟩ := Option.map_eq_some_iff.mp hhandle
      obtain ⟨hist, hrun, hmakes, hreplies⟩ := ih ht
      refine ⟨({ server.calls 0 with request := q }, reply) :: hist, ?_, ?_, ?_⟩
      · exact Machine.Run.cons hreply hrun
      · exact ⟨requestOf_chars hq, rfl, hmakes⟩
      · rw [hreplies]
        rfl

variable {sop : UInt8} {mem1 mem2 : Buffer} {buf : Fin (2 ^ TX_ORDER) → UInt16} {h : LineHistory}
  {s : KursLine KursServer}

/-- The reply to an unknown command is short. -/
theorem unknown_fits {S : KursState} {c : KursCall} (h : c.command = .unknown) :
    ReplyFits tps T S c := by
  refine ⟨S, c.plain (CString.ascii "NA"), ?_, ?_⟩
  · rw [kursHandleRequests, h]
    rfl
  · rw [plain_length]
    decide

/-- A byte for KURS as a step. -/
theorem rrdy_step {σ : Type*} {answer : σ → Buffer → Option (σ × List UInt8)} {s : KursLine σ}
    {d : UInt16} {p : KursProcessor} (hbit : bitIsSet d BIT8 = false)
    (hp : kursReceive s.kurs.proc d.toUInt8 = some p) :
    (lineMachine answer).step s (.rrdy d) =
      some ({ s with kurs := ⟨p, s.kurs.phase⟩ }, .quiet) := by
  simp only [lineMachine, lineStep, hbit, hp, Bool.false_eq_true, if_false, Option.map_some]

/-- The line of a processor that knows few parameters. -/
def sampleLine : KursLine KursServer :=
  lineInit 0x81 Buffer.zero Buffer.zero ⟨zeroState, fun _ => requestTo idleReadings readLine⟩
    fun _ => 0

/-- **The handlers answer the line**: along every run with room, the requests that have been served
are the frames in order, but for one that waits; the handlers make a run of them; and what is
written are the words of their replies, and those of the packets of the other protocol. -/
theorem kurs_line_answers (hsop : sop ≠ KURS_EOP)
    (hr : (lineMachine (kursAnswer tps T)).Run (lineInit sop mem1 mem2 server buf) h s)
    (hc : (lineMachine (kursAnswer tps T)).Along (lineInit sop mem1 mem2 server buf) h HasRoom) :
    ∃ (requests waiting : List Buffer) (hist : List (KursCall × List UInt8)),
      List.Forall₂ IsRequest (oddFrames sop KURS_EOP h.received) (requests ++ waiting) ∧
      waiting.length ≤ 1 ∧
      (kursRequests tps T).Run server.state hist s.server.state ∧
      Makes server.calls requests (hist.map Prod.fst) ∧
      tagged false h.written <+: wordsOf (hist.map fun e => .kurs e.2) ∧
      tagged true h.written <+: wordsOf h.packets := by
  obtain ⟨hframes, hserved, hreplies, hpackets⟩ := line_answers hsop hr hc
  obtain ⟨hist, hrun, hmakes, heq⟩ := run_of_serve hserved
  exact ⟨_, _, hist, hframes, s.kurs.waiting_length_le, hrun, hmakes, heq ▸ hreplies, hpackets⟩

/-- A frame with an unknown command is answered, and the first byte of the reply written. -/
theorem kurs_line_answers_frame : ∃ (h : LineHistory) (s : KursLine KursServer)
    (requests waiting : List Buffer) (hist : List (KursCall × List UInt8)),
    h.received = [KURS_EOP, 0x81, 0x41, KURS_EOP] ∧ h.written = [0x81] ∧
      List.Forall₂ IsRequest (oddFrames 0x81 KURS_EOP h.received) (requests ++ waiting) ∧
      waiting.length ≤ 1 ∧
      (kursRequests 0 settingTables).Run sampleLine.server.state hist s.server.state ∧
      Makes sampleLine.server.calls requests (hist.map Prod.fst) ∧
      tagged false h.written <+: wordsOf (hist.map fun e => .kurs e.2) ∧
      tagged true h.written <+: wordsOf h.packets := by
  have r₀ : (lineMachine (kursAnswer 0 settingTables)).Run sampleLine [] _ := Machine.Run.nil
  have r₁ := r₀.snoc (rrdy_step (d := 0x0D) rfl rfl)
  have r₂ := r₁.snoc (rrdy_step (d := 0x81) rfl rfl)
  have r₃ := r₂.snoc (rrdy_step (d := 0x41) rfl rfl)
  have r₄ := r₃.snoc (rrdy_step (d := 0x0D) rfl rfl)
  have r₅ := r₄.snoc (i := .service) rfl
  have r₆ := r₅.snoc (i := .service) rfl
  have r₇ := r₆.snoc (i := .service) rfl
  have r₈ := r₇.snoc (i := .trdy) rfl
  have hbyte : ∀ {s : KursLine KursServer} {d : UInt16}, s.kurs.proc.requestReady = false →
      HasRoom s (.rrdy d) := fun h _ _ => h
  have hroom : ∀ {s : KursLine KursServer}, s.transmitter.ring.full = false →
      HasRoom s .service := fun h _ _ => h
  have hanswers := kurs_line_answers (by decide) r₈ <| Machine.Along.snoc r₇ (Machine.Along.snoc r₆
    (Machine.Along.snoc r₅ (Machine.Along.snoc r₄ (Machine.Along.snoc r₃ (Machine.Along.snoc r₂
      (Machine.Along.snoc r₁ (Machine.Along.snoc r₀ Machine.Along.nil (hbyte rfl)) (hbyte rfl))
      (hbyte rfl)) (hbyte rfl)) (hroom rfl)) (hroom rfl)) (hroom rfl)) trivial
  obtain ⟨requests, waiting, hist, hanswers⟩ := hanswers
  exact ⟨_, _, requests, waiting, hist, rfl, rfl, hanswers⟩

/-- **Every frame is answered in the end**: after every run with room, and with room for the reply
to the request that waits, the line comes to rest without anything more being received; then the
handlers have made a run of all frames, and all of their replies have been written. -/
theorem kurs_line_quiets (hsop : sop ≠ KURS_EOP)
    (hr : (lineMachine (kursAnswer tps T)).Run (lineInit sop mem1 mem2 server buf) h s)
    (hc : (lineMachine (kursAnswer tps T)).Along (lineInit sop mem1 mem2 server buf) h HasRoom)
    (hfits : ∀ r ∈ s.kurs.waiting, ∀ c, Makes s.server.calls [r] [c] →
      ReplyFits tps T s.server.state c) :
    ∃ (h' : LineHistory) (s' : KursLine KursServer) (requests : List Buffer)
      (hist : List (KursCall × List UInt8)),
      (lineMachine (kursAnswer tps T)).Run s h' s' ∧ h'.received = [] ∧ h'.packets = [] ∧
      s'.Quiet ∧ List.Forall₂ IsRequest (oddFrames sop KURS_EOP h.received) requests ∧
      (kursRequests tps T).Run server.state hist s'.server.state ∧
      Makes server.calls requests (hist.map Prod.fst) ∧
      tagged false (h ++ h').written = wordsOf (hist.map fun e => .kurs e.2) ∧
      tagged true (h ++ h').written = wordsOf h.packets := by
  have hframes := (line_answers hsop hr hc).1
  have hanswers : s.Answers (kursAnswer tps T) := by
    intro r hwaiting
    obtain ⟨q, hq⟩ := requestOf_of_frames hframes r (List.mem_append_right _ hwaiting)
    obtain ⟨S', reply, hreply, hlen⟩ := hfits r hwaiting { s.server.calls 0 with request := q }
      ⟨requestOf_chars hq, rfl, trivial⟩
    refine ⟨(⟨S', fun n => s.server.calls (n + 1)⟩, reply), ?_, hlen⟩
    rw [kursAnswer, hq, Option.bind_some, hreply, Option.map_some]
  obtain ⟨h', s', requests, replies, hrun, hreceived, hpackets, hquiet, hrequests, hserved, hkurs,
    harm⟩ := line_quiets hsop hr hc hanswers
  obtain ⟨hist, hruns, hmakes, heq⟩ := run_of_serve hserved
  exact ⟨h', s', requests, hist, hrun, hreceived, hpackets, hquiet, hrequests, hruns, hmakes,
    heq ▸ hkurs, harm⟩

/-- So is a frame that has just been received. -/
theorem kurs_line_quiets_frame : ∃ (h h' : LineHistory) (s s' : KursLine KursServer)
    (requests : List Buffer) (hist : List (KursCall × List UInt8)),
    h.received = [KURS_EOP, 0x81, 0x41, KURS_EOP] ∧ h.written = [] ∧
      (lineMachine (kursAnswer 0 settingTables)).Run s h' s' ∧ h'.received = [] ∧
      h'.packets = [] ∧ s'.Quiet ∧
      List.Forall₂ IsRequest (oddFrames 0x81 KURS_EOP h.received) requests ∧
      (kursRequests 0 settingTables).Run sampleLine.server.state hist s'.server.state ∧
      Makes sampleLine.server.calls requests (hist.map Prod.fst) ∧
      tagged false (h ++ h').written = wordsOf (hist.map fun e => .kurs e.2) ∧
      tagged true (h ++ h').written = wordsOf h.packets := by
  have r₀ : (lineMachine (kursAnswer 0 settingTables)).Run sampleLine [] _ := Machine.Run.nil
  have r₁ := r₀.snoc (rrdy_step (d := 0x0D) rfl rfl)
  have r₂ := r₁.snoc (rrdy_step (d := 0x81) rfl rfl)
  have r₃ := r₂.snoc (rrdy_step (d := 0x41) rfl rfl)
  have r₄ := r₃.snoc (rrdy_step (d := 0x0D) rfl rfl)
  have hbyte : ∀ {s : KursLine KursServer} {d : UInt16}, s.kurs.proc.requestReady = false →
      HasRoom s (.rrdy d) := fun h _ _ => h
  have hquiets := kurs_line_quiets (by decide) r₄ (Machine.Along.snoc r₃ (Machine.Along.snoc r₂
    (Machine.Along.snoc r₁ (Machine.Along.snoc r₀ Machine.Along.nil (hbyte rfl)) (hbyte rfl))
    (hbyte rfl)) (hbyte rfl)) ?_
  · obtain ⟨h', s', requests, hist, hquiets⟩ := hquiets
    exact ⟨_, h', _, s', requests, hist, rfl, rfl, hquiets⟩
  · rintro r hr c ⟨hc, -⟩
    have hbyte : (fun r : Buffer => r.toList.getD 1 0 == 0x41) r = true := by
      refine (List.all_eq_true (p := fun r => r.toList.getD 1 0 == 0x41)).mp ?_ r hr
      rfl
    refine unknown_fits ?_
    rw [KursCall.command, hc, eq_of_beq hbyte]
    rfl

end Handlers

end Muxponder

import Muxponder.KursProcessor
import Muxponder.Lib.Framing
import Mathlib.Data.List.Forall2

/-!
# Framing by the KURS Listener

What the three-state listener of `kurs_processor.c` recovers from a byte stream. The
listener's position is abstracted to a `Phase`: outside a packet with the number of
end-of-packet characters just received, or inside one with the characters stored so far.
`standsAt_receive` says that `kurs_receive` moves along the phases, and `storeIndices_fits`
which bytes it can store, so that the listener's whole behaviour is read off the stream.

An end-of-packet character that arrives while the start of a packet is expected is taken
for a character that does not start one, and the hunt for the end of a packet begins
again. A packet is therefore recognised after an odd number of consecutive end-of-packet
characters and skipped after an even number.

## Main results

* `standsAt_receive`, `holds_receive`: one byte moves the processor along the phases.
* `publishedRequests_oddFrames`: the requests published for a stream are its frames after
  an odd run of end-of-packet characters, in order, each followed by a NUL.
-/

namespace Muxponder

open KursProcessor Framing

/-- Where the listener stands in the stream: outside a packet, after `n` consecutive
end-of-packet characters, or inside one, having stored `acc`. -/
inductive Phase
  | outside (n : ℕ)
  | inside (acc : List UInt8)

/-- The phase after one more character. -/
def Phase.next (sop : UInt8) : Phase → UInt8 → Phase
  | .outside n, c =>
      if n % 2 = 1 ∧ c = sop then .inside [c] else .outside (if c = KURS_EOP then n + 1 else 0)
  | .inside acc, c => if c = KURS_EOP then .outside 1 else .inside (acc ++ [c])

/-- The phase after a stretch of the stream. -/
def Phase.after (sop : UInt8) : Phase → List UInt8 → Phase
  | ph, [] => ph
  | ph, c :: cs => (ph.next sop c).after sop cs

/-- The packets completed along a stream. -/
def Phase.packets (sop : UInt8) : Phase → List UInt8 → List (List UInt8)
  | _, [] => []
  | .outside n, c :: cs => ((Phase.outside n).next sop c).packets sop cs
  | .inside acc, c :: cs =>
      if c = KURS_EOP then (acc ++ [c]) :: (Phase.outside 1).packets sop cs
      else (Phase.inside (acc ++ [c])).packets sop cs

/-- The characters a phase can store next without leaving the buffer. -/
def Phase.fits : Phase → UInt8 → Prop
  | .outside _, _ => True
  | .inside acc, c =>
      acc.length < KURS_MAX_BUFFER ∧ (c = KURS_EOP → acc.length + 1 < KURS_MAX_BUFFER)

/-- The listener function of a phase. -/
def Phase.listener : Phase → Listener
  | .outside n => if n % 2 = 1 then .listenSop else .listenEop
  | .inside _ => .listenPayload

/-- The characters stored so far of the packet being received. -/
def Phase.stored : Phase → List UInt8
  | .outside _ => []
  | .inside acc => acc

/-- The processor stands at a phase: the function `receive` points to and the counter. -/
structure StandsAt (p : KursProcessor) (ph : Phase) : Prop where
  receive : p.receive = ph.listener
  cntr : p.cntr = ph.stored.length

/-- The characters of the phase are at the start of the active buffer. -/
def Holds (p : KursProcessor) (ph : Phase) : Prop :=
  ph.stored <+: (p.buffer p.buff).toList

/-! ### One byte -/

/-- What `push` does: the byte lands in the active buffer and nothing else changes. -/
theorem push_eq_some {p q : KursProcessor} {c : UInt8} (h : p.push c = some q) :
    ∃ v, (p.buffer p.buff).store p.cntr c = some v ∧
      q = { p.setBuffer p.buff v with cntr := p.cntr + 1 } := by
  obtain ⟨v, hv, hq⟩ := Option.map_eq_some_iff.mp h
  exact ⟨v, hv, hq.symm⟩

/-- `push` is defined exactly below the end of the buffer. -/
theorem push_isSome_iff {p : KursProcessor} {c : UInt8} :
    (p.push c).isSome = true ↔ p.cntr < KURS_MAX_BUFFER := by
  rw [KursProcessor.push, Option.isSome_map, Buffer.store_isSome_iff]

/-- What `push` keeps. -/
theorem push_frame {p q : KursProcessor} {c : UInt8} (h : p.push c = some q) :
    q.SOP = p.SOP ∧ q.buff = p.buff ∧ q.cntr = p.cntr + 1 ∧
      q.requestReady = p.requestReady ∧ q.receive = p.receive := by
  obtain ⟨v, -, rfl⟩ := push_eq_some h
  simp

/-- A byte pushed behind the characters already stored. -/
theorem push_prefix {p q : KursProcessor} {c : UInt8} {acc : List UInt8}
    (hc : p.cntr = acc.length) (hacc : acc <+: (p.buffer p.buff).toList)
    (h : p.push c = some q) : acc ++ [c] <+: (q.buffer q.buff).toList := by
  obtain ⟨v, hv, rfl⟩ := push_eq_some h
  rw [hc] at hv
  have hpre := Buffer.prefix_store hacc hv
  cases hb : p.buff <;> simpa [hb, KursProcessor.setBuffer, KursProcessor.buffer] using hpre

/-- What `publish` does to the fields a reader of the request looks at. -/
theorem publish_eq_some {p q : KursProcessor} (h : publish p = some q) :
    ∃ v, (p.buffer p.buff).store p.cntr 0 = some v ∧ q.SOP = p.SOP ∧
      q.receive = .listenSop ∧ q.requestReady = true ∧ q.cntr = 0 ∧
      q.buffCopy = some p.buff ∧ q.buff = p.buff.other ∧ q.buffer p.buff = v ∧
      q.buffer p.buff.other = Buffer.zero := by
  obtain ⟨v, hv, rfl⟩ := Option.map_eq_some_iff.mp h
  refine ⟨v, hv, ?_⟩
  cases hb : p.buff <;> simp [KursProcessor.setBuffer, KursProcessor.buffer, BuffId.other]

/-- A character inside a packet that does not end it. -/
theorem listenPayload_next {p q : KursProcessor} {c : UInt8} (hc : c ≠ KURS_EOP)
    (h : listenPayload p c = some q) :
    ∃ r, p.push c = some r ∧ q = { r with receive := .listenPayload } := by
  obtain ⟨r, hr, hq⟩ := Option.bind_eq_some_iff.mp h
  rw [if_neg hc, Option.some.injEq] at hq
  exact ⟨r, hr, hq.symm⟩

/-- The character that ends a packet. -/
theorem listenPayload_eop {p q : KursProcessor} (h : listenPayload p KURS_EOP = some q) :
    ∃ r, p.push KURS_EOP = some r ∧ publish r = some q := by
  obtain ⟨r, hr, hq⟩ := Option.bind_eq_some_iff.mp h
  rw [if_pos rfl] at hq
  exact ⟨r, hr, hq⟩

/-- **The step lemma**: `kurs_receive` moves the processor along the phases of the stream
and keeps its start-of-packet character. -/
theorem standsAt_receive {p q : KursProcessor} {ph : Phase} {c : UInt8} (hp : StandsAt p ph)
    (h : kursReceive p c = some q) :
    StandsAt q (ph.next p.SOP c) ∧ q.SOP = p.SOP := by
  obtain ⟨hrec, hcnt⟩ := hp
  cases ph with
  | outside n =>
      by_cases hodd : n % 2 = 1
      · simp only [Phase.listener, if_pos hodd] at hrec
        simp only [kursReceive, hrec, Muxponder.listenSop] at h
        by_cases hsop : c = p.SOP
        · rw [if_pos hsop] at h
          obtain ⟨hs, -, hcn, -, hr⟩ := push_frame h
          rw [Phase.next, if_pos ⟨hodd, hsop⟩]
          exact ⟨⟨hr, by simpa [hcnt, Phase.stored] using hcn⟩, hs⟩
        · rw [if_neg hsop, Option.some.injEq] at h
          subst h
          rw [Phase.next, if_neg fun hstart => hsop hstart.2]
          refine ⟨⟨?_, rfl⟩, rfl⟩
          by_cases he : c = KURS_EOP
          · have heven : ¬ (n + 1) % 2 = 1 := by omega
            simp [he, Phase.listener, heven]
          · simp [he, Phase.listener]
      · simp only [Phase.listener, if_neg hodd] at hrec
        simp only [kursReceive, hrec, Option.some.injEq] at h
        subst h
        have hcnt : p.cntr = 0 := hcnt
        by_cases he : c = KURS_EOP
        · have hnext : (n + 1) % 2 = 1 := by omega
          refine ⟨⟨?_, ?_⟩, ?_⟩ <;>
            simp [Phase.next, hodd, he, Phase.listener, Phase.stored, hnext,
              Muxponder.listenEop, hcnt]
        · refine ⟨⟨?_, ?_⟩, ?_⟩ <;>
            simp [Phase.next, hodd, he, Phase.listener, Phase.stored, Muxponder.listenEop,
              hcnt]
  | inside acc =>
      simp only [kursReceive, hrec, Phase.listener] at h
      by_cases he : c = KURS_EOP
      · subst he
        obtain ⟨r, hr, hq⟩ := listenPayload_eop h
        obtain ⟨v, -, hs, hrec', -, hc0, -⟩ := publish_eq_some hq
        rw [Phase.next, if_pos rfl]
        exact ⟨⟨hrec', hc0⟩, hs.trans (push_frame hr).1⟩
      · obtain ⟨r, hr, rfl⟩ := listenPayload_next he h
        obtain ⟨hs, -, hcn, -, -⟩ := push_frame hr
        rw [Phase.next, if_neg he]
        refine ⟨⟨rfl, ?_⟩, hs⟩
        simpa [hcnt, Phase.stored] using hcn

/-- The characters of the packet accumulate in the active buffer. -/
theorem holds_receive {p q : KursProcessor} {ph : Phase} {c : UInt8} (hp : StandsAt p ph)
    (hh : Holds p ph) (h : kursReceive p c = some q) : Holds q (ph.next p.SOP c) := by
  obtain ⟨hrec, hcnt⟩ := hp
  cases ph with
  | outside n =>
      by_cases hstart : n % 2 = 1 ∧ c = p.SOP
      · obtain ⟨hodd, rfl⟩ := hstart
        simp only [Phase.listener, if_pos hodd] at hrec
        simp only [kursReceive, hrec, Muxponder.listenSop, if_true] at h
        rw [Phase.next, if_pos ⟨hodd, rfl⟩]
        exact push_prefix (by simpa [Phase.stored] using hcnt) List.nil_prefix h
      · rw [Phase.next, if_neg hstart]
        exact List.nil_prefix
  | inside acc =>
      simp only [kursReceive, hrec, Phase.listener] at h
      by_cases he : c = KURS_EOP
      · rw [Phase.next, if_pos he]
        exact List.nil_prefix
      · obtain ⟨r, hr, rfl⟩ := listenPayload_next he h
        rw [Phase.next, if_neg he]
        simpa [Holds, Phase.stored] using push_prefix hcnt hh hr

/-- The indices a byte is stored at. -/
def storeIndices (p : KursProcessor) (c : UInt8) : List ℕ :=
  match p.receive with
  | .listenEop => []
  | .listenSop => if c = p.SOP then [p.cntr] else []
  | .listenPayload => if c = KURS_EOP then [p.cntr, p.cntr + 1] else [p.cntr]

/-- A byte has a defined effect exactly when every index it is stored at lies inside the
buffer. -/
theorem receive_isSome_iff_storeIndices {p : KursProcessor} {c : UInt8} :
    (kursReceive p c).isSome = true ↔ ∀ i ∈ storeIndices p c, i < KURS_MAX_BUFFER := by
  cases hrec : p.receive with
  | listenEop => simp [kursReceive, storeIndices, hrec]
  | listenSop =>
      by_cases hsop : c = p.SOP
      · simp only [kursReceive, storeIndices, hrec, Muxponder.listenSop, hsop, if_true,
          push_isSome_iff]
        simp
      · simp [kursReceive, storeIndices, hrec, Muxponder.listenSop, hsop]
  | listenPayload =>
      simp only [kursReceive, storeIndices, hrec, Muxponder.listenPayload]
      cases hpush : p.push c with
      | none =>
          have hno : ¬ p.cntr < KURS_MAX_BUFFER := by
            rw [← push_isSome_iff (c := c), hpush]
            simp
          by_cases he : c = KURS_EOP <;> simp [he, hno]
      | some q =>
          have hyes : p.cntr < KURS_MAX_BUFFER := by
            rw [← push_isSome_iff (c := c), hpush]
            rfl
          obtain ⟨-, -, hcn, -, -⟩ := push_frame hpush
          by_cases he : c = KURS_EOP
          · simp [he, publish, Buffer.store_isSome_iff, hcn, hyes]
          · simp [he, hyes]

/-- **What the listener can store** is read off the phase. -/
theorem storeIndices_fits {p : KursProcessor} {ph : Phase} {c : UInt8}
    (hp : StandsAt p ph) :
    (∀ i ∈ storeIndices p c, i < KURS_MAX_BUFFER) ↔ ph.fits c := by
  obtain ⟨hrec, hcnt⟩ := hp
  cases ph with
  | outside n =>
      by_cases hodd : n % 2 = 1
      · by_cases hsop : c = p.SOP <;>
          simp [storeIndices, hrec, Phase.listener, hodd, hsop, Phase.fits, hcnt,
            Phase.stored, KURS_MAX_BUFFER]
      · simp [storeIndices, hrec, Phase.listener, hodd, Phase.fits]
  | inside acc =>
      by_cases he : c = KURS_EOP <;>
        simp [storeIndices, hrec, Phase.listener, he, Phase.fits, hcnt, Phase.stored]

/-! ### The phases of a stream -/

/-- The phase after a stretch, cut anywhere. -/
theorem after_append (sop : UInt8) (ph : Phase) (s t : List UInt8) :
    ph.after sop (s ++ t) = (ph.after sop s).after sop t := by
  induction s generalizing ph with
  | nil => rfl
  | cons c s ih => simp only [List.cons_append, Phase.after, ih]

/-- Characters that do not end the packet accumulate. -/
theorem after_inside {sop : UInt8} {acc w : List UInt8} (hw : KURS_EOP ∉ w) :
    (Phase.inside acc).after sop w = .inside (acc ++ w) := by
  induction w generalizing acc with
  | nil => simp [Phase.after]
  | cons c w ih =>
      obtain ⟨hc, hw⟩ : KURS_EOP ≠ c ∧ KURS_EOP ∉ w := by simpa using hw
      rw [Phase.after, Phase.next, if_neg hc.symm, ih hw]
      simp

/-- What a phase says about the stream that led to it. -/
def Phase.Explains (sop : UInt8) (s : List UInt8) : Phase → Prop
  | .outside n => n % 2 = runAfter KURS_EOP 0 s % 2
  | .inside acc =>
      ∃ pre w, acc = sop :: w ∧ s = pre ++ sop :: w ∧ KURS_EOP ∉ w ∧
        runAfter KURS_EOP 0 pre % 2 = 1

/-- The phase reached by a stream explains it. -/
theorem explains_after (sop : UInt8) (s : List UInt8) :
    ((Phase.outside 0).after sop s).Explains sop s := by
  induction s using List.reverseRecOn with
  | nil => rfl
  | append_singleton s c ih =>
      rw [after_append]
      cases hph : (Phase.outside 0).after sop s with
      | outside n =>
          rw [hph] at ih
          have ih : n % 2 = runAfter KURS_EOP 0 s % 2 := ih
          by_cases hstart : n % 2 = 1 ∧ c = sop
          · simp only [Phase.after, Phase.next, hstart, and_self, if_true, Phase.Explains]
            exact ⟨s, [], by simp, rfl, by simp, ih ▸ hstart.1⟩
          · simp only [Phase.after, Phase.next, hstart, if_false, Phase.Explains,
              runAfter_append, runAfter_cons, runAfter_nil]
            by_cases he : c = KURS_EOP
            · simp only [he, if_true]
              omega
            · simp [he]
      | inside acc =>
          rw [hph] at ih
          obtain ⟨pre, w, rfl, rfl, hw, hodd⟩ := ih
          by_cases he : c = KURS_EOP
          · subst he
            simp only [Phase.after, Phase.next, if_true, Phase.Explains]
            rcases w with _ | ⟨d, w⟩
            · rw [List.append_assoc, runAfter_append]
              by_cases hs : sop = KURS_EOP
              · simp only [List.cons_append, List.nil_append, runAfter_cons, hs, if_true,
                  runAfter_nil]
                omega
              · simp [hs]
            · have h0 := runAfter_body (n := runAfter KURS_EOP 0 (pre ++ [sop])) hw (by simp)
              have hsplit : pre ++ sop :: (d :: w) ++ [KURS_EOP] =
                  (pre ++ [sop]) ++ ((d :: w) ++ [KURS_EOP]) := by simp
              rw [hsplit, runAfter_append, runAfter_append, h0]
              simp
          · simp only [Phase.after, Phase.next, he, if_false, Phase.Explains]
            refine ⟨pre, w ++ [c], by simp, by simp, ?_, hodd⟩
            simp [hw, Ne.symm he]

/-- After an odd run of end-of-packet characters the listener expects a packet. -/
theorem after_odd (sop : UInt8) {s : List UInt8} (h : runAfter KURS_EOP 0 s % 2 = 1) :
    ∃ n, (Phase.outside 0).after sop s = .outside n ∧ n % 2 = 1 := by
  have hex := explains_after sop s
  cases hph : (Phase.outside 0).after sop s with
  | outside n =>
      rw [hph] at hex
      exact ⟨n, rfl, Eq.trans hex h⟩
  | inside acc =>
      rw [hph] at hex
      obtain ⟨pre, w, -, rfl, hw, hodd⟩ := hex
      exfalso
      rw [runAfter_append] at h
      rcases w with _ | ⟨d, w⟩
      · by_cases hs : sop = KURS_EOP
        · simp only [runAfter_cons, hs, if_true, runAfter_nil] at h
          omega
        · simp [hs] at h
      · rw [runAfter_cons, runAfter_body hw (by simp)] at h
        omega

/-- **Inside a packet** exactly when the stream ends in a packet's start, after an odd run
of end-of-packet characters, and characters that do not end it. -/
theorem after_eq_inside_iff {sop : UInt8} {s acc : List UInt8} :
    (Phase.outside 0).after sop s = .inside acc ↔
      ∃ pre w, acc = sop :: w ∧ s = pre ++ sop :: w ∧ KURS_EOP ∉ w ∧
        runAfter KURS_EOP 0 pre % 2 = 1 := by
  constructor
  · intro h
    have hex := explains_after sop s
    rw [h] at hex
    exact hex
  · rintro ⟨pre, w, rfl, rfl, hw, hodd⟩
    obtain ⟨n, hn, hnodd⟩ := after_odd sop hodd
    rw [after_append, hn]
    simp only [Phase.after, Phase.next, hnodd, true_and, if_true]
    exact after_inside hw

/-- A packet under way ends at the next end-of-packet character. -/
theorem packets_inside {sop : UInt8} {acc w rest : List UInt8} (hw : KURS_EOP ∉ w) :
    (Phase.inside acc).packets sop (w ++ KURS_EOP :: rest) =
      (acc ++ w ++ [KURS_EOP]) :: (Phase.outside 1).packets sop rest := by
  induction w generalizing acc with
  | nil => simp [Phase.packets]
  | cons c w ih =>
      obtain ⟨hc, hw⟩ : KURS_EOP ≠ c ∧ KURS_EOP ∉ w := by simpa using hw
      rw [List.cons_append, Phase.packets, if_neg hc.symm, ih hw]
      simp

/-- Without an end-of-packet character no packet is completed. -/
theorem packets_open {sop : UInt8} {acc w : List UInt8} (hw : KURS_EOP ∉ w) :
    (Phase.inside acc).packets sop w = [] := by
  induction w generalizing acc with
  | nil => rfl
  | cons c w ih =>
      obtain ⟨hc, hw⟩ : KURS_EOP ≠ c ∧ KURS_EOP ∉ w := by simpa using hw
      rw [Phase.packets, if_neg hc.symm, ih hw]

/-- A packet under way that completes is longer than what is stored of it. -/
theorem packets_inside_length {sop : UInt8} {acc s : List UInt8} {k : ℕ}
    (hk : ∀ f ∈ (Phase.inside acc).packets sop s, f.length ≤ k) (hlong : k ≤ acc.length) :
    (Phase.inside acc).packets sop s = [] := by
  by_cases hs : KURS_EOP ∈ s
  · exfalso
    obtain ⟨w, rest, rfl, hw⟩ := List.eq_append_cons_of_mem hs
    rw [packets_inside hw] at hk
    have hlen := hk _ List.mem_cons_self
    simp only [List.length_append, List.length_singleton] at hlen
    omega
  · exact packets_open hs

/-- **The packets of a stream** are its frames after an odd run of end-of-packet
characters. -/
theorem packets_outside {sop : UInt8} (hne : sop ≠ KURS_EOP) (n : ℕ) (s : List UInt8) :
    (Phase.outside n).packets sop s =
      framesAfter sop KURS_EOP (fun n => decide (n % 2 = 1)) n s := by
  -- after a start of packet the stream resumes behind the packet, hence the measure
  induction hk : s.length using Nat.strong_induction_on generalizing n s with
  | _ k ih =>
      subst hk
      rcases s with _ | ⟨c, s⟩
      · rfl
      by_cases hstart : n % 2 = 1 ∧ c = sop
      · obtain ⟨hodd, rfl⟩ := hstart
        rw [Phase.packets, Phase.next, if_pos ⟨hodd, rfl⟩]
        by_cases hs : KURS_EOP ∈ s
        · obtain ⟨w, rest, rfl, hw⟩ := List.eq_append_cons_of_mem hs
          have hrest := ih rest.length (by simp only [List.length_cons, List.length_append]; omega)
            1 rest rfl
          rw [packets_inside hw, hrest, framesAfter_frame hne (by simpa using hodd) rfl hw]
          rfl
        · rw [packets_open hs, framesAfter_open]
          simp [hne.symm, hs]
      · have hhead : ¬ (n % 2 = 1 ∧ c = sop ∧ KURS_EOP ∈ s) := fun h => hstart ⟨h.1, h.2.1⟩
        rw [Phase.packets, Phase.next, if_neg hstart, ih s.length (by simp) _ s rfl,
          framesAfter]
        by_cases hodd : n % 2 = 1
        · have hc : ¬ (c = sop ∧ KURS_EOP ∈ s) := fun h => hhead ⟨hodd, h⟩
          simp [hodd, frameHead, hc]
        · simp [hodd]

/-! ### Published requests -/

/-- The requests published while a stream is received, when each is taken before the next
byte arrives. A byte without a defined effect ends the list. -/
def publishedRequests : KursProcessor → List UInt8 → List Buffer
  | _, [] => []
  | p, c :: cs =>
      match kursReceive p c with
      | none => []
      | some q =>
          if q.requestReady then
            (q.buffCopy.map q.buffer).toList ++
              publishedRequests { q with requestReady := false } cs
          else publishedRequests q cs

/-- Outside a packet and before its end, a byte publishes nothing. -/
theorem requestReady_receive {p q : KursProcessor} {c : UInt8}
    (hc : ¬ (p.receive = .listenPayload ∧ c = KURS_EOP)) (h : kursReceive p c = some q) :
    q.requestReady = p.requestReady := by
  cases hrec : p.receive with
  | listenEop =>
      simp only [kursReceive, hrec, Option.some.injEq] at h
      subst h
      by_cases he : c = KURS_EOP <;> simp [Muxponder.listenEop, he]
  | listenSop =>
      simp only [kursReceive, hrec, Muxponder.listenSop] at h
      by_cases hsop : c = p.SOP
      · rw [if_pos hsop] at h
        exact (push_frame h).2.2.2.1
      · rw [if_neg hsop, Option.some.injEq] at h
        subst h
        rfl
  | listenPayload =>
      simp only [kursReceive, hrec] at h
      obtain ⟨r, hr, rfl⟩ := listenPayload_next (fun he => hc ⟨hrec, he⟩) h
      exact (push_frame hr).2.2.2.1

/-- The end of a packet publishes the characters of the packet and a NUL. -/
theorem publish_receive {p q : KursProcessor} {acc : List UInt8}
    (hp : StandsAt p (.inside acc)) (hh : Holds p (.inside acc))
    (h : kursReceive p KURS_EOP = some q) :
    q.requestReady = true ∧ ∃ b, q.buffCopy = some b ∧
      (acc ++ [KURS_EOP]) ++ [0] <+: (q.buffer b).toList := by
  obtain ⟨hrec, hcnt⟩ := hp
  simp only [kursReceive, hrec, Phase.listener] at h
  obtain ⟨r, hr, hq⟩ := listenPayload_eop h
  have hpre := push_prefix hcnt hh hr
  obtain ⟨-, -, hcn, -, -⟩ := push_frame hr
  obtain ⟨v, hv, -, -, hready, -, hcopy, -, hbuf, -⟩ := publish_eq_some hq
  refine ⟨hready, r.buff, hcopy, ?_⟩
  rw [hbuf]
  refine Buffer.prefix_store hpre ?_
  rw [← hv, hcn, hcnt]
  simp [Phase.stored]

/-- The requests published from any phase on, when no completed packet outgrows the
buffer. -/
theorem publishedRequests_packets {p : KursProcessor} {ph : Phase} {s : List UInt8}
    (hp : StandsAt p ph) (hh : Holds p ph) (hready : p.requestReady = false)
    (hlen : ∀ f ∈ ph.packets p.SOP s, f.length ≤ KURS_MAX_BUFFER - 1) :
    List.Forall₂ (fun b f => f ++ [0] <+: b.toList) (publishedRequests p s)
      (ph.packets p.SOP s) := by
  induction s generalizing p ph with
  | nil => cases ph <;> exact List.Forall₂.nil
  | cons c s ih =>
      by_cases hend : p.receive = .listenPayload ∧ c = KURS_EOP
      · obtain ⟨hrec, rfl⟩ := hend
        cases ph with
        | outside n =>
            exfalso
            have hrec' := hp.receive
            rw [hrec, Phase.listener] at hrec'
            split at hrec' <;> simp at hrec'
        | inside acc =>
            rw [Phase.packets, if_pos rfl] at hlen ⊢
            have hacc : acc.length + 1 ≤ KURS_MAX_BUFFER - 1 := by
              simpa using hlen _ List.mem_cons_self
            have hfits : (Phase.inside acc).fits KURS_EOP := by
              simp only [Phase.fits, KURS_MAX_BUFFER] at hacc ⊢
              omega
            have hsome := receive_isSome_iff_storeIndices.mpr ((storeIndices_fits hp).mpr hfits)
            obtain ⟨q, hq⟩ := Option.isSome_iff_exists.mp hsome
            obtain ⟨hq1, hs⟩ := standsAt_receive hp hq
            obtain ⟨hqr, b, hb, hpre⟩ := publish_receive hp hh hq
            rw [Phase.next, if_pos rfl] at hq1
            simp only [publishedRequests, hq, hqr, if_true, hb, Option.map_some,
              Option.toList_some, List.singleton_append]
            refine List.Forall₂.cons hpre ?_
            rw [← hs]
            refine ih ⟨hq1.receive, hq1.cntr⟩ List.nil_prefix rfl ?_
            intro f hf
            exact hlen f (List.mem_cons_of_mem _ (by simpa [hs] using hf))
      · have hnext : ph.packets p.SOP (c :: s) = (ph.next p.SOP c).packets p.SOP s := by
          cases ph with
          | outside n => rfl
          | inside acc =>
              have he : c ≠ KURS_EOP := fun he => hend ⟨hp.receive, he⟩
              rw [Phase.packets, if_neg he, Phase.next, if_neg he]
        cases hq : kursReceive p c with
        | none =>
            have hnone : ph.packets p.SOP (c :: s) = [] := by
              have hfits : ¬ ph.fits c := by
                rw [← storeIndices_fits hp, ← receive_isSome_iff_storeIndices, hq]
                simp
              cases ph with
              | outside n => exact absurd trivial hfits
              | inside acc =>
                  have he : c ≠ KURS_EOP := fun he => hend ⟨hp.receive, he⟩
                  refine packets_inside_length hlen ?_
                  by_contra hshort
                  refine hfits ⟨?_, fun h => absurd h he⟩
                  omega
            rw [hnone, publishedRequests, hq]
            exact List.Forall₂.nil
        | some q =>
            obtain ⟨hq1, hs⟩ := standsAt_receive hp hq
            have hqr := requestReady_receive hend hq
            rw [hready] at hqr
            rw [hnext] at hlen ⊢
            simp only [publishedRequests, hq, hqr, Bool.false_eq_true, if_false]
            rw [← hs] at hlen hq1 ⊢
            exact ih hq1 (by simpa [hs] using holds_receive hp hh hq) hqr hlen

/-- A fresh processor stands outside a packet. -/
theorem standsAt_init (sop : UInt8) (mem1 mem2 : Buffer) :
    StandsAt (kursProcessorInit sop mem1 mem2) (.outside 0) :=
  ⟨rfl, rfl⟩

/-- **Framing**: the requests published for a stream are its frames after an odd run of
end-of-packet characters, in stream order, each followed by a NUL. -/
theorem publishedRequests_oddFrames {sop : UInt8} (mem1 mem2 : Buffer) (s : List UInt8)
    (hne : sop ≠ KURS_EOP)
    (hlen : ∀ f ∈ frames sop KURS_EOP s, f.length ≤ KURS_MAX_BUFFER - 1) :
    List.Forall₂ (fun b f => f ++ [0] <+: b.toList)
      (publishedRequests (kursProcessorInit sop mem1 mem2) s) (oddFrames sop KURS_EOP s) := by
  have hpackets : (Phase.outside 0).packets sop s = oddFrames sop KURS_EOP s :=
    packets_outside hne 0 s
  rw [← hpackets]
  refine publishedRequests_packets (p := kursProcessorInit sop mem1 mem2)
    (standsAt_init sop mem1 mem2) List.nil_prefix rfl ?_
  intro f hf
  refine hlen f (mem_framesAfter_of_imp ?_ (hpackets ▸ hf))
  intro n hn
  simp only [decide_eq_true_eq] at hn ⊢
  omega

/-- A request after one end-of-packet character. -/
theorem publishedRequests_oddFrames_request :
    List.Forall₂ (fun b f => f ++ [0] <+: b.toList)
      (publishedRequests (kursProcessorInit 0x81 Buffer.zero Buffer.zero)
        [KURS_EOP, 0x81, 0x41, KURS_EOP])
      (oddFrames 0x81 KURS_EOP [KURS_EOP, 0x81, 0x41, KURS_EOP]) :=
  publishedRequests_oddFrames Buffer.zero Buffer.zero _ (by decide) (by decide)

/-- Not every frame is published: after two end-of-packet characters the next one is
skipped. -/
theorem publishedRequests_skips_frame :
    ¬ ∀ (sop : UInt8) (mem1 mem2 : Buffer) (s : List UInt8), sop ≠ KURS_EOP →
      (∀ f ∈ frames sop KURS_EOP s, f.length ≤ KURS_MAX_BUFFER - 1) →
      List.Forall₂ (fun b f => f ++ [0] <+: b.toList)
        (publishedRequests (kursProcessorInit sop mem1 mem2) s) (frames sop KURS_EOP s) := by
  intro h
  have hlen := (h 0x81 Buffer.zero Buffer.zero [KURS_EOP, KURS_EOP, 0x81, 0x41, KURS_EOP]
    (by decide) (by decide)).length_eq
  have hnone : publishedRequests (kursProcessorInit 0x81 Buffer.zero Buffer.zero)
      [KURS_EOP, KURS_EOP, 0x81, 0x41, KURS_EOP] = [] := rfl
  rw [hnone] at hlen
  exact absurd hlen (by decide)

end Muxponder

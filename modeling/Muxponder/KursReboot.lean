import Muxponder.KursStopAndWait

/-!
# The Gate before a Reboot

`COMPLETE` is answered, and the processor told to boot again, only at the end of a live
session. The handler keeps a session in its static variables; here it is read off the
history instead: the session's `HEXLOAD`, nothing since that ends a session, and every
block in time (`SessionSince`). While the flag for a running session is set the history
has this shape (`session_run`), by one step lemma over the outcomes of a call.

## Main results

* `session_run`: what lies behind a running session.
* `reboot_gated`: `COMPLETE` and the reboot flag come from a valid `FINISH` of a session.
-/

namespace Muxponder

open CString Digits NorFlash

/-- The time of the last action and the time allowed after it, once further calls have
been made: a block restarts the clock with three seconds. -/
def clockAfter (tps : UInt32) : UInt32 × UInt32 → List UpdateCall → UInt32 × UInt32
  | clock, [] => clock
  | clock, c :: cs =>
      clockAfter tps (if c.isBlock then (c.nticksBlock, 3 * tps) else clock) cs

/-- Every block and every `FINISH` of a list of calls comes in time, on the 32-bit tick
counter. -/
def InTime (tps : UInt32) : UInt32 × UInt32 → List UpdateCall → Prop
  | _, [] => True
  | clock, c :: cs =>
      ((c.isBlock || c.isFinish) = true → c.nticks - clock.1 ≤ clock.2) ∧
        InTime tps (if c.isBlock then (c.nticksBlock, 3 * tps) else clock) cs

/-- The clock after one more call. -/
theorem clockAfter_snoc {tps : UInt32} {clock : UInt32 × UInt32} {cs : List UpdateCall}
    {c : UpdateCall} :
    clockAfter tps clock (cs ++ [c]) =
      if c.isBlock then (c.nticksBlock, 3 * tps) else clockAfter tps clock cs := by
  induction cs generalizing clock with
  | nil => rfl
  | cons d cs ih => simp only [List.cons_append, clockAfter, ih]

/-- One more call in time. -/
theorem inTime_snoc {tps : UInt32} {clock : UInt32 × UInt32} {cs : List UpdateCall}
    {c : UpdateCall} :
    InTime tps clock (cs ++ [c]) ↔ InTime tps clock cs ∧
      ((c.isBlock || c.isFinish) = true →
        c.nticks - (clockAfter tps clock cs).1 ≤ (clockAfter tps clock cs).2) := by
  induction cs generalizing clock with
  | nil => simp [InTime, clockAfter]
  | cons d cs ih => simp only [List.cons_append, InTime, clockAfter, ih, and_assoc]

/-- A call and its reply that leave a session alive: no restart, no `FINISH`, no failed
write and no `EFINISH`. -/
structure KeepsSession (e : UpdateCall × UpdateReply) : Prop where
  noHexload : e.1.isHexload = false
  noFinish : e.1.isFinish = false
  noFailure : e.2.writeFailed = false
  noEfinish : ∀ header, requestHeader e.1.str_rx = some header →
    e.2.reply ≠ makeAnswerHEXCRC header (ascii "EFINISH")

/-- What lies between the `HEXLOAD` of a session and the present: calls that keep the
session, with its blocks in time, and the clock they have left. -/
structure SessionSince (tps : UInt32) (c₀ : UpdateCall) (h : UpdateHistory)
    (s : RemoteUpdate) : Prop where
  keeps : ∀ e ∈ h, KeepsSession e
  inTime : InTime tps (c₀.nticks, 30 * tps) (h.map Prod.fst)
  clock : (s.dwLastActionTime, s.dwLastTimeout) =
    clockAfter tps (c₀.nticks, 30 * tps) (h.map Prod.fst)

/-- The history of a running session. -/
def InSession (tps : UInt32) (h : UpdateHistory) (s : RemoteUpdate) : Prop :=
  ∃ h₁ c₀ o₀ h₂, h = h₁ ++ (c₀, o₀) :: h₂ ∧ c₀.isHexload = true ∧ SessionSince tps c₀ h₂ s

/-- No plain answer is `EFINISH` or `COMPLETE`. -/
theorem plainTexts_ne {t : List UInt8} (ht : t ∈ plainTexts) :
    t ≠ ascii "EFINISH" ∧ t ≠ ascii "COMPLETE" := by
  have h : ∀ t ∈ plainTexts, t ≠ ascii "EFINISH" ∧ t ≠ ascii "COMPLETE" := by decide
  exact h t ht

/-- A session goes on with a call that leaves it alive. -/
theorem InSession.snoc {tps : UInt32} {h : UpdateHistory} {s s' : RemoteUpdate}
    {e : UpdateCall × UpdateReply} (hs : InSession tps h s) (hk : KeepsSession e)
    (ht : (e.1.isBlock || e.1.isFinish) = true →
      e.1.nticks - s.dwLastActionTime ≤ s.dwLastTimeout)
    (hclock : (s'.dwLastActionTime, s'.dwLastTimeout) =
      if e.1.isBlock then (e.1.nticksBlock, 3 * tps)
      else (s.dwLastActionTime, s.dwLastTimeout)) :
    InSession tps (h ++ [e]) s' := by
  obtain ⟨h₁, c₀, o₀, h₂, rfl, hx, hkeeps, htime, hc⟩ := hs
  refine ⟨h₁, c₀, o₀, h₂ ++ [e], by simp, hx, ?_, ?_, ?_⟩
  · intro x hx
    rcases List.mem_append.mp hx with hx | hx
    · exact hkeeps x hx
    · obtain rfl : x = e := by simpa using hx
      exact hk
  · rw [List.map_append, List.map_singleton, inTime_snoc, ← hc]
    exact ⟨htime, ht⟩
  · rw [List.map_append, List.map_singleton, clockAfter_snoc, ← hc]
    exact hclock

/-- **The step lemma**: a call after which a session runs leaves it alive or starts it. -/
theorem session_step {tps : UInt32} {h : UpdateHistory} {s s' : RemoteUpdate}
    {c : UpdateCall} {o : UpdateReply} (hl : SessionLedger h s)
    (hin : s.bFwUpdateStarted = true → InSession tps h s) (hstep : UpdateStep tps s c s' o)
    (hs' : s'.bFwUpdateStarted = true) : InSession tps (h ++ [(c, o)]) s' := by
  cases hstep with
  | apart hx hf hb hs ho =>
      obtain ⟨b, rfl⟩ := hs
      refine (hin hs').snoc ⟨hx, hf, ?_, ?_⟩ (by simp [hb, hf]) (by simp [hb])
      · rcases ho with rfl | ⟨_, _, _, _, rfl⟩ <;> rfl
      · intro header hh
        rcases ho with rfl | ⟨header', t, ht, hh', rfl⟩
        · exact makeAnswerHEXCRC_ne_nil.symm
        · obtain rfl := Option.some.inj (hh.symm.trans hh')
          exact fun heq => (plainTexts_ne ht).1 (makeAnswerHEXCRC_inj heq)
  | hexload hh hx =>
      exact ⟨h, c, _, [], rfl, hx, by simp, trivial, rfl⟩
  | timeout hh hx ht => exact absurd hs' (by simp)
  | idle hh hx hs =>
      rw [hs] at hs'
      exact absurd hs' (by simp)
  | finish hh hx hf ht hs hstep =>
      rcases finishLoad_cases (hl.load (hl.started hs)).cursor hstep with
        ⟨-, rfl, -⟩ | ⟨-, rfl, -⟩ <;> exact absurd hs' (by simp)
  | block hh hx hf hb hstr ht hs hstep =>
      have haddr : ∀ {a} header', requestHeader c.str_rx = some header' →
          makeAddrAnswerHEXCRC header' a ≠ makeAnswerHEXCRC header' (ascii "EFINISH") :=
        fun _ _ heq => uintToHexStr_ne (by decide) (makeAnswerHEXCRC_inj heq)
      rcases loadBlock_cases (hl.load (hl.started hs)).cursor hstep with
        ⟨-, rfl, rfl⟩ | ⟨p, -, -, -, -, hs'', rfl⟩ | ⟨-, rfl, rfl⟩
      · refine (hin hs).snoc ⟨hx, hf, rfl, ?_⟩ (fun _ => ht) (by simp [hb])
        intro header' hh'
        obtain rfl := Option.some.inj (hh'.symm.trans hh)
        exact haddr _ hh'
      · refine (hin hs).snoc ⟨hx, hf, rfl, ?_⟩ (fun _ => ht) ?_
        · intro header' hh'
          obtain rfl := Option.some.inj (hh'.symm.trans hh)
          exact haddr _ hh'
        · rw [hs'']
          simp [hb]
      · exact absurd hs' (by simp)

/-- **What lies behind a running session**, after any run. -/
theorem session_run {tps : UInt32} {flash : Contents} {h : UpdateHistory}
    {s : RemoteUpdate} (hr : (updateMachine tps).Run (updateInit flash) h s) :
    s.bFwUpdateStarted = true → InSession tps h s := by
  refine hr.invariant ?_ fun h s c s' o hrun hin hs =>
    session_step (sessionLedger_run hrun) hin (update_step hs)
  intro hs
  exact absurd hs (by simp [updateInit])

/-- **The gate before a reboot**: after any requests at any times, `COMPLETE` is answered
and the reboot flag is set only by a valid `FINISH`, preceded by a `HEXLOAD` after which
no call has restarted or ended the session, with every block and the `FINISH` itself in
time. -/
theorem reboot_gated {tps : UInt32} {flash : Contents} {h : UpdateHistory}
    {s s' : RemoteUpdate} {c : UpdateCall} {o : UpdateReply}
    (hr : (updateMachine tps).Run (updateInit flash) h s)
    (hstep : (updateMachine tps).step s c = some (s', o))
    (hdone : (∃ header, requestHeader c.str_rx = some header ∧
        o.reply = makeAnswerHEXCRC header (ascii "COMPLETE")) ∨
      s.rebootNios = false ∧ s'.rebootNios = true) :
    c.isFinish = true ∧ ∃ h₁ c₀ o₀ h₂, h = h₁ ++ (c₀, o₀) :: h₂ ∧ c₀.isHexload = true ∧
      (∀ e ∈ h₂, KeepsSession e) ∧
      InTime tps (c₀.nticks, 30 * tps) (h₂.map Prod.fst ++ [c]) := by
  have hl := sessionLedger_run hr
  -- every other outcome keeps the flag and answers something else
  have hother : s'.rebootNios = s.rebootNios →
      (∀ header, requestHeader c.str_rx = some header →
        o.reply ≠ makeAnswerHEXCRC header (ascii "COMPLETE")) → False := by
    intro hflag hreply
    rcases hdone with ⟨header, hh, ho⟩ | ⟨hs, hs'⟩
    · exact hreply header hh ho
    · rw [hs', hs] at hflag
      exact absurd hflag (by simp)
  have htext : ∀ {header t}, requestHeader c.str_rx = some header → t ≠ ascii "COMPLETE" →
      ∀ header', requestHeader c.str_rx = some header' →
        makeAnswerHEXCRC header t ≠ makeAnswerHEXCRC header' (ascii "COMPLETE") := by
    intro header t hh hne header' hh' heq
    obtain rfl := Option.some.inj (hh.symm.trans hh')
    exact hne (makeAnswerHEXCRC_inj heq)
  have haddr : ∀ {a : UInt32}, uintToHexStr a ≠ ascii "COMPLETE" :=
    fun {a} => uintToHexStr_ne (by decide)
  have hfinish : ascii "EFINISH" ≠ ascii "COMPLETE" := by decide
  cases update_step hstep with
  | apart hx hf hb hs ho =>
      obtain ⟨b, rfl⟩ := hs
      refine (hother rfl ?_).elim
      rcases ho with rfl | ⟨header, t, ht, hh, rfl⟩
      · exact fun _ _ => makeAnswerHEXCRC_ne_nil.symm
      · exact htext hh (plainTexts_ne ht).2
  | hexload hh hx => exact (hother rfl (htext hh haddr)).elim
  | timeout hh hx ht => exact (hother rfl (htext hh hfinish)).elim
  | idle hh hx hs =>
      exact (hother rfl (htext hh (plainTexts_ne (by simp [plainTexts])).2)).elim
  | finish hh hx hf ht hs hstep =>
      obtain ⟨h₁, c₀, o₀, h₂, rfl, hx₀, hkeeps, htime, hclock⟩ := session_run hr hs
      refine ⟨hf, h₁, c₀, o₀, h₂, rfl, hx₀, hkeeps, inTime_snoc.mpr ⟨htime, fun _ => ?_⟩⟩
      rw [← hclock]
      exact ht
  | block hh hx hf hb hstr ht hs hstep =>
      rcases loadBlock_cases (hl.load (hl.started hs)).cursor hstep with
        ⟨-, rfl, rfl⟩ | ⟨p, -, -, -, -, hs'', rfl⟩ | ⟨-, rfl, rfl⟩
      · exact (hother rfl (htext hh haddr)).elim
      · exact (hother (by rw [hs'']) (htext hh haddr)).elim
      · exact (hother rfl (htext hh hfinish)).elim

/-- `FINISH` right behind `HEXLOAD` completes, and the session is in the history. -/
theorem reboot_gated_empty_image :
    finishCall.isFinish = true ∧ ∃ h₁ c₀ o₀ h₂,
      [(hexloadCall, (hexload 1000 (updateInit fun _ => 0) hexloadCall updateHeader).2)] =
        h₁ ++ (c₀, o₀) :: h₂ ∧ c₀.isHexload = true ∧ (∀ e ∈ h₂, KeepsSession e) ∧
      InTime 1000 (c₀.nticks, 30 * 1000) (h₂.map Prod.fst ++ [finishCall]) := by
  obtain ⟨hstep, -⟩ := hexload_step 1000 (updateInit fun _ => 0)
  have hcur : Cursor (hexload 1000 (updateInit fun _ => 0) hexloadCall updateHeader).1 0 :=
    ⟨rfl, rfl, Nat.zero_le _⟩
  obtain ⟨s', o, hfin, hload, -⟩ := sendFinish_step 1000 ⟨rfl, hcur, rfl⟩ fun _ => 0
  rcases finishLoad_cases hcur hload with ⟨-, -, ho⟩ | ⟨hfull, -⟩
  · exact reboot_gated (Machine.Run.single hstep) hfin
      (Or.inl ⟨updateHeader, rfl, by rw [ho]⟩)
  · exact absurd hfull (by decide)

end Muxponder

import Mathlib.Algebra.Group.Nat.Even
import Mathlib.Data.List.Basic

/-!
# Delimited Frames in a Stream

A stream over an alphabet `α` carries frames `sop w eop`, where the body `w` is free of
the closing delimiter. `framesAfter` lists, in stream order, the complete frames whose
opening delimiter stands immediately after a run of closing delimiters whose length
passes a test; `frames` takes every non-empty run and `oddFrames` the runs of odd length.
Nothing here mentions a receiver: these are the streams' own frames, against which a
receiver is measured.

## Main results

* `mem_framesAfter`: membership as a decomposition of the stream.
* `framesAfter_body`, `framesAfter_open`: the body of a frame holds no frame.
-/

namespace Framing

variable {α : Type*} [DecidableEq α] {sop eop : α} {ok : ℕ → Bool}

/-- The complete frame a stream begins with, if any: the opening delimiter, what follows
up to the first closing delimiter, and that delimiter. -/
def frameHead (sop eop : α) : List α → Option (List α)
  | [] => none
  | c :: rest =>
      if c = sop ∧ eop ∈ rest then some (c :: (rest.takeWhile (· ≠ eop) ++ [eop])) else none

/-- The complete frames of a stream, in order, whose opening delimiter comes right after
a maximal run of `n` closing delimiters with `ok n`. The counter argument is the length
of the run just before the head of the stream. -/
def framesAfter (sop eop : α) (ok : ℕ → Bool) : ℕ → List α → List (List α)
  | _, [] => []
  | n, c :: rest =>
      (if ok n then (frameHead sop eop (c :: rest)).toList else []) ++
        framesAfter sop eop ok (if c = eop then n + 1 else 0) rest

/-- The frames of a stream: those whose opening delimiter comes immediately after a
closing delimiter. -/
def frames (sop eop : α) (s : List α) : List (List α) :=
  framesAfter sop eop (fun n => decide (n ≠ 0)) 0 s

/-- The frames whose opening delimiter comes immediately after a maximal run of closing
delimiters of odd length. -/
def oddFrames (sop eop : α) (s : List α) : List (List α) :=
  framesAfter sop eop (fun n => decide (n % 2 = 1)) 0 s

/-- The length of the run of closing delimiters a stream ends with, when the stream is
itself preceded by a run of `n`. -/
def runAfter (eop : α) : ℕ → List α → ℕ
  | n, [] => n
  | n, c :: rest => runAfter eop (if c = eop then n + 1 else 0) rest

/-- An empty stretch keeps the run before it. -/
@[simp] theorem runAfter_nil (n : ℕ) : runAfter eop n [] = n := rfl

/-- The count moves with each element. -/
@[simp] theorem runAfter_cons (n : ℕ) (c : α) (s : List α) :
    runAfter eop n (c :: s) = runAfter eop (if c = eop then n + 1 else 0) s := rfl

/-- The run at the end of a concatenation is counted through its first part. -/
theorem runAfter_append (n : ℕ) (s t : List α) :
    runAfter eop n (s ++ t) = runAfter eop (runAfter eop n s) t := by
  induction s generalizing n with
  | nil => rfl
  | cons c s ih => simp only [List.cons_append, runAfter_cons, ih]

/-- A non-empty stretch without closing delimiters ends every run. -/
theorem runAfter_body {n : ℕ} {w : List α} (hw : eop ∉ w) (hne : w ≠ []) :
    runAfter eop n w = 0 := by
  induction w generalizing n with
  | nil => exact absurd rfl hne
  | cons c w ih =>
      obtain ⟨hc, hw⟩ : eop ≠ c ∧ eop ∉ w := by simpa using hw
      rw [runAfter_cons, if_neg hc.symm]
      rcases w with _ | ⟨d, w⟩
      · rfl
      · exact ih hw (by simp)

/-- The empty stream begins with no frame. -/
@[simp] theorem frameHead_nil : frameHead sop eop [] = none := rfl

/-- A body free of the closing delimiter is cut exactly where it ends. -/
theorem takeWhile_body {w rest : List α} (hw : eop ∉ w) :
    (w ++ eop :: rest).takeWhile (· ≠ eop) = w := by
  rw [List.takeWhile_append_of_pos]
  · simp
  · intro a ha
    simpa using fun h : a = eop => hw (h ▸ ha)

/-- The head frame, read off an explicit frame. -/
theorem frameHead_frame {w rest : List α} (hw : eop ∉ w) :
    frameHead sop eop (sop :: (w ++ eop :: rest)) = some (sop :: (w ++ [eop])) := by
  simp only [frameHead, true_and, List.mem_append, List.mem_cons, true_or, or_true, if_true,
    takeWhile_body hw]

/-- A stream begins with a frame exactly when it splits as one. -/
theorem frameHead_eq_some_iff {s f : List α} :
    frameHead sop eop s = some f ↔
      ∃ w rest, s = sop :: (w ++ eop :: rest) ∧ eop ∉ w ∧ f = sop :: (w ++ [eop]) := by
  constructor
  · intro h
    rcases s with _ | ⟨c, s⟩
    · simp at h
    · by_cases hc : c = sop ∧ eop ∈ s
      · obtain ⟨rfl, hmem⟩ := hc
        obtain ⟨w, rest, rfl, hw⟩ := List.eq_append_cons_of_mem hmem
        rw [frameHead_frame hw] at h
        exact ⟨w, rest, rfl, hw, (Option.some.inj h).symm⟩
      · simp [frameHead, hc] at h
  · rintro ⟨w, rest, rfl, hw, rfl⟩
    exact frameHead_frame hw

/-- **Membership**: a listed frame is a piece `sop w eop` of the stream with an
`eop`-free body, standing after a run of closing delimiters that passes the test. -/
theorem mem_framesAfter {n : ℕ} {s f : List α} :
    f ∈ framesAfter sop eop ok n s ↔
      ∃ pre w rest, s = pre ++ sop :: (w ++ eop :: rest) ∧ eop ∉ w ∧
        ok (runAfter eop n pre) = true ∧ f = sop :: (w ++ [eop]) := by
  induction s generalizing n with
  | nil =>
      simp only [framesAfter, List.not_mem_nil, false_iff]
      rintro ⟨pre, w, rest, h, -⟩
      simp at h
  | cons c s ih =>
      rw [framesAfter, List.mem_append, ih]
      constructor
      · rintro (h | ⟨pre, w, rest, rfl, hw, hok, rfl⟩)
        · by_cases hok : ok n = true
          · rw [if_pos hok, Option.mem_toList, frameHead_eq_some_iff] at h
            obtain ⟨w, rest, hs, hw, rfl⟩ := h
            exact ⟨[], w, rest, hs, hw, hok, rfl⟩
          · simp [hok] at h
        · exact ⟨c :: pre, w, rest, rfl, hw, hok, rfl⟩
      · rintro ⟨pre, w, rest, hs, hw, hok, rfl⟩
        rcases pre with _ | ⟨d, pre⟩
        · left
          rw [List.nil_append] at hs
          rw [if_pos (by simpa using hok), Option.mem_toList, hs]
          exact frameHead_frame hw
        · right
          obtain ⟨rfl, rfl⟩ : c = d ∧ s = pre ++ sop :: (w ++ eop :: rest) := by simpa using hs
          exact ⟨pre, w, rest, rfl, hw, hok, rfl⟩

/-- A weaker test on the run of closing delimiters lists more frames. -/
theorem mem_framesAfter_of_imp {ok' : ℕ → Bool} {n : ℕ} {s f : List α}
    (himp : ∀ n, ok n = true → ok' n = true) (hf : f ∈ framesAfter sop eop ok n s) :
    f ∈ framesAfter sop eop ok' n s := by
  obtain ⟨pre, w, rest, hs, hw, hok, rfl⟩ := mem_framesAfter.mp hf
  exact mem_framesAfter.mpr ⟨pre, w, rest, hs, hw, himp _ hok, rfl⟩

/-- No frame starts inside a body: after it the count of closing delimiters is one. -/
theorem framesAfter_body {w rest : List α} (h0 : ok 0 = false) (hw : eop ∉ w) :
    framesAfter sop eop ok 0 (w ++ eop :: rest) = framesAfter sop eop ok 1 rest := by
  induction w with
  | nil => simp [framesAfter, h0]
  | cons c w ih =>
      obtain ⟨hc, hw⟩ : eop ≠ c ∧ eop ∉ w := by simpa using hw
      simp [framesAfter, h0, hc.symm, ih hw]

/-- A stream without a closing delimiter completes no frame. -/
theorem framesAfter_open {n : ℕ} {s : List α} (hs : eop ∉ s) :
    framesAfter sop eop ok n s = [] := by
  rw [List.eq_nil_iff_forall_not_mem]
  intro f hf
  obtain ⟨pre, w, rest, rfl, -⟩ := mem_framesAfter.mp hf
  simp at hs

/-- The first frame of a stream that starts with one. -/
theorem framesAfter_frame {n : ℕ} {w rest : List α} (hne : sop ≠ eop) (hn : ok n = true)
    (h0 : ok 0 = false) (hw : eop ∉ w) :
    framesAfter sop eop ok n (sop :: (w ++ eop :: rest)) =
      (sop :: (w ++ [eop])) :: framesAfter sop eop ok 1 rest := by
  rw [framesAfter, if_pos hn, frameHead_frame hw, if_neg hne, framesAfter_body h0 hw]
  rfl

end Framing

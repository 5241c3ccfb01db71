import Mathlib.Data.List.Nodup
import Mathlib.Logic.Function.Basic

/-!
# Circular Lists

Entries that point at the one behind and the one before them, linked to a ring through a head
entry. An entry that is inserted comes behind the head; one that is removed points at itself, so
that it may be removed again.

A `Path` says which entries stand between two others, and `Ring` is a path from the head to itself
that visits no entry twice.

## Main results

* `Ring.insert`, `Ring.remove`: the two operations on a ring, with `Ring.insert_frame` and
  `Ring.remove_frame` for the entries outside it.
* `Ring.insert_again`: an entry that is inserted a second time closes a cycle that the head is not
  on, and `Closed.remove` says that removing entries does not open it.
-/

/-- The two pointers of every entry. -/
structure Links (α : Type*) where
  next : α → α
  previous : α → α

namespace Links

section Operations

variable {α : Type*} [DecidableEq α] (l : Links α)

/-- Inserting an entry behind the head of a list. -/
def insert (list entry : α) : Links α :=
  let l : Links α := { l with previous := Function.update l.previous entry list }
  let l : Links α := { l with next := Function.update l.next entry (l.next list) }
  let l : Links α := { l with previous := Function.update l.previous (l.next list) entry }
  { l with next := Function.update l.next list entry }

/-- Removing an entry from whatever list it is in. -/
def remove (entry : α) : Links α :=
  let l : Links α :=
    { l with previous := Function.update l.previous (l.next entry) (l.previous entry) }
  let l : Links α := { l with next := Function.update l.next (l.previous entry) (l.next entry) }
  let l : Links α := { l with previous := Function.update l.previous entry entry }
  { l with next := Function.update l.next entry entry }

variable {l} {list entry x : α}

theorem insert_next : (l.insert list entry).next x =
    if x = list then entry else if x = entry then l.next list else l.next x := by
  simp only [insert, Function.update_apply]

theorem insert_previous : (l.insert list entry).previous x =
    if x = l.next list then entry else if x = entry then list else l.previous x := by
  simp only [insert, Function.update_apply, ite_self]

theorem remove_next : (l.remove entry).next x =
    if x = entry then entry else if x = l.previous entry then l.next entry else l.next x := by
  simp only [remove, Function.update_apply, ite_self]

theorem remove_previous : (l.remove entry).previous x =
    if x = entry then entry else if x = l.next entry then l.previous entry
      else l.previous x := by
  simp only [remove, Function.update_apply]

end Operations

/-! ### Paths -/

section Paths

variable {α : Type*} {l l' : Links α} {a b x y : α} {xs ys : List α}

/-- Two entries that point at each other. -/
def Linked (l : Links α) (a b : α) : Prop := l.next a = b ∧ l.previous b = a

/-- The entries between two others. -/
def Path (l : Links α) : α → List α → α → Prop
  | a, [], b => l.Linked a b
  | a, x :: xs, b => l.Linked a x ∧ Path l x xs b

@[simp] theorem path_nil : l.Path a [] b ↔ l.Linked a b := Iff.rfl

@[simp] theorem path_cons : l.Path a (x :: xs) b ↔ l.Linked a x ∧ l.Path x xs b := Iff.rfl

/-- A path through an entry is two paths. -/
theorem path_append : l.Path a (xs ++ y :: ys) b ↔ l.Path a xs y ∧ l.Path y ys b := by
  induction xs generalizing a with
  | nil => simp
  | cons x xs ih => simp [ih, and_assoc]

/-- A path is as its pointers say. -/
theorem Path.congr (h : l.Path a xs b) (hnext : ∀ x ∈ a :: xs, l'.next x = l.next x)
    (hprevious : ∀ x ∈ xs ++ [b], l'.previous x = l.previous x) : l'.Path a xs b := by
  induction xs generalizing a with
  | nil =>
      obtain ⟨hn, hp⟩ := h
      exact ⟨(hnext a (by simp)).trans hn, (hprevious b (by simp)).trans hp⟩
  | cons x xs ih =>
      obtain ⟨⟨hn, hp⟩, h⟩ := h
      refine ⟨⟨(hnext a (by simp)).trans hn, (hprevious x (by simp)).trans hp⟩, ih h ?_ ?_⟩
      · exact fun z hz => hnext z (List.mem_cons_of_mem _ hz)
      · exact fun z hz => hprevious z (List.mem_cons_of_mem _ hz)

/-- Where the first entry of a path points. -/
theorem Path.next_eq (h : l.Path a xs b) : l.next a = xs.headD b := by
  cases xs with
  | nil => exact h.1
  | cons x xs => exact h.1.1

/-- Every entry of a path points at one of them or at its end. -/
theorem Path.next_mem (h : l.Path a xs b) (hx : x ∈ a :: xs) : l.next x ∈ xs ++ [b] := by
  induction xs generalizing a with
  | nil =>
      obtain rfl := List.mem_singleton.mp hx
      exact List.mem_singleton.mpr h.1
  | cons y xs ih =>
      rcases List.mem_cons.mp hx with rfl | hx
      · rw [h.1.1]
        exact List.mem_cons_self
      · exact List.mem_cons_of_mem _ (ih h.2 hx)

/-- The end of a path points back at one of its entries. -/
theorem Path.previous_mem (h : l.Path a xs b) : l.previous b ∈ a :: xs := by
  induction xs generalizing a with
  | nil => exact List.mem_singleton.mpr h.2
  | cons y xs ih => exact List.mem_cons_of_mem _ (ih h.2)

/-- A path whose last entry is linked to another end. -/
theorem Path.relink (h : l.Path a xs y) (hnodup : (a :: xs).Nodup)
    (hnext : ∀ x ∈ a :: xs, x ≠ l.previous y → l'.next x = l.next x)
    (hprevious : ∀ x ∈ xs, l'.previous x = l.previous x) (hlink : l'.Linked (l.previous y) b) :
    l'.Path a xs b := by
  induction xs generalizing a with
  | nil =>
      obtain ⟨-, hp⟩ := h
      rwa [hp] at hlink
  | cons x xs ih =>
      obtain ⟨⟨hn, hp⟩, h⟩ := h
      obtain ⟨ha, hnodup⟩ := List.nodup_cons.mp hnodup
      have hne : a ≠ l.previous y := fun heq => ha (heq ▸ h.previous_mem)
      refine ⟨⟨(hnext a (by simp) hne).trans hn, (hprevious x (by simp)).trans hp⟩, ?_⟩
      exact ih h hnodup (fun z hz => hnext z (List.mem_cons_of_mem _ hz))
        fun z hz => hprevious z (List.mem_cons_of_mem _ hz)

end Paths

/-! ### Rings -/

/-- The entries of a list behind its head. -/
structure Ring {α : Type*} (l : Links α) (list : α) (xs : List α) : Prop where
  path : l.Path list xs list
  nodup : (list :: xs).Nodup

section Rings

variable {α : Type*} [DecidableEq α] {l : Links α} {list entry x : α} {xs ys : List α}

/-- **An entry is inserted in front.** -/
theorem Ring.insert (h : l.Ring list xs) (hnew : entry ∉ list :: xs) :
    (l.insert list entry).Ring list (entry :: xs) := by
  obtain ⟨hne, hout⟩ : entry ≠ list ∧ entry ∉ xs := by simpa using hnew
  obtain ⟨hlist, hnodup⟩ := List.nodup_cons.mp h.nodup
  have hnext : l.next list = xs.headD list := h.path.next_eq
  refine ⟨⟨⟨?_, ?_⟩, ?_⟩, ?_⟩
  · rw [insert_next, if_pos rfl]
  · have hfirst : entry ≠ l.next list := by
      have := h.path.next_mem List.mem_cons_self
      rintro rfl
      rcases List.mem_append.mp this with hin | hin
      · exact hout hin
      · exact hne (List.mem_singleton.mp hin)
    rw [insert_previous, if_neg hfirst, if_pos rfl]
  · cases xs with
    | nil => exact ⟨by rw [insert_next, if_neg hne, if_pos rfl, h.path.1],
        by rw [insert_previous, if_pos h.path.1.symm]⟩
    | cons y ys =>
        have hy : l.next list = y := h.path.1.1
        obtain ⟨hyout, -⟩ := List.nodup_cons.mp hnodup
        refine ⟨⟨by rw [insert_next, if_neg hne, if_pos rfl, hy],
          by rw [insert_previous, if_pos hy.symm]⟩, h.path.2.congr (fun z hz => ?_) fun z hz => ?_⟩
        · have hzl : z ≠ list := fun heq => hlist (heq ▸ hz)
          have hze : z ≠ entry := fun heq => hout (heq ▸ hz)
          rw [insert_next, if_neg hzl, if_neg hze]
        · have hzy : z ≠ y := by
            rintro rfl
            rcases List.mem_append.mp hz with hin | hin
            · exact hyout hin
            · exact hlist (List.mem_singleton.mp hin ▸ List.mem_cons_self)
          have hze : z ≠ entry := by
            rintro rfl
            rcases List.mem_append.mp hz with hin | hin
            · exact hout (List.mem_cons_of_mem _ hin)
            · exact hne (List.mem_singleton.mp hin)
          rw [insert_previous, hy, if_neg hzy, if_neg hze]
  · exact List.nodup_cons.mpr ⟨by simp [hne.symm, hlist], List.nodup_cons.mpr ⟨hout, hnodup⟩⟩

/-- Other entries are left alone. -/
theorem Ring.insert_frame (h : l.Ring list xs) (hne : x ≠ entry) (hx : x ∉ list :: xs) :
    (l.insert list entry).next x = l.next x ∧
      (l.insert list entry).previous x = l.previous x := by
  obtain ⟨hlist, hout⟩ : x ≠ list ∧ x ∉ xs := by simpa using hx
  have hfirst : x ≠ l.next list := by
    have := h.path.next_mem List.mem_cons_self
    rintro rfl
    rcases List.mem_append.mp this with hin | hin
    · exact hout hin
    · exact hlist (List.mem_singleton.mp hin)
  rw [insert_next, insert_previous, if_neg hlist, if_neg hne, if_neg hfirst, if_neg hne]
  exact ⟨rfl, rfl⟩

/-- **An entry is removed** from wherever it is, and points at itself. -/
theorem Ring.remove (h : l.Ring list (xs ++ entry :: ys)) :
    (l.remove entry).Ring list (xs ++ ys) ∧ (l.remove entry).Linked entry entry := by
  obtain ⟨hfront, hback⟩ := path_append.mp h.path
  have hnodup : ((list :: xs) ++ entry :: ys).Nodup := h.nodup
  obtain ⟨hnodup₁, hnodup₂, hdisjoint⟩ := List.nodup_append.mp hnodup
  obtain ⟨hentry, hnodup₂⟩ := List.nodup_cons.mp hnodup₂
  have hne : ∀ z ∈ list :: xs, z ≠ entry := fun z hz => hdisjoint z hz entry List.mem_cons_self
  have hprev := hfront.previous_mem
  have hself : (l.remove entry).Linked entry entry := by
    constructor
    · rw [remove_next, if_pos rfl]
    · rw [remove_previous, if_pos rfl]
  have hnext : ∀ z ∈ list :: xs, z ≠ l.previous entry → (l.remove entry).next z = l.next z :=
    fun z hz hp => by rw [remove_next, if_neg (hne z hz), if_neg hp]
  have hkept : ((list :: xs) ++ ys).Nodup :=
    List.nodup_append.mpr ⟨hnodup₁, hnodup₂, fun z hz w hw => hdisjoint z hz w (by simp [hw])⟩
  refine ⟨⟨?_, hkept⟩, hself⟩
  cases ys with
  | nil =>
      rw [List.append_nil]
      obtain ⟨hn, -⟩ : l.Linked entry list := hback
      refine hfront.relink hnodup₁ hnext (fun z hz => ?_) ⟨?_, ?_⟩
      · have hzl : z ≠ list := fun heq => (List.nodup_cons.mp hnodup₁).1 (heq ▸ hz)
        rw [remove_previous, if_neg (hne z (List.mem_cons_of_mem _ hz)), hn, if_neg hzl]
      · rw [remove_next, if_neg (hne _ hprev), if_pos rfl, hn]
      · rw [remove_previous, if_neg (hne list List.mem_cons_self), hn, if_pos rfl]
  | cons y ys =>
      obtain ⟨⟨hn, -⟩, hback⟩ : l.Linked entry y ∧ l.Path y ys list := hback
      have hy : ∀ z ∈ list :: xs, z ≠ y := fun z hz => hdisjoint z hz y (by simp)
      obtain ⟨hyout, -⟩ := List.nodup_cons.mp hnodup₂
      refine path_append.mpr ⟨hfront.relink hnodup₁ hnext (fun z hz => ?_) ⟨?_, ?_⟩,
        hback.congr (fun z hz => ?_) fun z hz => ?_⟩
      · have hz := List.mem_cons_of_mem list hz
        rw [remove_previous, if_neg (hne z hz), hn, if_neg (hy z hz)]
      · rw [remove_next, if_neg (hne _ hprev), if_pos rfl, hn]
      · have hye : y ≠ entry := fun heq => hentry (heq ▸ List.mem_cons_self)
        rw [remove_previous, if_neg hye, hn, if_pos rfl]
      · have hze : z ≠ entry := fun heq => hentry (heq ▸ hz)
        have hzp : z ≠ l.previous entry :=
          fun heq => hdisjoint _ hprev z (List.mem_cons_of_mem _ hz) heq.symm
        rw [remove_next, if_neg hze, if_neg hzp]
      · rcases List.mem_append.mp hz with hz | hz
        · have hze : z ≠ entry := fun heq => hentry (heq ▸ List.mem_cons_of_mem _ hz)
          have hzy : z ≠ y := fun heq => hyout (heq ▸ hz)
          rw [remove_previous, if_neg hze, hn, if_neg hzy]
        · obtain rfl := List.mem_singleton.mp hz
          rw [remove_previous, if_neg (hne z List.mem_cons_self), hn,
            if_neg (hy z List.mem_cons_self)]

/-- Other entries are left alone. -/
theorem Ring.remove_frame (h : l.Ring list (xs ++ entry :: ys))
    (hx : x ∉ list :: (xs ++ entry :: ys)) :
    (l.remove entry).next x = l.next x ∧ (l.remove entry).previous x = l.previous x := by
  obtain ⟨hfront, hback⟩ := path_append.mp h.path
  have hprev : x ≠ l.previous entry := by
    rintro rfl
    refine hx ?_
    have hin : l.previous entry ∈ (list :: xs) ++ entry :: ys :=
      List.mem_append_left _ hfront.previous_mem
    exact hin
  have hnext : x ≠ l.next entry := by
    rintro rfl
    refine hx ?_
    rcases List.mem_append.mp (hback.next_mem List.mem_cons_self) with hin | hin
    · simp [hin]
    · simp [List.mem_singleton.mp hin]
  have hne : x ≠ entry := by
    rintro rfl
    exact hx (by simp)
  rw [remove_next, remove_previous, if_neg hne, if_neg hprev, if_neg hne, if_neg hnext]
  exact ⟨rfl, rfl⟩

/-- **Removing an entry again is harmless.** -/
theorem remove_self (h : l.Linked entry entry) : l.remove entry = l := by
  obtain ⟨hn, hp⟩ := h
  have hnext : (l.remove entry).next = l.next := by
    funext x
    rw [remove_next, hn, hp]
    split
    · next hx => rw [hx, hn]
    · rfl
  have hprevious : (l.remove entry).previous = l.previous := by
    funext x
    rw [remove_previous, hn, hp]
    split
    · next hx => rw [hx, hp]
    · rfl
  calc l.remove entry = ⟨(l.remove entry).next, (l.remove entry).previous⟩ := rfl
    _ = l := by rw [hnext, hprevious]

/-! ### Cycles -/

/-- A set of entries that no pointer leads out of. -/
def Closed (l : Links α) (C : Set α) : Prop := ∀ x ∈ C, l.next x ∈ C

/-- It stays so when one of them is removed. -/
theorem Closed.remove {C : Set α} (h : l.Closed C) (hentry : entry ∈ C) :
    (l.remove entry).Closed C := by
  intro x hx
  rw [remove_next]
  split
  · exact hentry
  · split
    · exact h entry hentry
    · exact h x hx

/-- **An entry that is inserted again** closes a cycle, which the head leads to and is not on. -/
theorem Ring.insert_again (h : l.Ring list (xs ++ entry :: ys)) :
    ∃ C, (l.insert list entry).Closed C ∧ list ∉ C ∧ (l.insert list entry).next list ∈ C := by
  obtain ⟨hfront, -⟩ := path_append.mp h.path
  have hnodup : ((list :: xs) ++ entry :: ys).Nodup := h.nodup
  obtain ⟨hnodup₁, -, hdisjoint⟩ := List.nodup_append.mp hnodup
  have hne : list ≠ entry := hdisjoint list List.mem_cons_self entry List.mem_cons_self
  refine ⟨{x | x ∈ xs ++ [entry]}, fun x hx => ?_, fun hin => ?_, ?_⟩
  · have hlist : x ≠ list := by
      rintro rfl
      rcases List.mem_append.mp hx with hin | hin
      · exact (List.nodup_cons.mp hnodup₁).1 hin
      · exact hne (List.mem_singleton.mp hin)
    rw [insert_next, if_neg hlist]
    split
    · exact hfront.next_mem List.mem_cons_self
    · next hxe =>
        have hin : x ∈ xs := (List.mem_append.mp hx).resolve_right fun h =>
          hxe (List.mem_singleton.mp h)
        exact hfront.next_mem (List.mem_cons_of_mem _ hin)
  · rcases List.mem_append.mp hin with hin | hin
    · exact (List.nodup_cons.mp hnodup₁).1 hin
    · exact hne (List.mem_singleton.mp hin)
  · rw [insert_next, if_pos rfl]
    exact List.mem_append_right _ (List.mem_singleton.mpr rfl)

end Rings

end Links

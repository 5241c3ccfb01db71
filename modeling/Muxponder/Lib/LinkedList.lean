import Mathlib.Data.UInt
import Mathlib.Data.List.Nodup
import Mathlib.Data.Finset.Card
import Mathlib.Order.Interval.Finset.Nat
import Mathlib.Logic.Function.Basic

/-!
# Doubly Linked Lists

Nodes in memory that point at the one behind and the one before them, and a list of them with
a head, a tail and a counter of 16 bits. A pointer that points at no node is not followed: an
operation that would do so is undefined.

A `Segment` says which nodes stand behind each other in memory, with their addresses and
values; a chain is a segment between two null pointers, and `IsList` ties a whole list with its
head, tail and counter to such a chain.

## Main results

* `append_spec`: a new node goes to the end.
* `unlink_spec`: a node is taken out from wherever it stands, and still points at its
  neighbours.
* `find_spec`: a walk finds the first node with a property.
-/

/-- A node: its value and its two pointers. -/
structure ListNode (α : Type*) where
  value : α
  next : UInt32
  previous : UInt32
  deriving DecidableEq, Repr

/-- The nodes in memory. An address without one has not been allocated, or has been freed. -/
abbrev NodeHeap (α : Type*) := UInt32 → Option (ListNode α)

/-- The variables of a list. -/
structure ListVars where
  head : UInt32
  tail : UInt32
  count : UInt16
  deriving DecidableEq, Repr

namespace NodeHeap

variable {α : Type*}

/-- The memory after a node, if there is one, has been changed. -/
def map (h : NodeHeap α) (a : UInt32) (f : ListNode α → ListNode α) : NodeHeap α :=
  Function.update h a ((h a).map f)

/-- Changing a node that must be there. -/
def modify (h : NodeHeap α) (a : UInt32) (f : ListNode α → ListNode α) : Option (NodeHeap α) :=
  if (h a).isSome then some (h.map a f) else none

/-- Freeing a node that must be there. -/
def free (h : NodeHeap α) (a : UInt32) : Option (NodeHeap α) :=
  if (h a).isSome then some (Function.update h a none) else none

end NodeHeap

/-- Pointing a node forward. -/
@[simp] def ListNode.setNext {α : Type*} (p : UInt32) (n : ListNode α) : ListNode α :=
  { n with next := p }

/-- Pointing a node back. -/
@[simp] def ListNode.setPrevious {α : Type*} (p : UInt32) (n : ListNode α) : ListNode α :=
  { n with previous := p }

/-- Changing the value of a node. -/
@[simp] def ListNode.mapValue {α : Type*} (g : α → α) (n : ListNode α) : ListNode α :=
  { n with value := g n.value }

namespace LinkedList

variable {α : Type*}

/-- Attaching a node behind the tail. -/
def append (h : NodeHeap α) (l : ListVars) (a : UInt32) : Option (NodeHeap α × ListVars) :=
  if l.head ≠ 0 then do
    let h ← h.modify a (.setPrevious l.tail)
    let h ← h.modify l.tail (.setNext a)
    pure (h, { l with tail := a, count := l.count + 1 })
  else pure (h, { head := a, tail := a, count := l.count + 1 })

/-- Detaching a node: its neighbours, or the list, point past it. The counter is left to the
caller. -/
def unlink (h : NodeHeap α) (l : ListVars) (a : UInt32) : Option (NodeHeap α × ListVars) :=
  if a = l.head then
    if l.count = 1 then pure (h, { l with head := 0, tail := 0 })
    else do
      let n ← h l.head
      let h ← h.modify n.next (.setPrevious 0)
      pure (h, { l with head := n.next })
  else if a = l.tail then do
    let n ← h l.tail
    let h ← h.modify n.previous (.setNext 0)
    pure (h, { l with tail := n.previous })
  else do
    let n ← h a
    let h ← h.modify n.previous (.setNext n.next)
    let n ← h a
    let h ← h.modify n.next (.setPrevious n.previous)
    pure (h, l)

/-- Walking over at most `fuel` nodes to the first one whose value has a property. The answer
is null where there is none. -/
def find : ℕ → NodeHeap α → (α → Bool) → UInt32 → Option UInt32
  | 0, _, _, _ => none
  | fuel + 1, h, f, p =>
      if p = 0 then some 0
      else (h p).bind fun n => if f n.value then some p else find fuel h f n.next

/-- Walking over at most `fuel` nodes to the last one. -/
def findLast : ℕ → NodeHeap α → UInt32 → UInt32 → Option UInt32
  | 0, _, _, _ => none
  | fuel + 1, h, res, p =>
      if p = 0 then some res else (h p).bind fun n => findLast fuel h p n.next

/-- The values of the nodes that a walk over at most `fuel` of them meets. -/
def values : ℕ → NodeHeap α → UInt32 → Option (List α)
  | 0, _, _ => none
  | fuel + 1, h, p =>
      if p = 0 then some [] else (h p).bind fun n => (values fuel h n.next).map (n.value :: ·)

/-- More nodes than there are addresses. -/
def FUEL : ℕ := 2 ^ 32

/-! ### Segments -/

/-- The nodes of a segment with their addresses. -/
abbrev Nodes (α : Type*) := List (UInt32 × α)

/-- The addresses of nodes. -/
def addresses (xs : Nodes α) : List UInt32 := xs.map Prod.fst

/-- Where a segment starts, if it ends at `p`. -/
def first : Nodes α → UInt32 → UInt32
  | [], p => p
  | (a, _) :: _, _ => a

/-- Where a segment ends, if it starts behind `q`. -/
def last : UInt32 → Nodes α → UInt32
  | q, [] => q
  | _, (a, _) :: xs => last a xs

/-- Nodes that stand behind each other in memory, behind `q` and in front of `p`. -/
def Segment (h : NodeHeap α) : UInt32 → Nodes α → UInt32 → Prop
  | _, [], _ => True
  | q, (a, v) :: xs, p => h a = some ⟨v, first xs p, q⟩ ∧ Segment h a xs p

variable {h h' : NodeHeap α} {xs ys ls rs : Nodes α} {p q p' q' a b : UInt32} {v : α}
  {l : ListVars} {f : ListNode α → ListNode α}

@[simp] theorem addresses_nil : addresses ([] : Nodes α) = [] := rfl

@[simp] theorem addresses_cons : addresses ((a, v) :: xs) = a :: addresses xs := rfl

@[simp] theorem addresses_append : addresses (xs ++ ys) = addresses xs ++ addresses ys :=
  List.map_append

@[simp] theorem first_nil : first ([] : Nodes α) p = p := rfl

@[simp] theorem first_cons : first ((a, v) :: xs) p = a := rfl

@[simp] theorem last_nil : last q ([] : Nodes α) = q := rfl

@[simp] theorem last_cons : last q ((a, v) :: xs) = last a xs := rfl

@[simp] theorem first_append : first (xs ++ ys) p = first xs (first ys p) := by
  cases xs <;> rfl

@[simp] theorem last_append : last q (xs ++ ys) = last (last q xs) ys := by
  induction xs generalizing q with
  | nil => rfl
  | cons x xs ih => exact ih

/-- The last node of a segment is one of it. -/
theorem last_mem (hne : xs ≠ []) : last q xs ∈ addresses xs := by
  induction xs generalizing q with
  | nil => exact absurd rfl hne
  | cons x xs ih =>
      cases xs with
      | nil => exact List.mem_singleton_self _
      | cons y ys => exact List.mem_cons_of_mem _ (ih (q := x.1) (List.cons_ne_nil _ _))

/-- The first node of a segment is one of it. -/
theorem first_mem (hne : xs ≠ []) : first xs p ∈ addresses xs := by
  cases xs with
  | nil => exact absurd rfl hne
  | cons x xs => exact List.mem_cons_self

@[simp] theorem segment_nil : Segment h q [] p ↔ True := Iff.rfl

@[simp] theorem segment_cons :
    Segment h q ((a, v) :: xs) p ↔ h a = some ⟨v, first xs p, q⟩ ∧ Segment h a xs p := Iff.rfl

/-- Segments are put behind each other. -/
theorem segment_append :
    Segment h q (xs ++ ys) p ↔ Segment h q xs (first ys p) ∧ Segment h (last q xs) ys p := by
  induction xs generalizing q with
  | nil => simp
  | cons x xs ih =>
      obtain ⟨a, v⟩ := x
      simp [ih, and_assoc]

/-- A segment is the same in a memory that has the same nodes at its addresses. -/
theorem Segment.congr (hs : Segment h q xs p) (hh : ∀ b ∈ addresses xs, h' b = h b) :
    Segment h' q xs p := by
  induction xs generalizing q with
  | nil => trivial
  | cons x xs ih =>
      exact ⟨(hh _ List.mem_cons_self).trans hs.1,
        ih hs.2 fun b hb => hh b (List.mem_cons_of_mem _ hb)⟩

/-! ### Changing nodes -/

@[simp] theorem map_self : h.map a f a = (h a).map f := Function.update_self ..

theorem map_of_ne (hb : b ≠ a) : h.map a f b = h b := Function.update_of_ne hb ..

/-- A node that is there can be changed. -/
theorem modify_eq {n : ListNode α} (ha : h a = some n) : h.modify a f = some (h.map a f) := by
  rw [NodeHeap.modify, if_pos (by rw [ha]; rfl)]

/-- Nothing else can. -/
theorem modify_eq_some_iff : h.modify a f = some h' ↔ (∃ n, h a = some n) ∧ h' = h.map a f := by
  rw [NodeHeap.modify, ← Option.isSome_iff_exists]
  split
  next hn => simp [hn, eq_comm]
  next hn => simp [hn]

/-- A segment does not see a change elsewhere. -/
theorem Segment.map_of_not_mem (hs : Segment h q xs p) (ha : a ∉ addresses xs) :
    Segment (h.map a f) q xs p :=
  hs.congr fun _ hb => map_of_ne fun heq => ha (heq ▸ hb)

/-- The value of a node is changed in its place. -/
theorem Segment.map_value {g : α → α} (hs : Segment h q (ls ++ (a, v) :: rs) p)
    (hn : (addresses (ls ++ (a, v) :: rs)).Nodup) :
    Segment (h.map a (.mapValue g)) q (ls ++ (a, g v) :: rs) p := by
  rw [segment_append, segment_cons] at hs ⊢
  obtain ⟨hl, ha, hr⟩ := hs
  rw [addresses_append, addresses_cons, List.nodup_middle, List.nodup_cons] at hn
  have hal : a ∉ addresses ls := fun h => hn.1 (List.mem_append_left _ h)
  have har : a ∉ addresses rs := fun h => hn.1 (List.mem_append_right _ h)
  exact ⟨hl.map_of_not_mem hal, by rw [map_self, ha]; rfl, hr.map_of_not_mem har⟩

/-- The last node is pointed elsewhere. -/
theorem Segment.setNext (hs : Segment h q (ls ++ [(a, v)]) p)
    (hn : (addresses (ls ++ [(a, v)])).Nodup) :
    Segment (h.map a (.setNext p')) q (ls ++ [(a, v)]) p' := by
  rw [segment_append, segment_cons] at hs ⊢
  obtain ⟨hl, ha, -⟩ := hs
  rw [addresses_append, addresses_cons, List.nodup_middle, List.nodup_cons] at hn
  have hal : a ∉ addresses ls := fun h => hn.1 (List.mem_append_left _ h)
  exact ⟨hl.map_of_not_mem hal, by rw [map_self, ha]; rfl, trivial⟩

/-- The first node is pointed elsewhere. -/
theorem Segment.setPrevious (hs : Segment h q ((a, v) :: rs) p)
    (hn : (addresses ((a, v) :: rs)).Nodup) :
    Segment (h.map a (.setPrevious q')) q' ((a, v) :: rs) p := by
  obtain ⟨ha, hr⟩ := hs
  exact ⟨by rw [map_self, ha]; rfl, hr.map_of_not_mem (List.nodup_cons.mp hn).1⟩

/-- A node of a segment in memory. -/
theorem Segment.node (hs : Segment h q (ls ++ (a, v) :: rs) p) :
    h a = some ⟨v, first rs p, last q ls⟩ :=
  (segment_append.mp hs).2.1

/-- Every address of a segment has a node. -/
theorem Segment.exists_node (hs : Segment h q xs p) (ha : a ∈ addresses xs) :
    ∃ n, h a = some n := by
  obtain ⟨⟨_, v⟩, hx, rfl⟩ := List.mem_map.mp ha
  obtain ⟨ls, rs, rfl⟩ := List.append_of_mem hx
  exact ⟨_, hs.node⟩

/-! ### Chains -/

/-- A segment between null pointers, which starts at a pointer. -/
structure IsChain (h : NodeHeap α) (p : UInt32) (xs : Nodes α) : Prop where
  segment : Segment h 0 xs 0
  start : p = first xs 0
  nodup : (addresses xs).Nodup
  nonzero : 0 ∉ addresses xs

/-- A chain with the variables of a list. -/
structure IsList (h : NodeHeap α) (l : ListVars) (xs : Nodes α) : Prop
    extends IsChain h l.head xs where
  tail : l.tail = last 0 xs
  count : l.count = UInt16.ofNat xs.length

/-- Different addresses other than zero are fewer than there are addresses. -/
theorem length_lt_of_nodup (hn : (addresses xs).Nodup) (hz : 0 ∉ addresses xs) :
    xs.length < FUEL := by
  have hnat : ((addresses xs).map UInt32.toNat).Nodup :=
    hn.map fun _ _ heq => UInt32.toNat_inj.mp heq
  have hsub : ((addresses xs).map UInt32.toNat).toFinset ⊆ Finset.Ioo 0 (2 ^ 32) := by
    intro n hmem
    obtain ⟨a, ha, rfl⟩ := List.mem_map.mp (List.mem_toFinset.mp hmem)
    have hne : a.toNat ≠ 0 := fun h0 => hz ((UInt32.toNat_inj.mp h0 : a = 0) ▸ ha)
    exact Finset.mem_Ioo.mpr ⟨by omega, a.toNat_lt⟩
  have hcard := Finset.card_le_card hsub
  rw [List.toFinset_card_of_nodup hnat, Nat.card_Ioo] at hcard
  simp only [addresses, List.length_map] at hcard
  rw [FUEL]
  omega

/-- A chain fits its walks. -/
theorem IsChain.length_lt (hc : IsChain h p xs) : xs.length < FUEL :=
  length_lt_of_nodup hc.nodup hc.nonzero

/-- The first node of a chain that is not empty is not null. -/
theorem IsChain.eq_nil_iff (hc : IsChain h p xs) : p = 0 ↔ xs = [] := by
  constructor
  · intro h0
    by_contra hne
    exact hc.nonzero (h0 ▸ hc.start ▸ first_mem hne)
  · rintro rfl
    exact hc.start

/-- A chain is the same in a memory that has the same nodes at its addresses. -/
theorem IsChain.congr (hc : IsChain h p xs) (hh : ∀ b ∈ addresses xs, h' b = h b) :
    IsChain h' p xs :=
  ⟨hc.segment.congr hh, hc.start, hc.nodup, hc.nonzero⟩

/-- The empty chain. -/
theorem isChain_nil : IsChain h 0 ([] : Nodes α) := ⟨trivial, rfl, List.nodup_nil, by simp⟩

/-- The empty list. -/
theorem isList_nil : IsList h ⟨0, 0, 0⟩ ([] : Nodes α) := ⟨isChain_nil, rfl, rfl⟩

/-- A list is the same in a memory that has the same nodes at its addresses. -/
theorem IsList.congr (hl : IsList h l xs) (hh : ∀ b ∈ addresses xs, h' b = h b) :
    IsList h' l xs :=
  ⟨hl.toIsChain.congr hh, hl.tail, hl.count⟩

/-- The value of a node of a list is changed in its place. -/
theorem IsList.map_value {g : α → α} (hl : IsList h l (ls ++ (a, v) :: rs)) :
    IsList (h.map a (.mapValue g)) l (ls ++ (a, g v) :: rs) := by
  refine ⟨⟨hl.segment.map_value hl.nodup, ?_, ?_, ?_⟩, ?_, ?_⟩
  · simpa using hl.start
  · simpa using hl.nodup
  · simpa using hl.nonzero
  · simpa using hl.tail
  · simpa using hl.count

/-- A node behind a chain makes a longer one, if the last node points at it. -/
theorem IsChain.snoc (hc : IsChain h p xs) (ha : a ∉ addresses xs) (hz : a ≠ 0)
    (hnode : h a = some ⟨v, 0, last 0 xs⟩) (hp : p' = first xs a) :
    IsChain (h.map (last 0 xs) (.setNext a)) p' (xs ++ [(a, v)]) := by
  have hnodup : (addresses (xs ++ [(a, v)])).Nodup := by
    rw [addresses_append, List.nodup_append]
    refine ⟨hc.nodup, List.nodup_singleton a, ?_⟩
    rintro b hb c hmem rfl
    obtain rfl := List.mem_singleton.mp hmem
    exact ha hb
  refine ⟨?_, by simpa using hp, hnodup, ?_⟩
  · rw [segment_append]
    rcases List.eq_nil_or_concat' xs with rfl | ⟨ys, ⟨b, w⟩, rfl⟩
    · refine ⟨trivial, ?_, trivial⟩
      rw [map_of_ne (by simpa using hz), hnode]
      rfl
    · have hb : last 0 (ys ++ [(b, w)]) = b := by simp
      rw [hb] at hnode ⊢
      refine ⟨hc.segment.setNext hc.nodup, ?_, trivial⟩
      rw [map_of_ne, hnode]
      · rfl
      · rintro rfl
        exact ha (by simp)
  · simpa [addresses] using ⟨by simpa [addresses] using hc.nonzero, hz.symm⟩

/-- A list whose value at an address, if it is there, is changed. -/
def changeAt (p : UInt32) (g : α → α) (xs : Nodes α) : Nodes α :=
  xs.map fun x => if x.1 = p then (x.1, g x.2) else x

@[simp] theorem addresses_changeAt {g : α → α} : addresses (changeAt p g xs) = addresses xs := by
  rw [addresses, changeAt, List.map_map]
  refine List.map_congr_left fun x _ => ?_
  rw [Function.comp_apply]
  split <;> rfl

/-- Elsewhere nothing is changed. -/
theorem changeAt_of_not_mem {g : α → α} (hp : p ∉ addresses xs) : changeAt p g xs = xs := by
  rw [changeAt, List.map_congr_left, List.map_id]
  intro x hx
  refine if_neg ?_
  rintro rfl
  exact hp (List.mem_map_of_mem hx)

/-- **Changing the value of a node changes the value in the list**, if the node is one of it. -/
theorem IsList.changeAt {g : α → α} (hl : IsList h l xs) :
    IsList (h.map p (.mapValue g)) l (changeAt p g xs) := by
  by_cases hp : p ∈ addresses xs
  · obtain ⟨⟨p, v⟩, hx, rfl⟩ := List.mem_map.mp hp
    obtain ⟨ls, rs, rfl⟩ := List.append_of_mem hx
    have hn := hl.nodup
    rw [addresses_append, addresses_cons, List.nodup_middle, List.nodup_cons] at hn
    have hls : LinkedList.changeAt p g ls = ls :=
      changeAt_of_not_mem fun h => hn.1 (List.mem_append_left _ h)
    have hrs : LinkedList.changeAt p g rs = rs :=
      changeAt_of_not_mem fun h => hn.1 (List.mem_append_right _ h)
    have hsplit : LinkedList.changeAt p g (ls ++ (p, v) :: rs) = ls ++ (p, g v) :: rs := by
      rw [LinkedList.changeAt, List.map_append, List.map_cons, if_pos rfl]
      exact congrArg₂ _ hls (congrArg _ hrs)
    rw [hsplit]
    exact hl.map_value
  · rw [changeAt_of_not_mem hp]
    exact hl.congr fun b hb => map_of_ne fun heq => hp (heq ▸ hb)

/-- The same, for any memory that differs only in that the last node points at the new one. -/
theorem IsChain.snoc_congr (hc : IsChain h p xs) (ha : a ∉ addresses xs) (hz : a ≠ 0)
    (hnode : h' a = some ⟨v, 0, last 0 xs⟩)
    (hother : ∀ b ∈ addresses xs,
      h' b = if b = last 0 xs then (h b).map (.setNext a) else h b)
    (hp : p' = first xs a) : IsChain h' p' (xs ++ [(a, v)]) := by
  let h₁ : NodeHeap α := Function.update h a (some ⟨v, 0, last 0 xs⟩)
  have hof (b : UInt32) (hb : b ≠ a) : h₁ b = h b := Function.update_of_ne hb (some ⟨v, 0, _⟩) h
  have hc₁ : IsChain h₁ p xs := hc.congr fun b hb => hof b fun heq => ha (heq ▸ hb)
  refine (hc₁.snoc ha hz (Function.update_self ..) hp).congr fun b hb => ?_
  rcases List.mem_append.mp (addresses_append ▸ hb) with hb | hb
  · have hba : b ≠ a := fun heq => ha (heq ▸ hb)
    rw [hother b hb]
    split
    next hlast => rw [← hlast, map_self, hof b hba]
    next hlast => rw [map_of_ne hlast, hof b hba]
  · obtain rfl : b = a := List.mem_singleton.mp hb
    have hbl : b ≠ last 0 xs := by
      by_cases hxs : xs = []
      · subst hxs
        exact hz
      · exact fun heq => ha (heq ▸ last_mem hxs)
    have hself : h₁ b = some ⟨v, 0, last 0 xs⟩ := Function.update_self ..
    rw [hnode, map_of_ne hbl, hself]

/-! ### Attaching and detaching -/

/-- **A new node goes to the end**, and no other node but the last one is changed. -/
theorem append_spec (hl : IsList h l xs) (hnode : h a = some ⟨v, 0, 0⟩) (hz : a ≠ 0)
    (ha : a ∉ addresses xs) :
    ∃ h' l', append h l a = some (h', l') ∧ IsList h' l' (xs ++ [(a, v)]) ∧
      ∀ b, b ∉ a :: addresses xs → h' b = h b := by
  have hcount : l.count + 1 = UInt16.ofNat (xs ++ [(a, v)]).length := by
    rw [hl.count, List.length_append, UInt16.ofNat_add]
    rfl
  have hchain := hl.toIsChain
  rw [append]
  split
  next hne =>
    have hxs : xs ≠ [] := fun hnil => hne (hchain.eq_nil_iff.mpr hnil)
    have hlast : l.tail ∈ addresses xs := hl.tail ▸ last_mem hxs
    have hta : l.tail ≠ a := fun heq => ha (heq ▸ hlast)
    obtain ⟨n, htail⟩ := hchain.segment.exists_node hlast
    have hc₁ : IsChain (h.map a (.setPrevious l.tail)) l.head xs :=
      hchain.congr fun b hb => map_of_ne fun heq => ha (heq ▸ hb)
    have hnode₁ : h.map a (.setPrevious l.tail) a = some ⟨v, 0, last 0 xs⟩ := by
      rw [map_self, hnode, ← hl.tail]
      rfl
    have hmod : (h.map a (.setPrevious l.tail)).modify l.tail (.setNext a) =
        some ((h.map a (.setPrevious l.tail)).map l.tail (.setNext a)) :=
      modify_eq ((map_of_ne hta).trans htail)
    simp only [modify_eq hnode, hmod, Option.bind_eq_bind, Option.bind_some]
    refine ⟨_, _, rfl, ⟨?_, by simp, hcount⟩, fun b hb => ?_⟩
    · rw [hl.tail]
      rw [hl.tail] at hc₁ hnode₁
      refine hc₁.snoc ha hz hnode₁ ?_
      rw [hchain.start]
      cases xs with
      | nil => exact absurd rfl hxs
      | cons x xs => rfl
    · obtain ⟨hba, hbx⟩ := not_or.mp (List.mem_cons.not.mp hb)
      rw [map_of_ne fun heq : b = l.tail => hbx (heq ▸ hlast), map_of_ne hba]
  next hzero =>
    obtain rfl := hchain.eq_nil_iff.mp (not_not.mp hzero)
    exact ⟨_, _, rfl, ⟨⟨⟨hnode, trivial⟩, rfl, List.nodup_singleton a, by simpa using hz.symm⟩,
      rfl, hcount⟩, fun _ _ => rfl⟩

/-- Taking a node out of a chain leaves different addresses other than zero. -/
theorem IsChain.erase (hc : IsChain h p (ls ++ (a, v) :: rs)) :
    a ∉ addresses ls ∧ a ∉ addresses rs ∧ (addresses (ls ++ rs)).Nodup ∧
      0 ∉ addresses (ls ++ rs) := by
  have hn := hc.nodup
  have hz := hc.nonzero
  simp only [addresses_append, addresses_cons, List.nodup_middle, List.nodup_cons,
    List.mem_append, List.mem_cons, not_or] at hn hz ⊢
  exact ⟨hn.1.1, hn.1.2, hn.2, hz.1, hz.2.2⟩

/-- **The first of several nodes is taken out.** -/
theorem unlink_head (hl : IsList h l ((a, v) :: rs)) (hc : l.count ≠ 1) :
    ∃ h' l', unlink h l a = some (h', l') ∧ IsChain h' l'.head rs ∧ l'.tail = last 0 rs ∧
      l'.count = l.count ∧ h' a = h a ∧ ∀ b, b ∉ addresses rs → h' b = h b := by
  have hchain := hl.toIsChain
  have hhead : l.head = a := hchain.start
  have hchain₀ : IsChain h l.head ([] ++ (a, v) :: rs) := hchain
  obtain ⟨-, har, hnodup, hzero⟩ := hchain₀.erase
  cases rs with
  | nil => exact absurd hl.count hc
  | cons c rs =>
      obtain ⟨c, u⟩ := c
      have hnode : h a = some ⟨v, c, 0⟩ := hchain.segment.1
      have hseg : Segment h a ((c, u) :: rs) 0 := hchain.segment.2
      have hmod : h.modify c (.setPrevious 0) = some (h.map c (.setPrevious 0)) :=
        modify_eq hseg.1
      refine ⟨h.map c (.setPrevious 0), { l with head := c }, ?_,
        ⟨hseg.setPrevious hnodup, rfl, hnodup, hzero⟩, ?_, rfl, ?_, fun b hb => ?_⟩
      · simp [unlink, hhead, hc, hnode, hmod]
      · exact hl.tail
      · exact map_of_ne (by rintro rfl; simp at har)
      · exact map_of_ne (by rintro rfl; simp at hb)

/-- A node that is not the first is not at the head. -/
theorem IsChain.ne_head (hc : IsChain h p (ls ++ (a, v) :: rs)) (hne : ls ≠ []) : a ≠ p := by
  obtain ⟨hal, -⟩ := hc.erase
  rintro rfl
  refine hal ?_
  rw [hc.start, first_append]
  exact first_mem hne

/-- **The last node, behind others, is taken out.** -/
theorem unlink_tail (hl : IsList h l (ls ++ [(a, v)])) (hne : ls ≠ []) :
    ∃ h' l', unlink h l a = some (h', l') ∧ IsChain h' l'.head ls ∧ l'.tail = last 0 ls ∧
      l'.count = l.count ∧ h' a = h a ∧ ∀ b, b ∉ addresses ls → h' b = h b := by
  have hchain := hl.toIsChain
  have hhead : a ≠ l.head := hchain.ne_head hne
  have htail : l.tail = a := hl.tail.trans (by simp)
  obtain ⟨hal, -, hnodup, hzero⟩ := hchain.erase
  rw [List.append_nil] at hnodup hzero
  obtain ⟨hseg, hnode, -⟩ := segment_append.mp hchain.segment
  have hlast : last 0 ls ∈ addresses ls := last_mem hne
  obtain ⟨n, hn⟩ := hseg.exists_node hlast
  have hla : last 0 ls ≠ a := fun heq => hal (heq ▸ hlast)
  have hmod : h.modify (last 0 ls) (.setNext 0) = some (h.map (last 0 ls) (.setNext 0)) :=
    modify_eq hn
  refine ⟨h.map (last 0 ls) (.setNext 0), { l with tail := last 0 ls }, ?_,
    ⟨?_, ?_, hnodup, hzero⟩, rfl, rfl, map_of_ne hla.symm, fun b hb => ?_⟩
  · simp [unlink, hhead, htail, hnode, hmod]
  · rcases List.eq_nil_or_concat' ls with rfl | ⟨ys, ⟨b, w⟩, rfl⟩
    · exact absurd rfl hne
    · have hb : last 0 (ys ++ [(b, w)]) = b := by simp
      rw [hb]
      exact hseg.setNext hnodup
  · rw [hchain.start, first_append]
    cases ls with
    | nil => exact absurd rfl hne
    | cons x ls => rfl
  · exact map_of_ne fun heq : b = last 0 ls => hb (heq ▸ hlast)

/-- **A node between others is taken out.** -/
theorem unlink_middle (hl : IsList h l (ls ++ (a, v) :: rs)) (hls : ls ≠ []) (hrs : rs ≠ []) :
    ∃ h' l', unlink h l a = some (h', l') ∧ IsChain h' l'.head (ls ++ rs) ∧
      l'.tail = last 0 (ls ++ rs) ∧ l'.count = l.count ∧ h' a = h a ∧
      ∀ b, b ∉ addresses (ls ++ rs) → h' b = h b := by
  have hchain := hl.toIsChain
  obtain ⟨hal, har, hnodup, hzero⟩ := hchain.erase
  have hhead : a ≠ l.head := hchain.ne_head hls
  obtain ⟨hseg, hnode, hrest⟩ := segment_append.mp hchain.segment
  cases rs with
  | nil => exact absurd rfl hrs
  | cons c rs =>
      obtain ⟨c, u⟩ := c
      have htail : a ≠ l.tail := by
        have hlast : last c rs ∈ addresses ((c, u) :: rs) :=
          last_mem (q := 0) (List.cons_ne_nil (c, u) rs)
        rintro rfl
        refine har ?_
        have heq := hl.tail
        simp only [last_append, last_cons] at heq
        rwa [heq]
      have hlast : last 0 ls ∈ addresses ls := last_mem hls
      obtain ⟨n, hn⟩ := hseg.exists_node hlast
      have hla : a ≠ last 0 ls := fun heq => hal (heq ▸ hlast)
      have hca : a ≠ c := by
        rintro rfl
        simp at har
      have hcl : c ∉ addresses ls := by
        rw [addresses_append, addresses_cons, List.nodup_middle, List.nodup_cons] at hnodup
        exact fun h => hnodup.1 (List.mem_append_left _ h)
      have hmod : h.modify (last 0 ls) (.setNext c) = some (h.map (last 0 ls) (.setNext c)) :=
        modify_eq hn
      have hnode' : h.map (last 0 ls) (.setNext c) a = some ⟨v, c, last 0 ls⟩ :=
        (map_of_ne hla).trans hnode
      have hseg' : Segment (h.map (last 0 ls) (.setNext c)) 0 ls c := by
        rcases List.eq_nil_or_concat' ls with rfl | ⟨ys, ⟨b, w⟩, rfl⟩
        · exact absurd rfl hls
        · have hb : last 0 (ys ++ [(b, w)]) = b := by simp
          rw [hb]
          rw [addresses_append, List.nodup_append] at hnodup
          exact hseg.setNext hnodup.1
      have hrest' : Segment (h.map (last 0 ls) (.setNext c)) a ((c, u) :: rs) 0 := by
        refine hrest.map_of_not_mem fun hmem => ?_
        rw [addresses_append, List.nodup_append] at hnodup
        exact hnodup.2.2 _ hlast _ hmem rfl
      have hmod' : (h.map (last 0 ls) (.setNext c)).modify c (.setPrevious (last 0 ls)) =
          some ((h.map (last 0 ls) (.setNext c)).map c (.setPrevious (last 0 ls))) :=
        modify_eq hrest'.1
      refine ⟨(h.map (last 0 ls) (.setNext c)).map c (.setPrevious (last 0 ls)), l, ?_,
        ⟨?_, ?_, hnodup, hzero⟩, ?_, rfl, ?_, fun b hb => ?_⟩
      · simp [unlink, hhead, htail, hnode, hmod, hnode', hmod']
      · rw [addresses_append, List.nodup_append] at hnodup
        rw [segment_append]
        exact ⟨hseg'.map_of_not_mem hcl, hrest'.setPrevious hnodup.2.1⟩
      · rw [hchain.start, first_append, first_append]
        cases ls with
        | nil => exact absurd rfl hls
        | cons x ls => rfl
      · rw [hl.tail]
        simp
      · rw [map_of_ne hca, map_of_ne hla]
      · rw [map_of_ne fun heq : b = c => hb (by simp [heq]),
          map_of_ne fun heq : b = last 0 ls => hb (by simp [heq, hlast])]

/-- **A node is taken out from wherever it stands** in a list whose counter is right where it
is one. The node is not changed, and nothing outside the list is. -/
theorem unlink_spec (hl : IsList h l (ls ++ (a, v) :: rs))
    (hc : l.count = 1 → ls = [] → rs = []) :
    ∃ h' l', unlink h l a = some (h', l') ∧
      IsList h' { l' with count := l'.count - 1 } (ls ++ rs) ∧ h' a = h a ∧
      ∀ b, b ∉ addresses (ls ++ rs) → h' b = h b := by
  have hcount : l.count - 1 = UInt16.ofNat (ls ++ rs).length := by
    rw [hl.count, List.length_append, List.length_append, List.length_cons, ← Nat.add_assoc,
      UInt16.ofNat_add (_ + _)]
    exact add_sub_cancel_right _ _
  obtain ⟨h', l', hunlink, hchain, htail, hcount', hself, hframe⟩ : ∃ h' l',
      unlink h l a = some (h', l') ∧ IsChain h' l'.head (ls ++ rs) ∧
        l'.tail = last 0 (ls ++ rs) ∧ l'.count = l.count ∧ h' a = h a ∧
        ∀ b, b ∉ addresses (ls ++ rs) → h' b = h b := by
    by_cases hls : ls = []
    · subst hls
      by_cases hone : l.count = 1
      · obtain rfl := hc hone rfl
        have hhead : a = l.head := hl.start.symm
        exact ⟨h, { l with head := 0, tail := 0 }, by rw [unlink, if_pos hhead, if_pos hone]; rfl,
          isChain_nil, rfl, rfl, rfl, fun _ _ => rfl⟩
      · exact unlink_head hl hone
    · by_cases hrs : rs = []
      · subst hrs
        rw [List.append_nil]
        exact unlink_tail hl hls
      · exact unlink_middle hl hls hrs
  exact ⟨h', l', hunlink, ⟨hchain, htail, by rw [hcount', hcount]⟩, hself, hframe⟩

/-- Where the counter has wrapped round to one, taking out the first node empties the list and
leaves the others behind. -/
theorem unlink_wrapped (hl : IsList h l ((a, v) :: rs)) (hc : l.count = 1) :
    unlink h l a = some (h, { l with head := 0, tail := 0 }) := by
  have hhead : a = l.head := hl.start.symm
  rw [unlink, if_pos hhead, if_pos hc]
  rfl

/-! ### Walking -/

/-- **A walk finds the first node with a property.** -/
theorem find_spec {f : α → Bool} {fuel : ℕ} (hs : Segment h q xs 0) (hz : 0 ∉ addresses xs)
    (hfuel : xs.length < fuel) :
    find fuel h f (first xs 0) = some (first (xs.dropWhile fun x => !f x.2) 0) := by
  induction xs generalizing q fuel with
  | nil =>
      obtain ⟨fuel, rfl⟩ := Nat.exists_eq_succ_of_ne_zero (Nat.ne_of_gt hfuel)
      rfl
  | cons x xs ih =>
      obtain ⟨a, v⟩ := x
      obtain ⟨fuel, rfl⟩ := Nat.exists_eq_succ_of_ne_zero (Nat.ne_of_gt (Nat.zero_lt_of_lt hfuel))
      have ha : a ≠ 0 := fun h0 => hz (by simp [h0])
      obtain ⟨hnode, hrest⟩ := hs
      rw [first_cons, find, if_neg ha, hnode, Option.bind_some, List.dropWhile_cons]
      have hfind := ih hrest (fun h => hz (List.mem_cons_of_mem _ h))
        (Nat.lt_of_succ_lt_succ hfuel)
      cases hf : f v with
      | true => simp
      | false => simpa using hfind

/-- A walk ends at the last node. -/
theorem findLast_spec {fuel : ℕ} (hs : Segment h q xs 0) (hz : 0 ∉ addresses xs)
    (hfuel : xs.length < fuel) : findLast fuel h b (first xs 0) = some (last b xs) := by
  induction xs generalizing q b fuel with
  | nil =>
      obtain ⟨fuel, rfl⟩ := Nat.exists_eq_succ_of_ne_zero (Nat.ne_of_gt hfuel)
      rfl
  | cons x xs ih =>
      obtain ⟨a, v⟩ := x
      obtain ⟨fuel, rfl⟩ := Nat.exists_eq_succ_of_ne_zero (Nat.ne_of_gt (Nat.zero_lt_of_lt hfuel))
      have ha : a ≠ 0 := fun h0 => hz (by simp [h0])
      obtain ⟨hnode, hrest⟩ := hs
      rw [first_cons, findLast, if_neg ha, hnode, Option.bind_some]
      exact ih hrest (fun h => hz (List.mem_cons_of_mem _ h)) (Nat.lt_of_succ_lt_succ hfuel)

/-- A walk meets the values of a chain. -/
theorem values_spec {fuel : ℕ} (hs : Segment h q xs 0) (hz : 0 ∉ addresses xs)
    (hfuel : xs.length < fuel) : values fuel h (first xs 0) = some (xs.map Prod.snd) := by
  induction xs generalizing q fuel with
  | nil =>
      obtain ⟨fuel, rfl⟩ := Nat.exists_eq_succ_of_ne_zero (Nat.ne_of_gt hfuel)
      rfl
  | cons x xs ih =>
      obtain ⟨a, v⟩ := x
      obtain ⟨fuel, rfl⟩ := Nat.exists_eq_succ_of_ne_zero (Nat.ne_of_gt (Nat.zero_lt_of_lt hfuel))
      have ha : a ≠ 0 := fun h0 => hz (by simp [h0])
      obtain ⟨hnode, hrest⟩ := hs
      rw [first_cons, values, if_neg ha, hnode, Option.bind_some,
        ih hrest (fun h => hz (List.mem_cons_of_mem _ h)) (Nat.lt_of_succ_lt_succ hfuel)]
      rfl

/-! ### Walks -/

/-- Addresses of nodes each of which points at the one behind it, and the last one at null. -/
def NextChain (h : NodeHeap α) : List UInt32 → Prop
  | [] => True
  | a :: as => a ≠ 0 ∧ (∃ n, h a = some n ∧ n.next = as.headD 0) ∧ NextChain h as

/-- Nodes of a walk may be changed as long as they point where they did. -/
theorem NextChain.congr {as : List UInt32} (hc : NextChain h as)
    (hh : ∀ a ∈ as, ∀ n, h a = some n → ∃ n', h' a = some n' ∧ n'.next = n.next) :
    NextChain h' as := by
  induction as with
  | nil => trivial
  | cons a as ih =>
      obtain ⟨ha, ⟨n, hn, hnext⟩, hc⟩ := hc
      obtain ⟨n', hn', hnext'⟩ := hh a List.mem_cons_self n hn
      exact ⟨ha, ⟨n', hn', hnext'.trans hnext⟩, ih hc fun b hb => hh b (List.mem_cons_of_mem _ hb)⟩

/-- Nodes that have not been touched are walked over as before. -/
theorem NextChain.keep {as : List UInt32} (hc : NextChain h as) (hh : ∀ a ∈ as, h' a = h a) :
    NextChain h' as :=
  hc.congr fun a ha n hn => ⟨n, (hh a ha).trans hn, rfl⟩

/-- A node whose value is changed points where it did. -/
theorem NextChain.map_value {as : List UInt32} {g : α → α} (hc : NextChain h as) :
    NextChain (h.map p (.mapValue g)) as := by
  refine hc.congr fun a ha n hn => ?_
  by_cases hap : a = p
  · subst hap
    exact ⟨n.mapValue g, by rw [map_self, hn]; rfl, rfl⟩
  · exact ⟨n, (map_of_ne hap).trans hn, rfl⟩

/-- A walk may start further behind. -/
theorem NextChain.suffix {as bs : List UInt32} (hc : NextChain h bs) (hs : as <:+ bs) :
    NextChain h as := by
  obtain ⟨cs, rfl⟩ := hs
  induction cs with
  | nil => exact hc
  | cons c cs ih => exact ih hc.2.2

/-- Every node of a walk is there. -/
theorem NextChain.exists_node {as : List UInt32} (hc : NextChain h as) (ha : a ∈ as) :
    ∃ n, h a = some n := by
  induction as with
  | nil => cases ha
  | cons b as ih =>
      rcases List.mem_cons.mp ha with rfl | ha
      · exact ⟨_, hc.2.1.choose_spec.1⟩
      · exact ih hc.2.2 ha

/-- A segment in front of null is walked over. -/
theorem Segment.nextChain (hs : Segment h q xs 0) (hz : 0 ∉ addresses xs) :
    NextChain h (addresses xs) := by
  induction xs generalizing q with
  | nil => trivial
  | cons x xs ih =>
      obtain ⟨a, v⟩ := x
      obtain ⟨hnode, hs⟩ := hs
      refine ⟨fun ha => hz (ha ▸ List.mem_cons_self), ⟨_, hnode, ?_⟩,
        ih hs fun hmem => hz (List.mem_cons_of_mem _ hmem)⟩
      cases xs <;> rfl

end LinkedList

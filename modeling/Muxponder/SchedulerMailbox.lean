import Muxponder.SchedulerTable

/-!
# The Mailbox of the Scheduler

A message is sent to a handle. It waits in the mailbox until the task with that handle is
dispatched, and is then moved behind the messages that the task has not flushed.

A `MailTable` is a table of tasks with the list of messages that waits in the mailbox and those
that the tasks have, no message being in two of them.

## Main results

* `extractLoop_spec`: the messages of one destination are moved in their order, from wherever
  they stand in the mailbox.
* `MailTable.dispatch`, `MailTable.flush`, `MailTable.delete`, `MailTable.send`: the messages
  behind each function that moves some.
-/

namespace Muxponder

open LinkedList Memory

variable {h h' : NodeHeap TaskMsg} {mbox : ListVars} {mail kept rest ys : Nodes TaskMsg}
  {p q a b hd tl scnr : UInt32} {m : TaskMsg} {dst hndl : UInt16}

/-! ### Moving messages -/

/-- **A node goes behind the tail of a list.** -/
theorem attachMsg_spec {n : ListNode TaskMsg} (hc : IsChain h hd ys) (htail : tl = last 0 ys)
    (ha : a ∉ addresses ys) (hz : a ≠ 0) (hnode : h a = some n) :
    ∃ h' hd', attachMsg h hd tl a = some (h', hd', a) ∧ IsChain h' hd' (ys ++ [(a, n.value)]) ∧
      ∀ b, b ∉ a :: addresses ys → h' b = h b := by
  let h₁ := (h.map a (.setNext 0)).map a (.setPrevious 0)
  have h₁a : h₁ a = some ⟨n.value, 0, 0⟩ := by simp [h₁, hnode]
  have h₁of (b : UInt32) (hb : b ≠ a) : h₁ b = h b :=
    (map_of_ne hb).trans (map_of_ne hb)
  have hmod₁ : h.modify a (.setNext 0) = some (h.map a (.setNext 0)) := modify_eq hnode
  have hmod₂ : (h.map a (.setNext 0)).modify a (.setPrevious 0) = some h₁ :=
    modify_eq (n := ⟨n.value, 0, n.previous⟩) (by simp [hnode])
  by_cases hys : ys = []
  · subst hys
    obtain rfl : hd = 0 := hc.start
    have hmod₃ : h₁.modify a (.setNext 0) = some (h₁.map a (.setNext 0)) := modify_eq h₁a
    refine ⟨h₁.map a (.setNext 0), a, ?_, ⟨⟨?_, trivial⟩, rfl, List.nodup_singleton a, ?_⟩,
      fun b hb => ?_⟩
    · simp [attachMsg, hmod₁, hmod₂, hmod₃]
    · rw [map_self, h₁a]
      rfl
    · simpa using hz.symm
    · have hba : b ≠ a := by simpa using hb
      rw [map_of_ne hba, h₁of b hba]
  · have hhd : hd ≠ 0 := fun h0 => hys (hc.eq_nil_iff.mp h0)
    have hlast : last 0 ys ∈ addresses ys := last_mem hys
    have hta : tl ≠ a := fun heq => ha (heq ▸ htail ▸ hlast)
    obtain ⟨t, ht⟩ := hc.segment.exists_node hlast
    rw [← htail] at ht
    have hmod₃ : h₁.modify tl (.setNext a) = some (h₁.map tl (.setNext a)) :=
      modify_eq ((h₁of tl hta).trans ht)
    let h₂ := (h₁.map tl (.setNext a)).map a (.setPrevious tl)
    have hmod₄ : (h₁.map tl (.setNext a)).modify a (.setPrevious tl) = some h₂ :=
      modify_eq ((map_of_ne hta.symm).trans h₁a)
    have h₂t : h₂ tl = some { t with next := a } := by
      refine (map_of_ne hta).trans ?_
      rw [map_self, h₁of tl hta, ht]
      rfl
    have h₂a : h₂ a = some ⟨n.value, 0, tl⟩ := by
      refine map_self.trans ?_
      rw [map_of_ne hta.symm, h₁a]
      rfl
    have hmod₅ : h₂.modify a (.setNext 0) = some (h₂.map a (.setNext 0)) := modify_eq h₂a
    refine ⟨h₂.map a (.setNext 0), hd, ?_, hc.snoc_congr ha hz ?_ (fun b hb => ?_) ?_,
      fun b hb => ?_⟩
    · simp [attachMsg, hmod₁, hmod₂, hhd, hmod₃, hmod₄, h₂t, hmod₅]
    · rw [map_self, h₂a, htail]
      rfl
    · have hba : b ≠ a := fun heq => ha (heq ▸ hb)
      rw [map_of_ne hba, ← htail]
      refine (map_of_ne hba).trans ?_
      split
      next hbt => rw [hbt, map_self, h₁of tl hta]
      next hbt => rw [map_of_ne hbt, h₁of b hba]
    · rw [hc.start]
      cases ys with
      | nil => exact absurd rfl hys
      | cons y ys => rfl
    · obtain ⟨hba, hby⟩ := not_or.mp (List.mem_cons.not.mp hb)
      have hbt : b ≠ tl := fun heq => hby (heq ▸ htail ▸ hlast)
      rw [map_of_ne hba]
      refine (map_of_ne hba).trans ?_
      rw [map_of_ne hbt, h₁of b hba]

/-- The messages of a list that are for a destination. -/
def forDst (dst : UInt16) (xs : Nodes TaskMsg) : Nodes TaskMsg :=
  xs.filter fun x => x.2.sTaskDstHndl = dst

/-- The messages of a list that are not for a destination. -/
def notForDst (dst : UInt16) (xs : Nodes TaskMsg) : Nodes TaskMsg :=
  xs.filter fun x => x.2.sTaskDstHndl ≠ dst

/-- A counter of zero is that of an empty mailbox, whose tail is null. -/
theorem isList_tail (hl : IsList h mbox mail) (hlen : mail.length < 2 ^ 16) :
    IsList h (if mbox.count = 0 then { mbox with tail := 0 } else mbox) mail := by
  split
  next hzero =>
    have hcount := congrArg UInt16.toNat (hl.count.symm.trans hzero)
    rw [UInt16.toNat_ofNat_of_lt' hlen] at hcount
    obtain rfl := List.length_eq_zero_iff.mp hcount
    exact ⟨hl.toIsChain, rfl, hl.count⟩
  next => exact hl

/-- **The messages of one destination are moved in their order**, from wherever they stand
behind those that have been passed over. -/
theorem extractLoop_spec {fuel : ℕ} (dst : UInt16) (hl : IsList h mbox (kept ++ rest))
    (hlen : (kept ++ rest).length < 2 ^ 16) (hc : IsChain h hd ys) (htail : tl = last 0 ys)
    (hdisj : ∀ a ∈ addresses (kept ++ rest), a ∉ addresses ys) (hscnr : scnr = first rest 0)
    (hfuel : rest.length < fuel) :
    ∃ h' mbox' hd', extractLoop dst fuel h mbox hd tl scnr = some (h', mbox', hd') ∧
      IsList h' mbox' (kept ++ notForDst dst rest) ∧
      IsChain h' hd' (ys ++ forDst dst rest) ∧
      ∀ b, b ∉ addresses (kept ++ rest) → b ∉ addresses ys → h' b = h b := by
  induction rest generalizing fuel h mbox kept ys hd tl scnr with
  | nil =>
      obtain ⟨fuel, rfl⟩ := Nat.exists_eq_succ_of_ne_zero (Nat.ne_of_gt hfuel)
      obtain rfl : scnr = 0 := hscnr
      refine ⟨h, mbox, hd, rfl, hl, ?_, fun _ _ _ => rfl⟩
      simpa [forDst] using hc
  | cons x rest ih =>
      obtain ⟨a, m⟩ := x
      obtain ⟨fuel, rfl⟩ := Nat.exists_eq_succ_of_ne_zero (Nat.ne_of_gt (Nat.zero_lt_of_lt hfuel))
      obtain rfl : scnr = a := hscnr
      have hfuel' : rest.length < fuel := Nat.lt_of_succ_lt_succ hfuel
      have ha : scnr ≠ 0 := by
        rintro rfl
        exact hl.nonzero (by simp)
      have hnode : h scnr = some ⟨m, first rest 0, last 0 kept⟩ := hl.segment.node
      by_cases hdst : m.sTaskDstHndl = dst
      · have hone : mbox.count = 1 → kept = [] → rest = [] := by
          intro hcount _
          have hnat := congrArg UInt16.toNat (hl.count.symm.trans hcount)
          rw [UInt16.toNat_ofNat_of_lt' hlen, List.length_append, List.length_cons] at hnat
          change _ = 1 at hnat
          exact List.length_eq_zero_iff.mp (by omega)
        obtain ⟨h₁, mbox₁, hunlink, hl₁, hself, hframe₁⟩ := unlink_spec hl hone
        obtain ⟨hak, har, -⟩ := hl.toIsChain.erase
        have hays : scnr ∉ addresses ys := hdisj scnr (by simp)
        have hsub : ∀ b ∈ addresses (kept ++ rest), b ∈ addresses (kept ++ (scnr, m) :: rest) := by
          intro b hb
          simp only [addresses_append, addresses_cons, List.mem_append, List.mem_cons] at hb ⊢
          rcases hb with hb | hb
          · exact Or.inl hb
          · exact Or.inr (Or.inr hb)
        have hc₁ : IsChain h₁ hd ys := hc.congr fun b hb => hframe₁ b fun hmem =>
          hdisj b (hsub b hmem) hb
        obtain ⟨h₂, hd₂, hattach, hc₂, hframe₂⟩ :=
          attachMsg_spec hc₁ htail hays ha (hself.trans hnode)
        have hnotin : ∀ b ∈ addresses (kept ++ rest), b ∉ scnr :: addresses ys := by
          intro b hb hmem
          rcases List.mem_cons.mp hmem with rfl | hmem
          · rw [addresses_append] at hb
            exact (List.mem_append.mp hb).elim hak har
          · exact hdisj b (hsub b hb) hmem
        have hlen' : (kept ++ rest).length < 2 ^ 16 := by
          simp only [List.length_append, List.length_cons] at hlen ⊢
          omega
        have hl₂ := isList_tail (hl₁.congr fun b hb => hframe₂ b (hnotin b hb)) hlen'
        have htail₂ : scnr = last 0 (ys ++ [(scnr, m)]) := by simp
        obtain ⟨h', mbox', hd', hloop, hl', hc', hframe'⟩ := ih hl₂ hlen' hc₂ htail₂
          (fun b hb hmem => hnotin b hb (by
            simp only [addresses_append, addresses_cons, addresses_nil, List.mem_append,
              List.mem_singleton] at hmem
            rcases hmem with hmem | rfl
            · exact List.mem_cons_of_mem _ hmem
            · exact List.mem_cons_self)) rfl hfuel'
        refine ⟨h', mbox', hd', ?_, ?_, ?_, fun b hb hbys => ?_⟩
        · rw [extractLoop, if_neg ha, hnode]
          simp only [Option.bind_eq_bind, Option.bind_some, if_pos hdst, hunlink, hself, hnode,
            hattach]
          exact hloop
        · simpa [notForDst, hdst] using hl'
        · simpa [forDst, hdst] using hc'
        · have hba : b ≠ scnr := fun heq => hb (by simp [heq])
          have hbr : b ∉ addresses (kept ++ rest) := fun hmem => hb (hsub b hmem)
          rw [hframe' b hbr (by simpa using ⟨hbys, hba⟩),
            hframe₂ b (by simpa using ⟨hba, hbys⟩), hframe₁ b hbr]
      · have hassoc : kept ++ (scnr, m) :: rest = kept ++ [(scnr, m)] ++ rest := by simp
        rw [hassoc] at hl hlen hdisj
        obtain ⟨h', mbox', hd', hloop, hl', hc', hframe'⟩ :=
          ih hl hlen hc htail hdisj rfl hfuel'
        refine ⟨h', mbox', hd', ?_, ?_, ?_, ?_⟩
        · rw [extractLoop, if_neg ha, hnode]
          simp only [Option.bind_eq_bind, Option.bind_some, if_neg hdst]
          exact hloop
        · simpa [notForDst, hdst] using hl'
        · simpa [forDst, hdst] using hc'
        · rw [hassoc]
          exact hframe'

/-- **Extracting moves the messages of a task** from the mailbox behind those of its list, and
changes no other message. -/
theorem sTaskExtractMsg_spec (hl : IsList h mbox mail) (hlen : mail.length < 2 ^ 16)
    (hc : IsChain h hd ys) (hdisj : ∀ a ∈ addresses mail, a ∉ addresses ys) (dst : UInt16) :
    ∃ h' mbox' hd', sTaskExtractMsg h mbox dst hd = some (h', mbox', hd') ∧
      IsList h' mbox' (notForDst dst mail) ∧ IsChain h' hd' (ys ++ forDst dst mail) ∧
      ∀ b, b ∉ addresses mail → b ∉ addresses ys → h' b = h b := by
  have htail : findLast FUEL h 0 hd = some (last 0 ys) := by
    rw [hc.start]
    exact findLast_spec hc.segment hc.nonzero hc.length_lt
  have hl₀ : IsList h mbox ([] ++ mail) := hl
  obtain ⟨h', mbox', hd', hloop, hl', hc', hframe⟩ :=
    extractLoop_spec dst hl₀ hlen hc rfl hdisj hl.start hl.length_lt
  refine ⟨h', mbox', hd', ?_, hl', hc', hframe⟩
  rw [sTaskExtractMsg, htail]
  exact hloop

/-- **Flushing frees the messages of a list** and no other one. -/
theorem sTaskFlushMsgs_spec {fuel : ℕ} (hs : Segment h q ys 0) (hn : (addresses ys).Nodup)
    (hz : 0 ∉ addresses ys) (hfuel : ys.length < fuel) :
    ∃ h', sTaskFlushMsgs fuel h (first ys 0) = some h' ∧
      ∀ b, h' b = if b ∈ addresses ys then none else h b := by
  induction ys generalizing q fuel with
  | nil =>
      obtain ⟨fuel, rfl⟩ := Nat.exists_eq_succ_of_ne_zero (Nat.ne_of_gt hfuel)
      exact ⟨h, rfl, fun b => by simp⟩
  | cons y ys ih =>
      obtain ⟨a, m⟩ := y
      obtain ⟨fuel, rfl⟩ := Nat.exists_eq_succ_of_ne_zero (Nat.ne_of_gt (Nat.zero_lt_of_lt hfuel))
      have ha : a ≠ 0 := fun h0 => hz (by simp [h0])
      rw [addresses_cons, List.nodup_cons] at hn
      obtain ⟨hay, hn⟩ := hn
      obtain ⟨hnode, hrest⟩ := hs
      obtain ⟨h₁, hflush, hh₁⟩ := ih hrest hn (fun h0 => hz (List.mem_cons_of_mem _ h0))
        (Nat.lt_of_succ_lt_succ hfuel)
      have hnode₁ : h₁ a = some ⟨m, first ys 0, q⟩ := by rw [hh₁ a, if_neg hay, hnode]
      have hmod : h₁.modify a (.setNext 0) = some (h₁.map a (.setNext 0)) := modify_eq hnode₁
      have hfree : (h₁.map a (.setNext 0)).free a =
          some (Function.update (h₁.map a (.setNext 0)) a none) := by
        rw [NodeHeap.free, if_pos (by rw [map_self, hnode₁]; rfl)]
      refine ⟨Function.update (h₁.map a (.setNext 0)) a none, ?_, fun b => ?_⟩
      · rw [first_cons, sTaskFlushMsgs, if_neg ha, hnode]
        simp only [Option.bind_eq_bind, Option.bind_some, hflush, hmod, hfree]
      · by_cases hba : b = a
        · subst hba
          simp
        · rw [Function.update_of_ne hba, map_of_ne hba, hh₁ b]
          simp [hba]

/-! ### Tasks with their messages -/

variable {s s' : Scheduler} {xs xs' ls rs : Nodes TaskNode} {v v' : TaskNode}
  {mail' ys' : Nodes TaskMsg} {lists lists' : UInt32 → Nodes TaskMsg} {c : SchedulerCall}
  {r : SchedulerAnswer} {g : TaskNode → TaskNode}

/-- The tasks, the messages in the mailbox and those in the list of each task, by its address. No
message is in two lists. -/
structure MailTable (s : Scheduler) (xs : Nodes TaskNode) (mail : Nodes TaskMsg)
    (lists : UInt32 → Nodes TaskMsg) : Prop extends TaskTable s xs where
  mailbox : IsList s.msgs s.mboxInfo mail
  few : mail.length < 2 ^ 16
  messages : ∀ x ∈ xs, IsChain s.msgs x.2.sTaskMsg (lists x.1)
  apart : ∀ x ∈ xs, ∀ a ∈ addresses mail, a ∉ addresses (lists x.1)
  disjoint : ∀ x ∈ xs, ∀ y ∈ xs, x.1 ≠ y.1 → ∀ a ∈ addresses (lists x.1), a ∉ addresses (lists y.1)

/-- The counter of the mailbox is right. -/
theorem MailTable.count_toNat (ht : MailTable s xs mail lists) :
    s.mboxInfo.count.toNat = mail.length := by
  rw [ht.mailbox.count, UInt16.toNat_ofNat_of_lt' ht.few]

/-- The address of a task is not that of another. -/
theorem MailTable.ne_of_mem (ht : MailTable s (ls ++ (p, v) :: rs) mail lists)
    {x : UInt32 × TaskNode} (hx : x ∈ ls ∨ x ∈ rs) : x.1 ≠ p := by
  obtain ⟨hl, hr, -⟩ := ht.toIsChain.erase
  rintro rfl
  rcases hx with hx | hx
  · exact hl (List.mem_map_of_mem hx)
  · exact hr (List.mem_map_of_mem hx)

/-- The messages of the other tasks are where they were, if only the mailbox and the list of one
task have been changed. -/
theorem MailTable.others (ht : MailTable s (ls ++ (p, v) :: rs) mail lists)
    (hframe : ∀ b, b ∉ addresses mail → b ∉ addresses (lists p) → h' b = s.msgs b)
    {x : UInt32 × TaskNode} (hx : x ∈ ls ∨ x ∈ rs) : IsChain h' x.2.sTaskMsg (lists x.1) := by
  have hmem : x ∈ ls ++ (p, v) :: rs := by
    rcases hx with hx | hx
    · exact List.mem_append_left _ hx
    · exact List.mem_append_right _ (List.mem_cons_of_mem _ hx)
  refine (ht.messages x hmem).congr fun b hb => hframe b (fun hmail => ?_) fun hp => ?_
  · exact ht.apart x hmem b hmail hb
  · exact ht.disjoint x hmem (p, v) (by simp) (ht.ne_of_mem hx) b hb hp

/-- **Replacing a task and its messages**: nothing else is changed, if what becomes of the mailbox
and of the list of the task is made of what was in them. -/
theorem MailTable.replace (ht : MailTable s (ls ++ (p, v) :: rs) mail lists)
    (ht' : TaskTable s' (ls ++ (p, v') :: rs)) (hl' : IsList s'.msgs s'.mboxInfo mail')
    (hc' : IsChain s'.msgs v'.sTaskMsg ys') (hlen : mail'.length ≤ mail.length)
    (hmail : ∀ a ∈ addresses mail', a ∈ addresses mail)
    (hys : ∀ a ∈ addresses ys', a ∈ addresses mail ∨ a ∈ addresses (lists p))
    (hapart : ∀ a ∈ addresses mail', a ∉ addresses ys')
    (hframe : ∀ b, b ∉ addresses mail → b ∉ addresses (lists p) → s'.msgs b = s.msgs b) :
    MailTable s' (ls ++ (p, v') :: rs) mail' (Function.update lists p ys') := by
  have hold : ∀ x, x ∈ ls ∨ x ∈ rs → x ∈ ls ++ (p, v) :: rs := by
    rintro x (hx | hx)
    · exact List.mem_append_left _ hx
    · exact List.mem_append_right _ (List.mem_cons_of_mem _ hx)
  have hcases : ∀ x ∈ ls ++ (p, v') :: rs, x = (p, v') ∨ (x ∈ ls ∨ x ∈ rs) := by
    intro x hx
    rcases List.mem_append.mp hx with hx | hx
    · exact Or.inr (Or.inl hx)
    · exact (List.mem_cons.mp hx).imp_right Or.inr
  have hof (x : UInt32 × TaskNode) (hx : x ∈ ls ∨ x ∈ rs) :
      Function.update lists p ys' x.1 = lists x.1 := Function.update_of_ne (ht.ne_of_mem hx) ..
  have hp : (p, v) ∈ ls ++ (p, v) :: rs := by simp
  -- a message of another task is neither in the mailbox nor in the list of this one
  have hother (x : UInt32 × TaskNode) (hx : x ∈ ls ∨ x ∈ rs) (a : UInt32)
      (ha : a ∈ addresses (lists x.1)) : a ∉ addresses mail ∧ a ∉ addresses (lists p) :=
    ⟨fun hm => ht.apart x (hold x hx) a hm ha,
      ht.disjoint x (hold x hx) (p, v) hp (ht.ne_of_mem hx) a ha⟩
  refine ⟨ht', hl', hlen.trans_lt ht.few, fun x hx => ?_, fun x hx a ha => ?_,
    fun x hx y hy hne a ha => ?_⟩
  · rcases hcases x hx with rfl | hx
    · rw [Function.update_self]
      exact hc'
    · rw [hof x hx]
      exact ht.others hframe hx
  · rcases hcases x hx with rfl | hx
    · rw [Function.update_self]
      exact hapart a ha
    · rw [hof x hx]
      exact ht.apart x (hold x hx) a (hmail a ha)
  · rcases hcases x hx with rfl | hx
    · rcases hcases y hy with rfl | hy
      · exact absurd rfl hne
      · rw [Function.update_self] at ha
        rw [hof y hy]
        intro hay
        obtain ⟨hm, hl⟩ := hother y hy a hay
        exact (hys a ha).elim hm hl
    · rw [hof x hx] at ha
      obtain ⟨hm, hl⟩ := hother x hx a ha
      rcases hcases y hy with rfl | hy
      · rw [Function.update_self]
        exact fun hay => (hys a hay).elim hm hl
      · rw [hof y hy]
        exact ht.disjoint x (hold x hx) y (hold y hy) hne a ha

/-- **Removing a task with its messages** changes nothing else. -/
theorem MailTable.remove (ht : MailTable s (ls ++ (p, v) :: rs) mail lists)
    (ht' : TaskTable s' (ls ++ rs)) (hl' : IsList s'.msgs s'.mboxInfo mail')
    (hlen : mail'.length ≤ mail.length) (hmail : ∀ a ∈ addresses mail', a ∈ addresses mail)
    (hframe : ∀ b, b ∉ addresses mail → b ∉ addresses (lists p) → s'.msgs b = s.msgs b) :
    MailTable s' (ls ++ rs) mail' lists := by
  have hold : ∀ x ∈ ls ++ rs, x ∈ ls ++ (p, v) :: rs := by
    intro x hx
    rcases List.mem_append.mp hx with hx | hx
    · exact List.mem_append_left _ hx
    · exact List.mem_append_right _ (List.mem_cons_of_mem _ hx)
  refine ⟨ht', hl', hlen.trans_lt ht.few, fun x hx => ?_, fun x hx a ha => ?_,
    fun x hx y hy hne => ?_⟩
  · exact ht.others hframe (List.mem_append.mp hx)
  · exact ht.apart x (hold x hx) a (hmail a ha)
  · exact ht.disjoint x (hold x hx) y (hold y hy) hne

/-- Changing a task otherwise changes no list of messages. -/
theorem MailTable.change (ht : MailTable s (ls ++ (p, v) :: rs) mail lists)
    (hg : (g v).sTaskId = v.sTaskId ∧ (g v).sTaskMsg = v.sTaskMsg) :
    MailTable { s with tasks := s.tasks.map p (.mapValue g) } (ls ++ (p, g v) :: rs) mail
      lists := by
  have hp : (p, v) ∈ ls ++ (p, v) :: rs := by simp
  have hrep := ht.replace (ht.toTaskTable.change hg.1) ht.mailbox
    (by rw [hg.2]; exact ht.messages (p, v) hp) le_rfl (fun _ h => h) (fun _ h => Or.inr h)
    (ht.apart (p, v) hp) fun _ _ _ => rfl
  rwa [Function.update_eq_self] at hrep

/-! ### Calls -/

/-- A part of the mailbox is made of its messages. -/
theorem mem_of_filter {f : UInt32 × TaskMsg → Bool} (ha : a ∈ addresses (mail.filter f)) :
    a ∈ addresses mail := by
  obtain ⟨x, hx, rfl⟩ := List.mem_map.mp ha
  exact List.mem_map_of_mem (List.mem_of_mem_filter hx)

/-- The messages for a destination are not among the others. -/
theorem notForDst_apart (hn : (addresses mail).Nodup) (ha : a ∈ addresses (notForDst dst mail)) :
    a ∉ addresses (forDst dst mail) := by
  intro hb
  obtain ⟨x, hx, rfl⟩ := List.mem_map.mp ha
  obtain ⟨y, hy, hxy⟩ := List.mem_map.mp hb
  rw [notForDst, List.mem_filter] at hx
  rw [forDst, List.mem_filter] at hy
  obtain rfl := List.inj_on_of_nodup_map hn hy.1 hx.1 hxy
  simp only [decide_eq_true_eq] at hx hy
  exact hx.2 hy.2

/-- **A task that is dispatched is given its messages**, those it had and those in the mailbox. -/
theorem MailTable.dispatch (ht : MailTable s (ls ++ (p, v) :: rs) mail lists) (now : UInt32) :
    ∃ s' v', dispatchTask s p now =
        .ok (s', v.sTaskId, (lists p ++ forDst v.sTaskId mail).map Prod.snd) ∧
      v'.sTaskId = v.sTaskId ∧
      MailTable s' (ls ++ (p, v') :: rs) (notForDst v.sTaskId mail)
        (Function.update lists p (lists p ++ forDst v.sTaskId mail)) := by
  have hp : (p, v) ∈ ls ++ (p, v) :: rs := by simp
  have hnode := ht.segment.node
  obtain ⟨msgs, mbox, hd, hextract, hl', hc', hframe⟩ := sTaskExtractMsg_spec ht.mailbox ht.few
    (ht.messages (p, v) hp) (ht.apart (p, v) hp) v.sTaskId
  have hgiven : values FUEL msgs hd = some ((lists p ++ forDst v.sTaskId mail).map Prod.snd) := by
    rw [hc'.start]
    exact values_spec hc'.segment hc'.nonzero hc'.length_lt
  have ht₁ : TaskTable { s with msgs := msgs, mboxInfo := mbox } (ls ++ (p, v) :: rs) :=
    ⟨ht.toIsList, ht.handles, ht.handles_ne_zero, ht.allocated⟩
  let g : TaskNode → TaskNode := fun v => { v with nTicks := now, sTaskMsg := hd, eTicks := now }
  refine ⟨_, g v, ?_, rfl, ht.replace (ht₁.change (g := g) rfl) hl' hc' ?_ ?_ ?_ ?_ hframe⟩
  · have hchange := changeTask_eq (s := { s with msgs := msgs, mboxInfo := mbox }) (g := g) hnode
    simp only [dispatchTask, hnode, orFault_some, ok_bind, hextract, hgiven]
    rw [hchange]
    rfl
  · exact List.length_filter_le _ _
  · exact fun a ha => mem_of_filter ha
  · intro a ha
    rw [addresses_append] at ha
    exact (List.mem_append.mp ha).elim Or.inr fun h => Or.inl (mem_of_filter h)
  · intro a ha hmem
    rw [addresses_append] at hmem
    rcases List.mem_append.mp hmem with hmem | hmem
    · exact ht.apart (p, v) hp a (mem_of_filter ha) hmem
    · exact notForDst_apart ht.mailbox.nodup ha hmem

/-- **A task that is deleted takes its messages with it**, and no others. -/
theorem MailTable.delete (ht : MailTable s (ls ++ (p, v) :: rs) mail lists) :
    ∃ s', sTaskDeleteNode s p = .ok s' ∧
      MailTable s' (ls ++ rs) (notForDst v.sTaskId mail) lists := by
  have hp : (p, v) ∈ ls ++ (p, v) :: rs := by simp
  obtain ⟨msgs, mbox, hd, hextract, hl', hc', hframe⟩ := sTaskExtractMsg_spec ht.mailbox ht.few
    (ht.messages (p, v) hp) (ht.apart (p, v) hp) v.sTaskId
  obtain ⟨msgs', hflush, hmsgs⟩ :=
    sTaskFlushMsgs_spec hc'.segment hc'.nodup hc'.nonzero hc'.length_lt
  rw [← hc'.start] at hflush
  obtain ⟨s', hdel, ht', hmsgs', hmbox', -⟩ := ht.toTaskTable.delete hextract hflush
  refine ⟨s', hdel, ht.remove ht' ?_ (List.length_filter_le _ _) (fun a ha => mem_of_filter ha)
    fun b hb hbp => ?_⟩
  · rw [hmbox']
    refine hl'.congr fun b hb => ?_
    rw [hmsgs', hmsgs b, if_neg]
    rw [addresses_append]
    intro hmem
    rcases List.mem_append.mp hmem with hmem | hmem
    · exact ht.apart (p, v) hp b (mem_of_filter hb) hmem
    · exact notForDst_apart ht.mailbox.nodup hb hmem
  · rw [hmsgs', hmsgs b, if_neg, hframe b hb hbp]
    rw [addresses_append]
    intro hmem
    exact (List.mem_append.mp hmem).elim hbp fun h => hb (mem_of_filter h)

/-- A message that is sent waits behind the others. -/
theorem MailTable.send (ht : MailTable s xs mail lists) (src dst : UInt16) (bytes : Source)
    {count : UInt16} {blocks : MessageBlocks} {block : Vector UInt8 DATA_ALLOC}
    (hnode : blocks.node ≠ 0) (hmalloc : s.msgs blocks.node = none)
    (hdata : blocks.data = some block) (hcount : count.toNat ≤ DATA_ALLOC)
    (hfew : mail.length + 1 < 2 ^ 16) :
    ∃ s', sTaskSendMsg s src dst bytes count blocks = .ok (s', true) ∧
      MailTable s' xs (mail ++ [(blocks.node, ⟨src, dst,
        bytes.read count.toNat ++ block.toList.drop count.toNat, count⟩)]) lists := by
  have hfree {zs : Nodes TaskMsg} {q p : UInt32} (hs : Segment s.msgs q zs p) :
      blocks.node ∉ addresses zs := by
    intro hmem
    obtain ⟨n, hn⟩ := hs.exists_node hmem
    exact absurd (hn.symm.trans hmalloc) nofun
  let m : TaskMsg := ⟨src, dst, bytes.read count.toNat ++ block.toList.drop count.toNat, count⟩
  let msgs := Function.update s.msgs blocks.node (some ⟨m, 0, 0⟩)
  have hof (b : UInt32) (hb : b ≠ blocks.node) : msgs b = s.msgs b :=
    Function.update_of_ne hb (some ⟨m, 0, 0⟩) s.msgs
  have hl₁ : IsList msgs s.mboxInfo mail := ht.mailbox.congr fun b hb =>
    hof b fun heq => hfree ht.mailbox.segment (heq ▸ hb)
  obtain ⟨msgs', mbox', happend, hl', hframe⟩ :=
    append_spec hl₁ (Function.update_self ..) hnode (hfree ht.mailbox.segment)
  have hcopy : copyInto block.toList 0 (bytes.read count.toNat) =
      some (bytes.read count.toNat ++ block.toList.drop count.toNat) := by
    have hzero : (0 : UInt32).toNat = ([] : List UInt8).length := rfl
    have hfits : (bytes.read count.toNat).length ≤ block.toList.length := by simpa using hcount
    rw [← List.nil_append block.toList, copyInto_append hzero, if_pos hfits]
    simp
  have hold (x : UInt32 × TaskNode) (hx : x ∈ xs) (b : UInt32)
      (hb : b ∈ addresses (lists x.1)) : b ≠ blocks.node ∧ b ∉ addresses mail :=
    ⟨fun heq => hfree (ht.messages x hx).segment (heq ▸ hb), fun hm => ht.apart x hx b hm hb⟩
  refine ⟨{ s with msgs := msgs', mboxInfo := mbox' }, ?_,
    ⟨ht.toIsList, ht.handles, ht.handles_ne_zero, ht.allocated⟩, hl', ?_, fun x hx => ?_,
    fun x hx a ha hmem => ?_, ht.disjoint⟩
  · have hnone : ¬ (s.msgs blocks.node).isSome = true := by simp [hmalloc]
    rw [sTaskSendMsg, if_neg hnode, if_neg hnone, hdata]
    simp only [hcopy, orFault_some, ok_bind]
    change (orFault .messageFreed (append msgs s.mboxInfo blocks.node) >>= _) = _
    rw [happend]
    rfl
  · simpa using hfew
  · refine (ht.messages x hx).congr fun b hb => ?_
    obtain ⟨hne, hnm⟩ := hold x hx b hb
    exact (hframe b (by simpa using ⟨hne, hnm⟩)).trans (hof b hne)
  · obtain ⟨hne, hnm⟩ := hold x hx a hmem
    rw [addresses_append] at ha
    exact (List.mem_append.mp ha).elim hnm fun h => hne (List.mem_singleton.mp h)

/-- A task that is created has no messages. -/
theorem MailTable.create (ht : MailTable s xs mail lists) {block : UInt32} (active : Bool)
    (prio : TaskPriority) (sTicks ptr now : UInt32) (hb : block ≠ 0)
    (hmalloc : s.tasks block = none) (hid : s.sTaskId + 1 ≠ 0)
    (hfresh : s.sTaskId + 1 ∉ xs.map fun x => x.2.sTaskId) :
    ∃ s', sTaskCreate s block active prio sTicks ptr now = .ok (s', some (s.sTaskId + 1)) ∧
      MailTable s' (xs ++ [(block, newTask (s.sTaskId + 1) active prio sTicks ptr now)]) mail
        (Function.update lists block []) := by
  obtain ⟨s', hcreate, ht', hmsgs, hmbox, -⟩ :=
    ht.toTaskTable.create active prio sTicks ptr now hb hmalloc hid hfresh
  have hne (x : UInt32 × TaskNode) (hx : x ∈ xs) : x.1 ≠ block := by
    intro heq
    have hmem : x.1 ∈ addresses xs := List.mem_map_of_mem hx
    obtain ⟨n, hn⟩ := ht.segment.exists_node (heq ▸ hmem)
    exact absurd (hn.symm.trans hmalloc) nofun
  have hcases (x : UInt32 × TaskNode)
      (hx : x ∈ xs ++ [(block, newTask (s.sTaskId + 1) active prio sTicks ptr now)]) :
      x ∈ xs ∧ Function.update lists block [] x.1 = lists x.1 ∨
        x = (block, newTask (s.sTaskId + 1) active prio sTicks ptr now) ∧
          Function.update lists block [] x.1 = [] := by
    rcases List.mem_append.mp hx with hx | hx
    · exact Or.inl ⟨hx, Function.update_of_ne (hne x hx) ..⟩
    · obtain rfl := List.mem_singleton.mp hx
      exact Or.inr ⟨rfl, Function.update_self ..⟩
  refine ⟨s', hcreate, ht', by rw [hmsgs, hmbox]; exact ht.mailbox, ht.few, fun x hx => ?_,
    fun x hx a ha => ?_, fun x hx y hy hxy a ha => ?_⟩
  · rw [hmsgs]
    rcases hcases x hx with ⟨hx, hof⟩ | ⟨rfl, hof⟩
    · rw [hof]
      exact ht.messages x hx
    · rw [hof]
      exact isChain_nil
  · rcases hcases x hx with ⟨hx, hof⟩ | ⟨-, hof⟩
    · rw [hof]
      exact ht.apart x hx a ha
    · rw [hof]
      exact List.not_mem_nil
  · rcases hcases x hx with ⟨hx, hofx⟩ | ⟨-, hofx⟩
    · rcases hcases y hy with ⟨hy, hofy⟩ | ⟨-, hofy⟩
      · rw [hofx] at ha
        rw [hofy]
        exact ht.disjoint x hx y hy hxy a ha
      · rw [hofy]
        exact List.not_mem_nil
    · rw [hofx] at ha
      cases ha

end Muxponder

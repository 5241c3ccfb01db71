import Muxponder.Lib.CString
import Muxponder.Lib.Region

/-!
# The User Preferences

`kurs_user_prefs.c` keeps a list of the objects whose values survive a power cycle.
`commit_user_settings` lays their values behind each other in one record, between two
copies of a signature and behind the number of their bytes, and hands it to the card's
flash writer; `read_user_settings` asks the card for that many bytes, checks the
signatures and the number, and gives the objects their values back.

The record is built in a fresh block of `total_size` bytes. Offsets and sizes are 32-bit
machine words, so a copy that a wrapped size sends out of the block is undefined. A heap
that has no room for the block is not modelled.

## Main results

* `commitUserSettings_eq_some_iff`: when a commit is defined, and the record it hands over.
* `readUserSettings_record`: what reading does with a block of the right length, field by
  field of the record.
* `userSettings_roundTrip`: a record read back restores every object, and a reader that
  fails changes none.
-/

namespace Muxponder

open CString Memory

/-! ### The list -/

/-- `struct list`: the registered objects in the order of registration, their number and
the sum of their sizes. -/
structure PreferencesList where
  nodes : List Region
  count : UInt32
  size : UInt32
  count_eq : count = UInt32.ofNat nodes.length
  size_eq : size = (nodes.map Region.size).sum

/-- `my_list` before anything is registered. -/
def PreferencesList.empty : PreferencesList := ⟨[], 0, 0, rfl, rfl⟩

/-- `append_preference`: the longer list and the size of the object. -/
def appendPreference (l : PreferencesList) (data size : UInt32) : PreferencesList × UInt32 :=
  ({ nodes := l.nodes ++ [⟨data, size⟩]
     count := l.count + 1
     size := l.size + size
     count_eq := by rw [l.count_eq, List.length_append, UInt32.ofNat_add]; rfl
     size_eq := by rw [l.size_eq]; simp }, size)

/-- `get_preferences_list_size`. -/
def getPreferencesListSize (l : PreferencesList) : UInt32 := l.size

variable {l l' : PreferencesList} {m m' : Mem} {heap : Heap}

/-- Lists of the same objects are the same. -/
theorem PreferencesList.ext (h : l.nodes = l'.nodes) : l = l' := by
  obtain ⟨nodes, count, size, hcount, hsize⟩ := l
  obtain ⟨nodes', count', size', hcount', hsize'⟩ := l'
  obtain rfl : nodes = nodes' := h
  obtain rfl : count = count' := hcount.trans hcount'.symm
  obtain rfl : size = size' := hsize.trans hsize'.symm
  rfl

/-- What a sequence of calls of `append_preference` builds on a list. -/
theorem nodes_foldl_appendPreference {rs : List Region} :
    (rs.foldl (fun l r => (appendPreference l r.value r.size).1) l).nodes = l.nodes ++ rs := by
  induction rs generalizing l with
  | nil => simp
  | cons r rs ih =>
      rw [List.foldl_cons, ih]
      simp [appendPreference]

/-- Every list is built by calls of `append_preference`. -/
theorem PreferencesList.eq_foldl :
    l = l.nodes.foldl (fun l r => (appendPreference l r.value r.size).1) .empty :=
  PreferencesList.ext (by rw [nodes_foldl_appendPreference]; rfl)

/-- The size the list counts is that of its objects, as far as a machine word goes. -/
theorem PreferencesList.size_toNat : l.size.toNat = totalSize l.nodes % 2 ^ 32 := by
  rw [l.size_eq]
  induction l.nodes with
  | nil => rfl
  | cons r rs ih =>
      rw [List.map_cons, List.sum_cons, UInt32.toNat_add, ih, totalSize_cons]
      omega

/-! ### Copying the values -/

/-- The loop of `list_to_array`, with `_array` at an offset of the block. -/
def listToArray (m : Mem) (array : UInt32) :
    List Region → UInt32 → List UInt8 → Option (List UInt8)
  | [], _, block => some block
  | n :: ns, ptr, block =>
      (copyInto block (array + ptr) (m.valueOf n)).bind (listToArray m array ns (ptr + n.size))

/-- The loop of `array_to_list`, with `_array` at an offset of the block. -/
def arrayToList (block : List UInt8) (array : UInt32) : List Region → UInt32 → Mem → Option Mem
  | [], _, m => some m
  | n :: ns, ptr, m =>
      (copyFrom block (array + ptr) n.size).bind fun bytes =>
        arrayToList block array ns (ptr + n.size) (m.blit n.value bytes)

section Loops

variable {array ptr : UInt32} {ns : List Region} {front done free payload rest : List UInt8}

/-- The offset at which the loops copy next. -/
theorem array_add_toNat (ha : array.toNat = front.length) (hp : ptr.toNat = done.length)
    (hlt : (front ++ done).length < 2 ^ 32) : (array + ptr).toNat = (front ++ done).length := by
  rw [List.length_append] at hlt ⊢
  rw [UInt32.toNat_add, ha, hp, Nat.mod_eq_of_lt hlt]

/-- **`list_to_array` lays the values behind each other**, as long as the block lasts. -/
theorem listToArray_append (ha : array.toNat = front.length) (hp : ptr.toNat = done.length)
    (hlt : (front ++ done ++ free).length < 2 ^ 32) :
    listToArray m array ns ptr (front ++ done ++ free) =
      if totalSize ns ≤ free.length then
        some (front ++ done ++ snapshot m ns ++ free.drop (totalSize ns))
      else none := by
  induction ns generalizing ptr done free with
  | nil => simp [listToArray, snapshot, totalSize]
  | cons n ns ih =>
      simp only [List.length_append] at hlt
      have ho := array_add_toNat ha hp (by rw [List.length_append]; omega)
      rw [listToArray, copyInto_append ho, valueOf_length, totalSize_cons]
      by_cases hn : n.size.toNat ≤ free.length
      · have hp' : (ptr + n.size).toNat = (done ++ m.valueOf n).length := by
          rw [UInt32.toNat_add, hp, List.length_append, valueOf_length]
          omega
        have hlt' : (front ++ (done ++ m.valueOf n) ++ free.drop n.size.toNat).length <
            2 ^ 32 := by
          simp only [List.length_append, List.length_drop, valueOf_length]
          omega
        have hrest := ih hp' hlt'
        have hiff : totalSize ns ≤ (free.drop n.size.toNat).length ↔
            n.size.toNat + totalSize ns ≤ free.length := by
          rw [List.length_drop]
          omega
        rw [if_pos hn, Option.bind_some, List.append_assoc front, hrest, List.drop_drop]
        simp only [hiff, snapshot_cons, List.append_assoc]
      · have hno : ¬ n.size.toNat + totalSize ns ≤ free.length := by omega
        rw [if_neg hn, if_neg hno, Option.bind_none]

/-- **`array_to_list` restores the objects** from what stands behind the front. -/
theorem arrayToList_append (ha : array.toNat = front.length) (hp : ptr.toNat = done.length)
    (hlt : (front ++ done ++ payload).length < 2 ^ 32) (hlen : payload.length = totalSize ns) :
    arrayToList (front ++ done ++ payload ++ rest) array ns ptr m =
      some (restore ns payload m) := by
  induction ns generalizing ptr done payload m with
  | nil => rfl
  | cons n ns ih =>
      simp only [List.length_append] at hlt
      have ho := array_add_toNat ha hp (by rw [List.length_append]; omega)
      rw [totalSize_cons] at hlen
      have htake : n.size.toNat = (payload.take n.size.toNat).length := by
        rw [List.length_take]
        omega
      have hsplit : front ++ done ++ payload ++ rest = front ++ done ++
          payload.take n.size.toNat ++ (payload.drop n.size.toNat ++ rest) := by
        rw [← List.append_assoc _ _ rest, List.append_assoc _ _ (List.drop _ _),
          List.take_append_drop]
      have hp' : (ptr + n.size).toNat = (done ++ payload.take n.size.toNat).length := by
        rw [UInt32.toNat_add, hp, List.length_append, ← htake]
        omega
      have hlt' : (front ++ (done ++ payload.take n.size.toNat) ++
          payload.drop n.size.toNat).length < 2 ^ 32 := by
        simp only [List.length_append, List.length_drop, List.length_take]
        omega
      have hrest := ih (m := m.blit n.value (payload.take n.size.toNat)) hp' hlt'
        (by rw [List.length_drop]; omega)
      rw [arrayToList, hsplit, copyFrom_append ho htake, Option.bind_some, restore, ← hrest]
      simp only [List.append_assoc]

end Loops

/-! ### The record -/

/-- `USER_PREFS_SIGNATURE`. -/
def USER_PREFS_SIGNATURE : List UInt8 := ascii "65e4eef092ce4ca6a4678a7f5bb0532b"

/-- `USER_PREFS_SIGNATURE_LEN`. -/
def USER_PREFS_SIGNATURE_LEN : UInt32 := 32

/-- `RET_SUCCESS`. -/
def RET_SUCCESS : Int32 := 0

/-- `RET_FAIL`. -/
def RET_FAIL : Int32 := 1

/-- The bytes of an `int`. -/
def intBytes (n : UInt32) : List UInt8 :=
  (List.range 4).map fun k => UInt8.ofNat (n.toNat / 256 ^ k)

/-- The `int` that some bytes make. -/
def intOf (bs : List UInt8) : UInt32 :=
  UInt32.ofNat (bs.foldr (fun b n => b.toNat + 256 * n) 0)

/-- `total_size`: the bytes of a record with `size` bytes of values. -/
def recordSize (size : UInt32) : UInt32 := size + 4 + 2 * USER_PREFS_SIGNATURE_LEN

/-- `commit_user_settings`: the bytes handed to `IPGLB_WriteUserPrefsCallback`. -/
def commitUserSettings (heap : Heap) (m : Mem) (l : PreferencesList) :
    Option (List UInt8) := do
  let size := getPreferencesListSize l
  let usBuffer := heap.malloc (recordSize size)
  let usBuffer ← copyInto usBuffer 0 USER_PREFS_SIGNATURE
  let offset := USER_PREFS_SIGNATURE_LEN
  let usBuffer ← copyInto usBuffer offset (intBytes size)
  let offset := offset + 4
  let usBuffer ← listToArray m offset l.nodes 0 usBuffer
  let offset := offset + size
  copyInto usBuffer offset USER_PREFS_SIGNATURE

/-- `read_user_settings`: its result and the memory behind it. The callback
`IPGLB_ReadUserPrefsCallback` is told the size of the block; it returns a code and leaves
the block with some bytes. -/
def readUserSettings (l : PreferencesList) (readCallback : UInt32 → Int32 × List UInt8)
    (m : Mem) : Option (Int32 × Mem) := do
  let size := getPreferencesListSize l
  let (rc, usBuffer) := readCallback (recordSize size)
  if rc ≠ RET_SUCCESS then some (rc, m)
  else
    let head ← copyFrom usBuffer 0 USER_PREFS_SIGNATURE_LEN
    if head ≠ USER_PREFS_SIGNATURE then some (RET_FAIL, m)
    else
      let detected_count ← copyFrom usBuffer USER_PREFS_SIGNATURE_LEN 4
      if intOf detected_count ≠ size then some (RET_FAIL, m)
      else
        let tail ← copyFrom usBuffer (USER_PREFS_SIGNATURE_LEN + size + 4)
          USER_PREFS_SIGNATURE_LEN
        if tail ≠ USER_PREFS_SIGNATURE then some (RET_FAIL, m)
        else
          (arrayToList usBuffer (USER_PREFS_SIGNATURE_LEN + 4) l.nodes 0 m).map
            fun m => (RET_SUCCESS, m)

@[simp] theorem signature_length : USER_PREFS_SIGNATURE.length = 32 := by decide

@[simp] theorem intBytes_length {n : UInt32} : (intBytes n).length = 4 := rfl

/-- The record of a list: the signature, the number of bytes, the values, the signature. -/
def prefsRecord (m : Mem) (l : PreferencesList) : List UInt8 :=
  USER_PREFS_SIGNATURE ++ intBytes l.size ++ snapshot m l.nodes ++ USER_PREFS_SIGNATURE

/-- A record of the list has a size that fits a machine word. -/
def PreferencesList.Fits (l : PreferencesList) : Prop := totalSize l.nodes + 68 < 2 ^ 32

/-- The size of a record, as far as a machine word goes. -/
theorem recordSize_toNat :
    (recordSize l.size).toNat = (totalSize l.nodes + 68) % 2 ^ 32 := by
  have hsize := l.size_toNat
  have h2 : (2 * USER_PREFS_SIGNATURE_LEN).toNat = 64 := rfl
  have h4 : (4 : UInt32).toNat = 4 := rfl
  rw [recordSize, UInt32.toNat_add, UInt32.toNat_add, h2, h4, hsize]
  omega

/-- The size of a list whose record fits. -/
theorem PreferencesList.Fits.size_toNat (h : l.Fits) : l.size.toNat = totalSize l.nodes := by
  have hfits : totalSize l.nodes + 68 < 2 ^ 32 := h
  rw [l.size_toNat, Nat.mod_eq_of_lt (by omega)]

/-- The size of a record that fits. -/
theorem PreferencesList.Fits.recordSize_toNat (h : l.Fits) :
    (recordSize l.size).toNat = totalSize l.nodes + 68 := by
  rw [Muxponder.recordSize_toNat, Nat.mod_eq_of_lt h]

@[simp] theorem prefsRecord_length : (prefsRecord m l).length = totalSize l.nodes + 68 := by
  simp only [prefsRecord, List.length_append, signature_length, intBytes_length,
    snapshot_length]
  omega

/-- The two fields in front of the values. -/
theorem copyInto_front {block : List UInt8} :
    ((copyInto block 0 USER_PREFS_SIGNATURE).bind fun b =>
      copyInto b USER_PREFS_SIGNATURE_LEN (intBytes l.size)) =
      if 36 ≤ block.length then
        some (USER_PREFS_SIGNATURE ++ intBytes l.size ++ block.drop 36)
      else none := by
  have hhead : copyInto ([] ++ block) 0 USER_PREFS_SIGNATURE = _ := copyInto_append rfl
  rw [List.nil_append, signature_length, List.nil_append] at hhead
  rw [hhead]
  by_cases h32 : 32 ≤ block.length
  · have hiff : 4 ≤ (block.drop 32).length ↔ 36 ≤ block.length := by
      rw [List.length_drop]
      omega
    rw [if_pos h32, Option.bind_some, copyInto_append rfl, intBytes_length, List.drop_drop]
    simp only [hiff]
  · rw [if_neg h32, if_neg (by omega), Option.bind_none]

/-- The three stages of a commit. -/
theorem commitUserSettings_eq :
    commitUserSettings heap m l =
      (((copyInto (heap.malloc (recordSize l.size)) 0 USER_PREFS_SIGNATURE).bind fun b =>
        copyInto b USER_PREFS_SIGNATURE_LEN (intBytes l.size)).bind fun b =>
          listToArray m (USER_PREFS_SIGNATURE_LEN + 4) l.nodes 0 b).bind fun b =>
            copyInto b (USER_PREFS_SIGNATURE_LEN + 4 + l.size) USER_PREFS_SIGNATURE := by
  rw [Option.bind_assoc, Option.bind_assoc]
  rfl

/-- The values of a list behind the two fields in front of them. -/
theorem listToArray_front {free : List UInt8} (hlt : 36 + free.length < 2 ^ 32) :
    listToArray m (USER_PREFS_SIGNATURE_LEN + 4) l.nodes 0
        (USER_PREFS_SIGNATURE ++ intBytes l.size ++ free) =
      if totalSize l.nodes ≤ free.length then
        some (USER_PREFS_SIGNATURE ++ intBytes l.size ++ snapshot m l.nodes ++
          free.drop (totalSize l.nodes))
      else none := by
  have hlen : (USER_PREFS_SIGNATURE ++ intBytes l.size ++ [] ++ free).length < 2 ^ 32 := by
    simp only [List.length_append, signature_length, intBytes_length, List.length_nil]
    omega
  have hvalues : listToArray m (USER_PREFS_SIGNATURE_LEN + 4) l.nodes 0
      (USER_PREFS_SIGNATURE ++ intBytes l.size ++ [] ++ free) = _ :=
    listToArray_append rfl rfl hlen
  rwa [List.append_nil] at hvalues

/-- The offset behind the values. -/
theorem offset_behind (h : totalSize l.nodes + 36 < 2 ^ 32) :
    (USER_PREFS_SIGNATURE_LEN + 4 + l.size).toNat =
      (USER_PREFS_SIGNATURE ++ intBytes l.size ++ snapshot m l.nodes).length := by
  have h36 : (USER_PREFS_SIGNATURE_LEN + 4).toNat = 36 := rfl
  rw [UInt32.toNat_add, h36, l.size_toNat]
  simp only [List.length_append, signature_length, intBytes_length, snapshot_length]
  omega

/-- **A record that fits is handed over whole.** -/
theorem commitUserSettings_of_fits (h : l.Fits) :
    commitUserSettings heap m l = some (prefsRecord m l) := by
  have hlen := heap.malloc_length (recordSize l.size)
  rw [h.recordSize_toNat] at hlen
  have hfits : totalSize l.nodes + 68 < 2 ^ 32 := h
  have hfree : ((heap.malloc (recordSize l.size)).drop 36).length = totalSize l.nodes + 32 := by
    rw [List.length_drop]
    omega
  rw [commitUserSettings_eq, copyInto_front, if_pos (by omega), Option.bind_some,
    listToArray_front (by omega), if_pos (by omega), Option.bind_some,
    copyInto_append (offset_behind (by omega)), signature_length,
    if_pos (by rw [List.length_drop]; omega), List.drop_drop,
    List.drop_of_length_le (by rw [List.length_drop]; omega), List.append_nil, prefsRecord]

/-- **A record that does not fit leaves its block.** -/
theorem commitUserSettings_of_not_fits (h : ¬ l.Fits) :
    commitUserSettings heap m l = none := by
  have hlen := heap.malloc_length (recordSize l.size)
  have hlt := (recordSize l.size).toNat_lt
  rw [recordSize_toNat] at hlen hlt
  have hfits : ¬ totalSize l.nodes + 68 < 2 ^ 32 := h
  rw [commitUserSettings_eq]
  by_cases hfront : 36 ≤ (heap.malloc (recordSize l.size)).length
  · have hfree := List.length_drop (i := 36) (l := heap.malloc (recordSize l.size))
    rw [copyInto_front, if_pos hfront, Option.bind_some, listToArray_front (by omega),
      if_neg (by omega), Option.bind_none]
  · rw [copyInto_front, if_neg hfront, Option.bind_none, Option.bind_none]

/-- **When a commit is defined**, and the record it hands over. -/
theorem commitUserSettings_eq_some_iff {record : List UInt8} :
    commitUserSettings heap m l = some record ↔ l.Fits ∧ prefsRecord m l = record := by
  by_cases h : l.Fits
  · rw [commitUserSettings_of_fits h, Option.some.injEq, and_iff_right h]
  · rw [commitUserSettings_of_not_fits h]
    simp [h]

/-! ### Reading a record -/

/-- The bytes of a number make it again. -/
theorem intOf_intBytes {n : UInt32} : intOf (intBytes n) = n := by
  have hn := n.toNat_lt
  apply UInt32.toNat_inj.mp
  simp only [intOf, intBytes, List.range_succ, List.range_zero, List.map_cons, List.map_nil,
    List.nil_append, List.cons_append, List.foldr_cons, List.foldr_nil, UInt8.toNat_ofNat',
    UInt32.toNat_ofNat']
  omega

/-- Four bytes are known by the number they make. -/
theorem intOf_inj {bs cs : List UInt8} (hb : bs.length = 4) (hc : cs.length = 4)
    (h : intOf bs = intOf cs) : bs = cs := by
  obtain ⟨b0, b1, b2, b3, rfl⟩ := List.length_eq_four.mp hb
  obtain ⟨c0, c1, c2, c3, rfl⟩ := List.length_eq_four.mp hc
  have h := congrArg UInt32.toNat h
  simp only [intOf, List.foldr_cons, List.foldr_nil, UInt32.toNat_ofNat'] at h
  have := b0.toNat_lt
  have := b1.toNat_lt
  have := b2.toNat_lt
  have := b3.toNat_lt
  have := c0.toNat_lt
  have := c1.toNat_lt
  have := c2.toNat_lt
  have := c3.toNat_lt
  simp only [List.cons.injEq, and_true, ← UInt8.toNat_inj]
  omega

/-- **What reading does with a block of the size of a record**: the first field that is
not the record's makes it fail, and the payload is restored as it is. -/
theorem readUserSettings_fields {readCallback : UInt32 → Int32 × List UInt8}
    {head number payload tail : List UInt8} (h : l.Fits) (hh : head.length = 32)
    (hn : number.length = 4) (hp : payload.length = totalSize l.nodes) (ht : tail.length = 32)
    (hread : readCallback (recordSize l.size) =
      (RET_SUCCESS, head ++ number ++ payload ++ tail)) :
    readUserSettings l readCallback m =
      if head = USER_PREFS_SIGNATURE ∧ number = intBytes l.size ∧
          tail = USER_PREFS_SIGNATURE then
        some (RET_SUCCESS, restore l.nodes payload m)
      else some (RET_FAIL, m) := by
  have hfits : totalSize l.nodes + 68 < 2 ^ 32 := h
  have hhead : copyFrom ([] ++ head ++ (number ++ payload ++ tail)) 0
      USER_PREFS_SIGNATURE_LEN = some head := copyFrom_append rfl hh.symm
  have hnumber : copyFrom (head ++ number ++ (payload ++ tail)) USER_PREFS_SIGNATURE_LEN 4 =
      some number := copyFrom_append hh.symm hn.symm
  have htail : copyFrom (head ++ number ++ payload ++ tail ++ [])
      (USER_PREFS_SIGNATURE_LEN + l.size + 4) USER_PREFS_SIGNATURE_LEN = some tail := by
    refine copyFrom_append ?_ ht.symm
    have h32 : USER_PREFS_SIGNATURE_LEN.toNat = 32 := rfl
    have h4 : (4 : UInt32).toNat = 4 := rfl
    rw [UInt32.toNat_add, UInt32.toNat_add, h32, h4, h.size_toNat]
    simp only [List.length_append, hh, hn, hp]
    omega
  have hpayload : arrayToList ((head ++ number) ++ [] ++ payload ++ tail)
      (USER_PREFS_SIGNATURE_LEN + 4) l.nodes 0 m = some (restore l.nodes payload m) :=
    arrayToList_append (by rw [List.length_append, hh, hn]; rfl) rfl
      (by simp only [List.length_append, hh, hn, hp, List.length_nil]; omega) hp
  have hnum : intOf number = l.size → number = intBytes l.size := fun he =>
    intOf_inj hn rfl (he.trans intOf_intBytes.symm)
  rw [List.nil_append, ← List.append_assoc, ← List.append_assoc] at hhead
  rw [← List.append_assoc] at hnumber
  rw [List.append_nil] at htail hpayload
  simp only [readUserSettings, getPreferencesListSize, hread, Option.bind_eq_bind, hhead,
    hnumber, htail, hpayload, Option.bind_some, Option.map_some]
  by_cases h1 : head = USER_PREFS_SIGNATURE
  · by_cases h2 : number = intBytes l.size
    · by_cases h3 : tail = USER_PREFS_SIGNATURE
      · simp [h1, h2, h3, intOf_intBytes]
      · simp [h1, h2, h3, intOf_intBytes]
    · simp [h1, h2, mt hnum h2]
  · simp [h1]

/-- A reader that does not succeed has changed nothing. -/
theorem readUserSettings_unchanged {readCallback : UInt32 → Int32 × List UInt8} {rc : Int32}
    (h : readUserSettings l readCallback m = some (rc, m')) (hrc : rc ≠ RET_SUCCESS) :
    m' = m := by
  have hfail : ∀ {code : Int32}, some (code, m) = some (rc, m') → m' = m := by
    intro code he
    exact (Prod.mk.inj (Option.some.inj he)).2.symm
  simp only [readUserSettings, Option.bind_eq_bind] at h
  split_ifs at h
  · exact hfail h
  · obtain ⟨head, -, h⟩ := Option.bind_eq_some_iff.mp h
    split_ifs at h
    · exact hfail h
    · obtain ⟨number, -, h⟩ := Option.bind_eq_some_iff.mp h
      split_ifs at h
      · exact hfail h
      · obtain ⟨tail, -, h⟩ := Option.bind_eq_some_iff.mp h
        split_ifs at h
        · exact hfail h
        · obtain ⟨_, -, h⟩ := Option.map_eq_some_iff.mp h
          exact absurd (Prod.mk.inj h).1.symm hrc

/-- **The round trip of the preferences.** -/
theorem userSettings_roundTrip (l : PreferencesList) (hd : l.nodes.Pairwise Region.Disjoint)
    (heap : Heap) (m : Mem) :
    ((commitUserSettings heap m l).isSome = true ↔ l.Fits) ∧
      (∀ record, commitUserSettings heap m l = some record → ∀ readCallback m',
        readCallback (recordSize l.size) = (RET_SUCCESS, record) →
          ∃ m'', readUserSettings l readCallback m' = some (RET_SUCCESS, m'') ∧
            (∀ r ∈ l.nodes, m''.valueOf r = m.valueOf r) ∧
            ∀ x, (∀ r ∈ l.nodes, ¬ r.Contains x) → m'' x = m' x) ∧
      ∀ readCallback m' rc m'', readUserSettings l readCallback m' = some (rc, m'') →
        rc ≠ RET_SUCCESS → m'' = m' := by
  refine ⟨?_, ?_, ?_⟩
  · rw [Option.isSome_iff_exists]
    simp [commitUserSettings_eq_some_iff]
  · intro record hcommit readCallback m' hread
    obtain ⟨hfits, rfl⟩ := commitUserSettings_eq_some_iff.mp hcommit
    refine ⟨restore l.nodes (snapshot m l.nodes) m', ?_, ?_, ?_⟩
    · rw [readUserSettings_fields hfits signature_length intBytes_length snapshot_length
        signature_length hread, if_pos ⟨rfl, rfl, rfl⟩]
    · intro r hr
      have hrestored : (restore l.nodes (snapshot m l.nodes ++ []) m').valueOf r = m.valueOf r :=
        valueOf_restore hd hr
      rwa [List.append_nil] at hrestored
    · intro x hx
      exact restore_frame hx
  · intro readCallback m' rc m'' hread hrc
    exact readUserSettings_unchanged hread hrc

/-- Two registered objects, of four bytes and of two. -/
def twoPreferences : PreferencesList :=
  (appendPreference (appendPreference .empty 16 4).1 64 2).1

/-- A heap of cleared blocks. -/
def clearedHeap : Heap := ⟨fun n => List.replicate n.toNat 0, fun _ => List.length_replicate⟩

/-- A memory whose every byte is the low byte of its address. -/
def addressMemory : Mem := fun x => x.toUInt8

/-- The two objects survive a memory that has been cleared. -/
theorem roundTrip_twoPreferences :
    ∃ m'', readUserSettings twoPreferences
        (fun _ => (RET_SUCCESS, prefsRecord addressMemory twoPreferences)) (fun _ => 0) =
          some (RET_SUCCESS, m'') ∧
      (∀ r ∈ twoPreferences.nodes, m''.valueOf r = addressMemory.valueOf r) ∧
      ∀ x, (∀ r ∈ twoPreferences.nodes, ¬ r.Contains x) → m'' x = 0 := by
  have hd : twoPreferences.nodes.Pairwise Region.Disjoint :=
    List.pairwise_pair.mpr (Region.disjoint_of_le (by decide) (by decide))
  have hfits : twoPreferences.Fits := by
    unfold PreferencesList.Fits
    decide
  exact (userSettings_roundTrip twoPreferences hd clearedHeap addressMemory).2.1 _
    (commitUserSettings_of_fits hfits) _ _ rfl

/-- A record with one byte replaced, field by field. -/
theorem prefsRecord_set {i : ℕ} {b : UInt8} :
    (prefsRecord m l).set i b =
      if i < 32 then
        USER_PREFS_SIGNATURE.set i b ++ intBytes l.size ++ snapshot m l.nodes ++
          USER_PREFS_SIGNATURE
      else if i < 36 then
        USER_PREFS_SIGNATURE ++ (intBytes l.size).set (i - 32) b ++ snapshot m l.nodes ++
          USER_PREFS_SIGNATURE
      else if i < 36 + totalSize l.nodes then
        USER_PREFS_SIGNATURE ++ intBytes l.size ++ (snapshot m l.nodes).set (i - 36) b ++
          USER_PREFS_SIGNATURE
      else
        USER_PREFS_SIGNATURE ++ intBytes l.size ++ snapshot m l.nodes ++
          USER_PREFS_SIGNATURE.set (i - (36 + totalSize l.nodes)) b := by
  simp only [prefsRecord, List.set_append, List.length_append, signature_length,
    intBytes_length, snapshot_length, Nat.reduceAdd]
  split_ifs <;> first | rfl | omega

/-- Replacing a byte of a list by another one changes the list. -/
theorem set_ne_self {bs : List UInt8} {i : ℕ} {b : UInt8} (hi : i < bs.length)
    (hb : b ≠ bs.get ⟨i, hi⟩) : bs.set i b ≠ bs := by
  intro heq
  have hget : bs[i]? = some b := by rw [← heq, List.getElem?_set_self hi]
  rw [List.getElem?_eq_getElem hi, Option.some.injEq] at hget
  exact hb hget.symm

/-- **A changed byte is noticed exactly outside the values.** -/
theorem readUserSettings_rejects_iff (l : PreferencesList) (heap : Heap) (m m' : Mem)
    (record : List UInt8) (readCallback : UInt32 → Int32 × List UInt8) (i : ℕ) (b : UInt8)
    (hcommit : commitUserSettings heap m l = some record) (hi : i < record.length)
    (hb : b ≠ record.get ⟨i, hi⟩)
    (hread : readCallback (recordSize l.size) = (RET_SUCCESS, record.set i b)) :
    (∃ rc, rc ≠ RET_SUCCESS ∧ readUserSettings l readCallback m' = some (rc, m')) ↔
      ¬ (36 ≤ i ∧ i < 36 + l.size.toNat) := by
  obtain ⟨hfits, rfl⟩ := commitUserSettings_eq_some_iff.mp hcommit
  have hsize := hfits.size_toNat
  have hlen := hi
  rw [prefsRecord_length] at hlen
  have hset := set_ne_self hi hb
  have hfails : ∃ rc, rc ≠ RET_SUCCESS ∧ some (RET_FAIL, m') = some (rc, m') :=
    ⟨RET_FAIL, by decide, rfl⟩
  rw [prefsRecord_set] at hread hset
  split_ifs at hread hset with h32 h36 hpayload
  · have hhead : USER_PREFS_SIGNATURE.set i b ≠ USER_PREFS_SIGNATURE := by
      intro heq
      rw [heq] at hset
      exact hset rfl
    rw [readUserSettings_fields hfits (by simp) intBytes_length snapshot_length
      signature_length hread, if_neg fun h => hhead h.1]
    exact iff_of_true hfails (by omega)
  · have hnumber : (intBytes l.size).set (i - 32) b ≠ intBytes l.size := by
      intro heq
      rw [heq] at hset
      exact hset rfl
    rw [readUserSettings_fields hfits signature_length (by simp) snapshot_length
      signature_length hread, if_neg fun h => hnumber h.2.1]
    exact iff_of_true hfails (by omega)
  · rw [readUserSettings_fields hfits signature_length intBytes_length (by simp)
      signature_length hread, if_pos ⟨rfl, rfl, rfl⟩]
    refine iff_of_false ?_ (by omega)
    rintro ⟨rc, hrc, heq⟩
    exact hrc (Prod.mk.inj (Option.some.inj heq)).1.symm
  · have htail : USER_PREFS_SIGNATURE.set (i - (36 + totalSize l.nodes)) b ≠
        USER_PREFS_SIGNATURE := by
      intro heq
      rw [heq] at hset
      exact hset rfl
    rw [readUserSettings_fields hfits signature_length intBytes_length snapshot_length
      (by simp) hread, if_neg fun h => htail h.2.2]
    exact iff_of_true hfails (by omega)

/-- A changed signature is noticed. -/
theorem rejects_twoPreferences :
    ∃ rc, rc ≠ RET_SUCCESS ∧ readUserSettings twoPreferences
      (fun _ => (RET_SUCCESS, (prefsRecord addressMemory twoPreferences).set 5 0))
      addressMemory = some (rc, addressMemory) := by
  have hfits : twoPreferences.Fits := by
    unfold PreferencesList.Fits
    decide
  exact (readUserSettings_rejects_iff twoPreferences clearedHeap addressMemory addressMemory
    (prefsRecord addressMemory twoPreferences) _ 5 0 (commitUserSettings_of_fits hfits)
    (by decide) (by decide) rfl).mpr (by decide)

/-- A changed value is not: the first byte of the first object comes back as 1, though 16
was written. -/
theorem accepts_changed_value :
    (commitUserSettings clearedHeap addressMemory twoPreferences).map (fun r => r[36]?) =
        some (some 16) ∧
      ((commitUserSettings clearedHeap addressMemory twoPreferences).bind fun record =>
        (readUserSettings twoPreferences (fun _ => (RET_SUCCESS, record.set 36 1))
          addressMemory).map fun r => (r.1, r.2 16)) = some (RET_SUCCESS, 1) := by
  decide +kernel

end Muxponder

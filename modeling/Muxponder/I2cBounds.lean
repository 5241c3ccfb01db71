import Muxponder.Ipglb2Protocol
import Muxponder.KursProfile

/-!
# The Devices Behind an I2C Request

What `handle_i2c_wr`, `handle_i2c_rd` and `handle_user_i2c_config` of `main.c` touch for the
index byte of a request: the entries of `si5338`, `si5375` and `card.interfaces`, and, in the
drivers of `ipg_si5375.c`, of `silab_output_addresses` and of the lines of a configuration.

The handlers take `i2c_device_index - 6` for the device and for the port of an SI5375.

## Main results

* `i2cSafe_iff`: which requests touch only what exists, and which of the pairs of a device and
  a port one index reaches.
* `i2cBounds_not`: the seventh index of an SI5375 reads behind its four ports.
-/

namespace Muxponder

/-! ### The arrays -/

/-- The length of `si5338`. -/
def SI5338_COUNT : ℕ := 6

/-- The length of `si5375`. -/
def SI5375_COUNT : ℕ := 6

/-- `SI5375_OUTPUT_COUNT` -/
def SI5375_OUTPUT_COUNT : ℕ := 4

/-- The lines of `configuration` of an SI5338. -/
def SI5338_LINES : ℕ := 179

/-- The lines of the configuration of one port of an SI5375. -/
def SI5375_LINES : ℕ := 32

/-- An entry of one of the arrays. -/
inductive I2cEntry
  | si5338 (device : ℕ)
  | si5338Line (device line : ℕ)
  | si5375 (device : ℕ)
  | silabOutputAddress (port : ℕ)
  | si5375Line (device port line : ℕ)
  | interface (index : ℕ)
  deriving DecidableEq, Repr

/-- The array is long enough for the entry. -/
def I2cEntry.Exists : I2cEntry → Prop
  | .si5338 device => device < SI5338_COUNT
  | .si5338Line device line => device < SI5338_COUNT ∧ line < SI5338_LINES
  | .si5375 device => device < SI5375_COUNT
  | .silabOutputAddress port => port < SI5375_OUTPUT_COUNT
  | .si5375Line device port line =>
      device < SI5375_COUNT ∧ port < SI5375_OUTPUT_COUNT ∧ line < SI5375_LINES
  | .interface index => index < INTERFACE_COUNT

/-- What `device.device` of a transceiver points at. -/
inductive TransceiverKind
  | sfp
  | sfpp
  deriving DecidableEq, Repr

/-- `custom_init_transceiver_data` -/
def customInitTransceiverData (_index : Fin INTERFACE_COUNT) : TransceiverKind := .sfp

/-! ### The drivers -/

/-- What a driver touches that reads or writes a register. The ones of the SI5375 set the
address of the device to the one of its port. -/
def I2cDevice.entries : I2cDevice → List I2cEntry
  | .si5338 index => [.si5338 index.toNat]
  | .si5375 port => [.silabOutputAddress port.toNat, .si5375 port.toNat]
  | .sfp index _ => [.interface index.toNat]
  | .sfpp index _ => [.interface index.toNat]

/-- What a driver touches that configures a device: also the lines of its configuration.
`ipg_si5375_config` fails for a fifth port, after it has set the address. -/
def I2cDevice.configEntries : I2cDevice → List I2cEntry
  | .si5338 index =>
      .si5338 index.toNat ::
        (List.range SI5338_LINES).map fun line => .si5338Line index.toNat line
  | .si5375 port =>
      .silabOutputAddress port.toNat :: .si5375 port.toNat ::
        if port.toNat < SI5375_OUTPUT_COUNT then
          (List.range SI5375_LINES).map fun line => .si5375Line port.toNat port.toNat line
        else []
  | device => device.entries

/-- The device and the port of an SI5375. -/
def I2cDevice.slot : I2cDevice → Option (ℕ × ℕ)
  | .si5375 port => some (port.toNat, port.toNat)
  | _ => none

/-- The interface whose device pointer is used, and the kind it is cast to. -/
def I2cDevice.cast : I2cDevice → Option (ℕ × TransceiverKind)
  | .sfp index _ => some (index.toNat, .sfp)
  | .sfpp index _ => some (index.toNat, .sfpp)
  | _ => none

/-- The device an access calls a driver for. -/
def Access.device : Access → Option I2cDevice
  | .i2cRead device _ => some device
  | .i2cWrite device _ _ => some device
  | .i2cConfig device => some device
  | _ => none

/-- What an access touches. -/
def Access.entries : Access → List I2cEntry
  | .i2cRead device _ => device.entries
  | .i2cWrite device _ _ => device.entries
  | .i2cConfig device => device.configEntries
  | _ => []

/-! ### The handlers -/

/-- The handlers of the three commands. -/
inductive I2cHandler
  | wr
  | rd
  | config
  deriving DecidableEq, Repr

namespace I2cHandler

/-- The handler on a request, as `handle_i2c_func` calls it. -/
def run (h : I2cHandler) : Handler := fun hw request reply =>
  match h with
  | .wr => handleI2cWr (request.byte 3) hw request reply
  | .rd => (handleI2cRd (request.byte 3) hw request reply).1
  | .config => handleUserI2cConfig (request.byte 3) hw request reply

/-- The index names something the handler has a driver for: one of the clock devices at one of
its ports, or a transceiver of the kind that is asked for. -/
def Names (h : I2cHandler) (request : Prot2Buffer) : Prop :=
  if request.byte 3 = I2C_SILAB_DEVICE then request.byte 4 < 30
  else if h = .config then False
  else ∃ i : Fin INTERFACE_COUNT, i.val = (request.byte 4).toNat ∧
    (request.byte 3 = I2C_SFP_DEVICE ∧ customInitTransceiverData i = .sfp ∨
      request.byte 3 = I2C_SFPP_DEVICE ∧ customInitTransceiverData i = .sfpp)

/-- Some request with an index makes the handler address a port of a device. -/
def Reaches (h : I2cHandler) (index : UInt8) (device : Fin SI5375_COUNT)
    (port : Fin SI5375_OUTPUT_COUNT) : Prop :=
  ∃ hw request reply, request.byte 3 = I2C_SILAB_DEVICE ∧ request.byte 4 = index ∧
    ∃ a ∈ (h.run hw request reply).accesses, ∃ d, a.device = some d ∧
      d.slot = some (device.val, port.val)

end I2cHandler

/-- What a handler may do for a request. -/
structure I2cSafe (h : I2cHandler) (request : Prot2Buffer) (o : Prot2Outcome) : Prop where
  inBounds : ∀ a ∈ o.accesses, ∀ e ∈ a.entries, e.Exists
  fourPorts : ∀ a ∈ o.accesses, ∀ d, a.device = some d → ∀ s, d.slot = some s →
    s.2 < SI5375_OUTPUT_COUNT
  ownKind : ∀ a ∈ o.accesses, ∀ d, a.device = some d → ∀ (i : Fin INTERFACE_COUNT) kind,
    d.cast = some (i.val, kind) → customInitTransceiverData i = kind
  othersUnknown : ¬ h.Names request → o.ret = .unknownDevice

/-- The requests that go well: no index from the fifth of the SI5375 on, no interface behind
the last one, and no SFP+. -/
def I2cFine (h : I2cHandler) (request : Prot2Buffer) : Prop :=
  (request.byte 3 = I2C_SILAB_DEVICE → ¬ (10 ≤ request.byte 4 ∧ request.byte 4 < 30)) ∧
  (h ≠ .config → request.byte 3 ≠ I2C_SFPP_DEVICE ∧
    (request.byte 3 = I2C_SFP_DEVICE → (request.byte 4).toNat < INTERFACE_COUNT))

/-! ### What a handler reaches -/

namespace I2cHandler

variable {h : I2cHandler} {request : Prot2Buffer} {device : I2cDevice}

/-- The device a handler calls a driver for. -/
def target (h : I2cHandler) (request : Prot2Buffer) : Option I2cDevice :=
  match h with
  | .config => configTarget request
  | _ => (i2cTarget request).map Prod.fst

/-- What the handler's driver touches. -/
def entries (h : I2cHandler) (device : I2cDevice) : List I2cEntry :=
  match h with
  | .config => device.configEntries
  | _ => device.entries

/-- A handler with a device makes one access, with the driver of the device. -/
theorem run_of_target (hw : Hardware) (reply : Prot2Reply)
    (hdevice : h.target request = some device) :
    ∃ a, (h.run hw request reply).accesses = [a] ∧ a.device = some device ∧
      a.entries = h.entries device := by
  cases h with
  | wr =>
      obtain ⟨⟨d, address⟩, htarget, hd⟩ := Option.map_eq_some_iff.mp hdevice
      obtain rfl : d = device := hd
      simp only [run, handleI2cWr_eq, htarget]
      exact ⟨_, rfl, rfl, rfl⟩
  | rd =>
      obtain ⟨⟨d, address⟩, htarget, hd⟩ := Option.map_eq_some_iff.mp hdevice
      obtain rfl : d = device := hd
      simp only [run, handleI2cRd_eq, htarget]
      exact ⟨_, rfl, rfl, rfl⟩
  | config =>
      have htarget : configTarget request = some device := hdevice
      simp only [run, handleUserI2cConfig_eq, htarget]
      exact ⟨_, rfl, rfl, rfl⟩

/-- A handler without a device touches nothing. -/
theorem run_of_none (hw : Hardware) (reply : Prot2Reply) (hdevice : h.target request = none) :
    (h.run hw request reply).accesses = [] ∧
      (h.run hw request reply).ret = .unknownDevice := by
  cases h with
  | wr =>
      have htarget : i2cTarget request = none := Option.map_eq_none_iff.mp hdevice
      simp [run, handleI2cWr_eq, htarget]
  | rd =>
      have htarget : i2cTarget request = none := Option.map_eq_none_iff.mp hdevice
      simp [run, handleI2cRd_eq, htarget]
  | config =>
      have htarget : configTarget request = none := hdevice
      simp [run, handleUserI2cConfig_eq, htarget]

/-- All three handlers find a clock device by the same rule. -/
theorem target_silab (hid : request.byte 3 = I2C_SILAB_DEVICE) :
    h.target request = silab (request.byte 4) := by
  cases h with
  | wr => simp [target, i2cTarget, hid, Option.map_map, Function.comp_def]
  | rd => simp [target, i2cTarget, hid, Option.map_map, Function.comp_def]
  | config => simp [target, configTarget, hid]

/-- Only clock devices are configured. -/
theorem target_config (hid : request.byte 3 ≠ I2C_SILAB_DEVICE) :
    config.target request = none := by
  simp [target, configTarget, hid]

/-- An SFP is found for every index. -/
theorem target_sfp (hh : h ≠ config) (hid : request.byte 3 = I2C_SFP_DEVICE) :
    h.target request = some (.sfp (request.byte 4) (request.byte 5)) := by
  have hsilab : ¬ I2C_SFP_DEVICE = I2C_SILAB_DEVICE := by decide
  have hsfpp : ¬ I2C_SFP_DEVICE = I2C_SFPP_DEVICE := by decide
  cases h with
  | config => exact absurd rfl hh
  | wr => simp [target, i2cTarget, hid, hsilab, hsfpp]
  | rd => simp [target, i2cTarget, hid, hsilab, hsfpp]

/-- So is an SFP+. -/
theorem target_sfpp (hh : h ≠ config) (hid : request.byte 3 = I2C_SFPP_DEVICE) :
    h.target request = some (.sfpp (request.byte 4) (request.byte 5)) := by
  have hsilab : ¬ I2C_SFPP_DEVICE = I2C_SILAB_DEVICE := by decide
  cases h with
  | config => exact absurd rfl hh
  | wr => simp [target, i2cTarget, hid, hsilab]
  | rd => simp [target, i2cTarget, hid, hsilab]

/-- No other device is found. -/
theorem target_other (hsilab : request.byte 3 ≠ I2C_SILAB_DEVICE)
    (hsfp : request.byte 3 ≠ I2C_SFP_DEVICE) (hsfpp : request.byte 3 ≠ I2C_SFPP_DEVICE) :
    h.target request = none := by
  cases h with
  | config => exact target_config hsilab
  | wr => simp [target, i2cTarget, hsilab, hsfp, hsfpp]
  | rd => simp [target, i2cTarget, hsilab, hsfp, hsfpp]

end I2cHandler

/-- The index of a clock device. -/
theorem silab_cases (index : UInt8) :
    index < 6 ∧ silab index = some (.si5338 index) ∨
    6 ≤ index ∧ index < 30 ∧ silab index = some (.si5375 (index - 6)) ∨
    30 ≤ index ∧ silab index = none := by
  by_cases hfirst : index < 6
  · exact .inl ⟨hfirst, if_pos hfirst⟩
  · have h6 : 6 ≤ index := UInt8.not_lt.mp hfirst
    by_cases hsecond : index < 30
    · exact .inr (.inl ⟨h6, hsecond, by rw [silab, if_neg hfirst, if_pos hsecond]⟩)
    · exact .inr (.inr ⟨UInt8.not_lt.mp hsecond, by
        rw [silab, if_neg hfirst, if_neg hsecond]⟩)

/-! ### What exists -/

section bounds

variable {h : I2cHandler} {hw : Hardware} {request : Prot2Buffer} {reply : Prot2Reply}
  {device : I2cDevice}

/-- All of an SI5338 exists, with the lines of its configuration. -/
theorem entries_si5338 {index : UInt8} (hindex : index < 6) :
    ∀ e ∈ h.entries (.si5338 index), e.Exists := by
  have hlt : index.toNat < SI5338_COUNT := UInt8.lt_iff_toNat_lt.mp hindex
  intro e he
  cases h with
  | config =>
      rcases List.mem_cons.mp he with rfl | hline
      · exact hlt
      · obtain ⟨line, hmem, rfl⟩ := List.mem_map.mp hline
        exact ⟨hlt, List.mem_range.mp hmem⟩
  | wr =>
      obtain rfl := List.mem_singleton.mp he
      exact hlt
  | rd =>
      obtain rfl := List.mem_singleton.mp he
      exact hlt

/-- The address of a port is read first, so an SI5375 is in bounds for the ports of one. -/
theorem entries_si5375_iff {port : UInt8} :
    (∀ e ∈ h.entries (.si5375 port), e.Exists) ↔ port.toNat < SI5375_OUTPUT_COUNT := by
  constructor
  · intro hall
    refine hall (.silabOutputAddress port.toNat) ?_
    cases h with
    | config => exact List.mem_cons_self
    | wr => exact List.mem_cons_self
    | rd => exact List.mem_cons_self
  · intro hport e he
    have hdevice : port.toNat < SI5375_COUNT := Nat.lt_trans hport (by decide)
    have hpair : ∀ e ∈ (I2cDevice.si5375 port).entries, e.Exists := by
      intro e he
      rcases List.mem_cons.mp he with rfl | hsecond
      · exact hport
      · obtain rfl := List.mem_singleton.mp hsecond
        exact hdevice
    cases h with
    | config =>
        rcases List.mem_cons.mp he with rfl | hrest
        · exact hport
        · rcases List.mem_cons.mp hrest with rfl | hline
          · exact hdevice
          · rw [if_pos hport] at hline
            obtain ⟨line, hmem, rfl⟩ := List.mem_map.mp hline
            exact ⟨hdevice, hport, List.mem_range.mp hmem⟩
    | wr => exact hpair e he
    | rd => exact hpair e he

/-- A request whose handler has a device is safe if the driver stays in bounds, the port and
the kind are right, and the device is not one that should be unknown. -/
theorem i2cSafe_of_target (hdevice : h.target request = some device)
    (hentries : ∀ e ∈ h.entries device, e.Exists)
    (hslot : ∀ s, device.slot = some s → s.2 < SI5375_OUTPUT_COUNT)
    (hkind : ∀ (i : Fin INTERFACE_COUNT) kind, device.cast = some (i.val, kind) →
      customInitTransceiverData i = kind)
    (hnames : h.Names request) : I2cSafe h request (h.run hw request reply) := by
  obtain ⟨a, haccesses, ha, hae⟩ :=
    I2cHandler.run_of_target hw reply hdevice
  have hone : ∀ b ∈ (h.run hw request reply).accesses, b = a := by
    intro b hb
    rw [haccesses] at hb
    exact List.mem_singleton.mp hb
  constructor
  · intro b hb
    rw [hone b hb, hae]
    exact hentries
  · intro b hb d hd s hs
    rw [hone b hb, ha] at hd
    obtain rfl := Option.some.inj hd
    exact hslot s hs
  · intro b hb d hd i kind hc
    rw [hone b hb, ha] at hd
    obtain rfl := Option.some.inj hd
    exact hkind i kind hc
  · exact fun hnot => absurd hnames hnot

/-- A request without a device is safe. -/
theorem i2cSafe_of_none (hdevice : h.target request = none) :
    I2cSafe h request (h.run hw request reply) := by
  obtain ⟨haccesses, hret⟩ := I2cHandler.run_of_none hw reply hdevice
  constructor
  · simp [haccesses]
  · simp [haccesses]
  · simp [haccesses]
  · exact fun _ => hret

/-- The driver of a safe request stays in bounds. -/
theorem I2cSafe.entries (hsafe : I2cSafe h request (h.run hw request reply))
    (hdevice : h.target request = some device) : ∀ e ∈ h.entries device, e.Exists := by
  obtain ⟨a, haccesses, -, hae⟩ :=
    I2cHandler.run_of_target hw reply hdevice
  rw [← hae]
  exact hsafe.inBounds a (haccesses ▸ List.mem_singleton_self a)

/-- The driver of a safe request gets the kind of device it asks for. -/
theorem I2cSafe.kind (hsafe : I2cSafe h request (h.run hw request reply))
    (hdevice : h.target request = some device) (i : Fin INTERFACE_COUNT) {kind : TransceiverKind}
    (hcast : device.cast = some (i.val, kind)) : customInitTransceiverData i = kind := by
  obtain ⟨a, haccesses, ha, -⟩ :=
    I2cHandler.run_of_target hw reply hdevice
  exact hsafe.ownKind a (haccesses ▸ List.mem_singleton_self a) device ha i kind hcast

/-- The port that an index stands for. -/
theorem toNat_sub_six {index : UInt8} (h6 : 6 ≤ index) :
    (index - 6).toNat = index.toNat - 6 :=
  UInt8.toNat_sub_of_le index 6 h6

/-- A request for a clock device is safe unless its index is that of a fifth port. -/
theorem i2cSafe_silab_iff (hid : request.byte 3 = I2C_SILAB_DEVICE) :
    I2cSafe h request (h.run hw request reply) ↔
      ¬ (10 ≤ request.byte 4 ∧ request.byte 4 < 30) := by
  have hnames : h.Names request ↔ request.byte 4 < 30 := by
    rw [I2cHandler.Names, if_pos hid]
  rcases silab_cases (request.byte 4) with ⟨hlt, hsilab⟩ | ⟨h6, h30, hsilab⟩ | ⟨h30, hsilab⟩
  · have hnot : ¬ (10 ≤ request.byte 4 ∧ request.byte 4 < 30) := by
      rintro ⟨h10, -⟩
      have : request.byte 4 < 10 := UInt8.lt_trans hlt (by decide)
      exact absurd h10 (UInt8.not_le.mpr this)
    refine iff_of_true ?_ hnot
    refine i2cSafe_of_target ((I2cHandler.target_silab hid).trans hsilab)
      (entries_si5338 hlt) ?_ ?_ (hnames.mpr (UInt8.lt_trans hlt (by decide)))
    · intro s hs
      cases hs
    · intro i kind hcast
      cases hcast
  · have htarget := (I2cHandler.target_silab (h := h) hid).trans hsilab
    have h6' : 6 ≤ (request.byte 4).toNat := UInt8.le_iff_toNat_le.mp h6
    have hport : (request.byte 4 - 6).toNat < SI5375_OUTPUT_COUNT ↔
        ¬ (10 ≤ request.byte 4 ∧ request.byte 4 < 30) := by
      rw [toNat_sub_six h6]
      have h10 : 10 ≤ request.byte 4 ↔ 10 ≤ (request.byte 4).toNat := UInt8.le_iff_toNat_le
      simp only [SI5375_OUTPUT_COUNT, h10, h30, and_true]
      omega
    rw [← hport]
    constructor
    · intro hsafe
      exact entries_si5375_iff.mp (hsafe.entries htarget)
    · intro hlt
      refine i2cSafe_of_target htarget (entries_si5375_iff.mpr hlt) ?_ ?_ (hnames.mpr h30)
      · intro s hs
        obtain rfl := Option.some.inj hs
        exact hlt
      · intro i kind hcast
        cases hcast
  · refine iff_of_true (i2cSafe_of_none ((I2cHandler.target_silab hid).trans hsilab)) ?_
    rintro ⟨-, hlt⟩
    exact absurd h30 (UInt8.not_le.mpr hlt)

/-- A register of an SFP is accessed safely on the interfaces of the card. -/
theorem i2cSafe_sfp_iff (hh : h ≠ .config) (hid : request.byte 3 = I2C_SFP_DEVICE) :
    I2cSafe h request (h.run hw request reply) ↔ (request.byte 4).toNat < INTERFACE_COUNT := by
  have htarget := I2cHandler.target_sfp hh hid
  have hentries : h.entries (.sfp (request.byte 4) (request.byte 5)) =
      [.interface (request.byte 4).toNat] := by
    cases h with
    | config => exact absurd rfl hh
    | wr => rfl
    | rd => rfl
  constructor
  · intro hsafe
    exact hsafe.entries htarget (.interface (request.byte 4).toNat)
      (hentries ▸ List.mem_singleton_self _)
  · intro hlt
    have hnames : h.Names request := by
      rw [I2cHandler.Names, if_neg (by rw [hid]; decide), if_neg hh]
      exact ⟨⟨_, hlt⟩, rfl, .inl ⟨hid, rfl⟩⟩
    refine i2cSafe_of_target htarget ?_ ?_ ?_ hnames
    · intro e he
      obtain rfl := List.mem_singleton.mp (hentries ▸ he)
      exact hlt
    · intro s hs
      cases hs
    · intro i kind hcast
      obtain ⟨-, rfl⟩ := Prod.mk.inj (Option.some.inj hcast)
      rfl

/-- No register of an SFP+ is accessed safely: no interface has one. -/
theorem i2cSafe_sfpp_not (hh : h ≠ .config) (hid : request.byte 3 = I2C_SFPP_DEVICE) :
    ¬ I2cSafe h request (h.run hw request reply) := by
  intro hsafe
  have htarget := I2cHandler.target_sfpp hh hid
  have hlt : (request.byte 4).toNat < INTERFACE_COUNT := by
    refine hsafe.entries htarget (.interface (request.byte 4).toNat) ?_
    cases h with
    | config => exact absurd rfl hh
    | wr => exact List.mem_singleton_self _
    | rd => exact List.mem_singleton_self _
  have hkind := hsafe.kind htarget ⟨_, hlt⟩ rfl
  cases hkind

/-- The requests that touch only what exists. -/
theorem i2cSafe_run_iff : I2cSafe h request (h.run hw request reply) ↔ I2cFine h request := by
  by_cases hsilab : request.byte 3 = I2C_SILAB_DEVICE
  · have hsfpp : request.byte 3 ≠ I2C_SFPP_DEVICE := by rw [hsilab]; decide
    have hsfp : request.byte 3 ≠ I2C_SFP_DEVICE := by rw [hsilab]; decide
    rw [i2cSafe_silab_iff hsilab]
    exact ⟨fun hindex => ⟨fun _ => hindex, fun _ => ⟨hsfpp, fun hid => absurd hid hsfp⟩⟩,
      fun hfine => hfine.1 hsilab⟩
  · by_cases hh : h = .config
    · subst hh
      exact iff_of_true (i2cSafe_of_none (I2cHandler.target_config hsilab))
        ⟨fun hid => absurd hid hsilab, fun hconfig => absurd rfl hconfig⟩
    · by_cases hsfpp : request.byte 3 = I2C_SFPP_DEVICE
      · exact iff_of_false (i2cSafe_sfpp_not hh hsfpp) fun hfine => (hfine.2 hh).1 hsfpp
      · by_cases hsfp : request.byte 3 = I2C_SFP_DEVICE
        · rw [i2cSafe_sfp_iff hh hsfp]
          exact ⟨fun hlt => ⟨fun hid => absurd hid hsilab, fun _ => ⟨hsfpp, fun _ => hlt⟩⟩,
            fun hfine => (hfine.2 hh).2 hsfp⟩
        · exact iff_of_true (i2cSafe_of_none (I2cHandler.target_other hsilab hsfp hsfpp))
            ⟨fun hid => absurd hid hsilab, fun _ => ⟨hsfpp, fun hid => absurd hid hsfp⟩⟩

/-! ### What is reached -/

/-- An index reaches one device, at the port with the number of the device. -/
theorem reaches_iff {index : UInt8} {d : Fin SI5375_COUNT} {p : Fin SI5375_OUTPUT_COUNT} :
    h.Reaches index d p ↔ index.toNat = 6 + d.val ∧ d.val = p.val := by
  constructor
  · rintro ⟨hw, request, reply, hid, rfl, a, hmem, device, hdevice, hslot⟩
    rcases silab_cases (request.byte 4) with ⟨-, hsilab⟩ | ⟨h6, -, hsilab⟩ | ⟨-, hsilab⟩
    · obtain ⟨b, haccesses, hb, -⟩ := I2cHandler.run_of_target hw reply
        ((I2cHandler.target_silab (h := h) hid).trans hsilab)
      obtain rfl : a = b := List.mem_singleton.mp (haccesses ▸ hmem)
      obtain rfl := Option.some.inj (hb.symm.trans hdevice)
      cases hslot
    · obtain ⟨b, haccesses, hb, -⟩ := I2cHandler.run_of_target hw reply
        ((I2cHandler.target_silab (h := h) hid).trans hsilab)
      obtain rfl : a = b := List.mem_singleton.mp (haccesses ▸ hmem)
      obtain rfl := Option.some.inj (hb.symm.trans hdevice)
      obtain ⟨hd, hp⟩ := Prod.mk.inj (Option.some.inj hslot)
      have h6' : 6 ≤ (request.byte 4).toNat := UInt8.le_iff_toNat_le.mp h6
      rw [toNat_sub_six h6] at hd hp
      omega
    · obtain ⟨haccesses, -⟩ := I2cHandler.run_of_none hw reply
        ((I2cHandler.target_silab (h := h) hid).trans hsilab)
      rw [haccesses] at hmem
      cases hmem
  · rintro ⟨hindex, hport⟩
    have hd := d.isLt
    have h6 : 6 ≤ index := UInt8.le_iff_toNat_le.mpr (by
      rw [hindex]
      exact Nat.le_add_right 6 d.val)
    have h30 : index < 30 := UInt8.lt_iff_toNat_lt.mpr (by
      rw [hindex]
      simp only [SI5375_COUNT] at hd
      exact Nat.lt_of_lt_of_le (Nat.add_lt_add_left hd 6) (by decide))
    let request := Prot2Buffer.ofBytes [0, 0, 0, I2C_SILAB_DEVICE, index]
    have hid : request.byte 3 = I2C_SILAB_DEVICE := Prot2Buffer.byte_ofBytes (by decide)
    have hbyte : request.byte 4 = index := Prot2Buffer.byte_ofBytes (by decide)
    have hsilab : silab (request.byte 4) = some (.si5375 (index - 6)) := by
      rw [hbyte, silab, if_neg (UInt8.not_lt.mpr h6), if_pos h30]
    obtain ⟨a, haccesses, ha, -⟩ := I2cHandler.run_of_target Hardware.idle Prot2Reply.empty
      ((I2cHandler.target_silab (h := h) hid).trans hsilab)
    refine ⟨Hardware.idle, request, Prot2Reply.empty, hid, hbyte, a,
      haccesses ▸ List.mem_singleton_self a, _, ha, ?_⟩
    simp only [I2cDevice.slot, toNat_sub_six h6, hindex, ← hport, Nat.add_sub_cancel_left]

/-- Of the pairs of a device and a port, the ones with equal numbers are reached by exactly one
index, and the others by none. -/
theorem existsUnique_reaches_iff {d : Fin SI5375_COUNT} {p : Fin SI5375_OUTPUT_COUNT} :
    (∃! index, h.Reaches index d p) ↔ d.val = p.val := by
  constructor
  · rintro ⟨index, hreaches, -⟩
    exact (reaches_iff.mp hreaches).2
  · intro hport
    have hd := d.isLt
    have hsmall : 6 + d.val < 256 := by
      simp only [SI5375_COUNT] at hd
      omega
    have hvalue : (UInt8.ofNat (6 + d.val)).toNat = 6 + d.val := UInt8.toNat_ofNat_of_lt' hsmall
    refine ⟨UInt8.ofNat (6 + d.val), reaches_iff.mpr ⟨hvalue, hport⟩, ?_⟩
    intro index hreaches
    exact UInt8.toNat_inj.mp ((reaches_iff.mp hreaches).1.trans hvalue.symm)

end bounds

/-! ### The bounds of the handlers -/

/-- No request makes a handler leave the arrays or mistake a device, and every port of every
SI5375 has an index of its own. -/
def I2cBounds : Prop :=
  (∀ h hw request reply, I2cSafe h request (h.run hw request reply)) ∧
    ∀ (h : I2cHandler) (d : Fin SI5375_COUNT) (p : Fin SI5375_OUTPUT_COUNT),
      ∃! index, h.Reaches index d p

/-- **Which requests stay in bounds**: those with no index from the fifth of the SI5375 on, with
an interface of the card for an SFP, and not for an SFP+. A port of an SI5375 is reached by
exactly one index if it has the number of the device. -/
theorem i2cSafe_iff (h : I2cHandler) (hw : Hardware) (request : Prot2Buffer) (reply : Prot2Reply)
    (d : Fin SI5375_COUNT) (p : Fin SI5375_OUTPUT_COUNT) :
    (I2cSafe h request (h.run hw request reply) ↔ I2cFine h request) ∧
      ((∃! index, h.Reaches index d p) ↔ d.val = p.val) :=
  ⟨i2cSafe_run_iff, existsUnique_reaches_iff⟩

/-- **A port that no SI5375 has**: the index 10 should be the first port of the second device,
and is the fifth port of the fifth. A read from an interface behind the last one, and one that
takes an SFP for an SFP+. -/
theorem i2cBounds_not :
    ¬ I2cSafe .rd (.ofBytes [8, 0, 0, 1, 10, 0])
        (I2cHandler.rd.run .idle (.ofBytes [8, 0, 0, 1, 10, 0]) .empty) ∧
      ¬ I2cSafe .rd (.ofBytes [9, 0, 0, 3, 200, 0, 0])
        (I2cHandler.rd.run .idle (.ofBytes [9, 0, 0, 3, 200, 0, 0]) .empty) ∧
      ¬ I2cSafe .rd (.ofBytes [9, 0, 0, 4, 0, 0, 0])
        (I2cHandler.rd.run .idle (.ofBytes [9, 0, 0, 4, 0, 0, 0]) .empty) ∧
      (¬ ∃ index, I2cHandler.rd.Reaches index ⟨0, by decide⟩ ⟨1, by decide⟩) ∧ ¬ I2cBounds := by
  have hbyte (w : List UInt8) {i : ℕ} (hi : i < 5) :
      (Prot2Buffer.ofBytes w).byte i = w.getD i 0 :=
    Prot2Buffer.byte_ofBytes (Nat.lt_trans hi (by decide))
  have hport : ¬ I2cSafe .rd (.ofBytes [8, 0, 0, 1, 10, 0])
      (I2cHandler.rd.run .idle (.ofBytes [8, 0, 0, 1, 10, 0]) .empty) := by
    rw [i2cSafe_silab_iff (hbyte _ (by decide)), hbyte _ (by decide)]
    decide
  refine ⟨hport, ?_, ?_, ?_, fun hbounds => hport (hbounds.1 ..)⟩
  · rw [i2cSafe_sfp_iff (by decide) (hbyte _ (by decide)), hbyte _ (by decide)]
    decide
  · exact i2cSafe_sfpp_not (by decide) (hbyte _ (by decide))
  · rintro ⟨index, hreaches⟩
    exact absurd (reaches_iff.mp hreaches).2 (by decide)

end Muxponder

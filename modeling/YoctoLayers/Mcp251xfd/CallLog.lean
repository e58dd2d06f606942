import YoctoLayers.Mcp251xfd.Fork

/-! The calls out of the driver as a log, and `mcp251xfd_handle_rxif_one` as a reader of the
controller's RAM: which bytes of an RX object can reach the receiver. -/
namespace YoctoLayers.Mcp251xfd
open YoctoLayers.Lib

variable {σ : Type}

abbrev CallLog := List (KernelCall × ℤ)

/-- The frames given to the receive offload. -/
def CallLog.queued (log : CallLog) : List (Frame × UInt32) :=
  log.filterMap fun entry =>
    match entry.1 with
    | .queueSorted frame ts => some (frame, ts)
    | _ => none

@[simp] theorem CallLog.queued_append (log log' : CallLog) :
    CallLog.queued (log ++ log') = log.queued ++ log'.queued :=
  List.filterMap_append

@[simp] theorem CallLog.queued_queueSorted (frame : Frame) (ts : UInt32) (r : ℤ) :
    CallLog.queued [(.queueSorted frame ts, r)] = [(frame, ts)] :=
  rfl

namespace Env

/-- The outside, with a log of the calls and their results. -/
def logged (env : Env σ) : Env (σ × CallLog) where
  board := env.board
  read reg len s :=
    let (r, t) := env.read reg len s.1
    (r, t, s.2)
  readCrc reg len s :=
    let (r, t) := env.readCrc reg len s.1
    (r, t, s.2)
  write reg data s :=
    let (r, t) := env.write reg data s.1
    (r, t, s.2)
  reset s :=
    let (r, t) := env.reset s.1
    (r, t, s.2)
  polls reg s :=
    let (r, t) := env.polls reg s.1
    (r, t, s.2)
  rxPending s :=
    let (r, t) := env.rxPending s.1
    (r, t, s.2)
  call c s :=
    let (r, t) := env.call c s.1
    (r, t, s.2 ++ [(c, r)])

/-- An outside where every access succeeds and every read brings zeros. -/
def quiet (board : Board) : Env Unit where
  board := board
  read _ len _ := ((0, List.replicate len 0), ())
  readCrc reg len _ :=
    ((0, List.replicate len 0, crc16Compute2 (spiCmdReadCrc reg len) (List.replicate len 0)), ())
  write _ _ _ := (0, ())
  reset _ := (0, ())
  polls _ _ := (0, ())
  rxPending _ := (false, ())
  call _ _ := (0, ())

theorem note_logged (env : Env σ) (c : KernelCall) (w : World (σ × CallLog)) :
    env.logged.note c w =
      .ok () { w with
        env := ((env.call c w.env.1).2, w.env.2 ++ [(c, (env.call c w.env.1).1)]) } :=
  rfl

end Env

namespace HwRxObj

/-- The DLC of a received frame. -/
def dlc (rx : HwRxObj) : UInt8 := (objFlagsDlc.get rx.flags).toUInt8

/-- The number of payload bytes: a remote frame has none. -/
def payloadLen (K : DlcHelpers) (rx : HwRxObj) : ℕ :=
  if rx.flags &&& objFlagsFdf ≠ 0 then (K.canFdDlc2len rx.dlc).toNat
  else if rx.flags &&& objFlagsRtr ≠ 0 then 0
  else (canCcDlc2len rx.dlc).toNat

/-- One frame in two RAM slots: what follows the payload may differ. -/
structure SameFrame (K : DlcHelpers) (rx rx' : HwRxObj) : Prop where
  id_eq : rx'.id = rx.id
  flags_eq : rx'.flags = rx.flags
  ts_eq : rx'.ts = rx.ts
  data_eq : ∀ i : Fin 64, i.val < rx.payloadLen K → rx'.data.get i = rx.data.get i

end HwRxObj

variable {K : DlcHelpers}

/-- The length that `mcp251xfd_hw_rx_obj_to_skb` copies. -/
theorem DlcHelpers.rxSkb_len (rx : HwRxObj) :
    (K.rxSkb rx).cfd.len =
      if rx.flags &&& objFlagsFdf ≠ 0 then K.canFdDlc2len rx.dlc else canCcDlc2len rx.dlc := by
  unfold rxSkb hwRxObjToSkb
  split_ifs <;> rfl

/-- What the frame says, the copied bytes apart, comes from the id and the flags. -/
theorem DlcHelpers.rxSkb_data (rx : HwRxObj) (data : Data) :
    K.rxSkb { rx with data := data } =
      { K.rxSkb rx with
        cfd :=
          { (K.rxSkb rx).cfd with
            data := memcpy (Vector.replicate 64 0) data (K.rxSkb rx).cfd.len.toNat } } := by
  unfold rxSkb hwRxObjToSkb
  split_ifs <;> rfl

/-- A frame whose payload is all that is copied comes out the same from either slot. -/
theorem HwRxObj.SameFrame.rxSkb {rx rx' : HwRxObj} (h : rx.SameFrame K rx')
    (hlen : (K.rxSkb rx).cfd.len.toNat ≤ rx.payloadLen K) : K.rxSkb rx' = K.rxSkb rx := by
  have hrx' : rx' = { rx with data := rx'.data } := by
    obtain ⟨hid, hflags, hts, -⟩ := h
    cases rx'
    simp_all
  have hdata : memcpy (Vector.replicate 64 0) rx'.data (K.rxSkb rx).cfd.len.toNat =
      memcpy (Vector.replicate 64 0) rx.data (K.rxSkb rx).cfd.len.toNat := by
    apply data_ext
    intro i
    simp only [get_memcpy]
    split_ifs with hi
    · exact h.data_eq i (hi.trans_le hlen)
    · rfl
  rw [hrx', K.rxSkb_data rx rx'.data, hdata, ← K.rxSkb_data rx rx.data]

/-- Everything copied is payload, unless a remote frame has a length. -/
theorem DlcHelpers.rxSkb_len_le_iff (rx : HwRxObj) :
    (K.rxSkb rx).cfd.len.toNat ≤ rx.payloadLen K ↔
      rx.flags &&& objFlagsFdf ≠ 0 ∨ rx.flags &&& objFlagsRtr = 0 ∨ rx.dlc = 0 := by
  have hzero : (canCcDlc2len rx.dlc).toNat ≤ 0 ↔ rx.dlc = 0 := by
    rw [Nat.le_zero, ← UInt8.toNat_zero, UInt8.toNat_inj]
    change (if rx.dlc ≤ canMaxDlen then rx.dlc else canMaxDlen) = 0 ↔ rx.dlc = 0
    split_ifs with hle
    · rfl
    · have hne : rx.dlc ≠ 0 := fun hdlc => hle (hdlc ▸ UInt8.zero_le)
      exact iff_of_false (by decide) hne
  rw [K.rxSkb_len, HwRxObj.payloadLen]
  by_cases hfdf : rx.flags &&& objFlagsFdf = 0
  · by_cases hrtr : rx.flags &&& objFlagsRtr = 0
    · simp [hfdf, hrtr]
    · simp [hfdf, hrtr, hzero]
  · simp [hfdf]

namespace Driver

/-- One frame from `mcp251xfd_handle_rxif_one`, in the log of a kernel that grants everything. -/
theorem handleRxifOne_quiet {d : Driver (Unit × CallLog)} {board : Board}
    (hd : d.env = (Env.quiet board).logged) (rx : HwRxObj) (w : World (Unit × CallLog)) :
    d.handleRxifOne rx w =
      .ok () { w with
        env := ((), w.env.2 ++ [(.allocSkb (rx.flags &&& objFlagsFdf ≠ 0), 0)] ++
          [(.queueSorted (.can (board.dlc.rxSkb rx)) rx.ts, 0)]) } := by
  unfold handleRxifOne
  rw [hd]
  rfl

end Driver

/-- A driver whose deliveries are logged. -/
def quietDriver (K : DlcHelpers) : Driver (Unit × CallLog) :=
  Fork.driver (Env.quiet { Bench.board with dlc := K }).logged
    ⟨Fork.dvUnset, Fork.dvUnset, false, false⟩

namespace HwRxObj

/-- The object with another first byte. -/
def touch (rx : HwRxObj) : HwRxObj :=
  { rx with data := Vector.ofFn fun i => if i.val = 0 then rx.data.get i + 1 else rx.data.get i }

theorem sameFrame_touch {rx : HwRxObj} (h : rx.payloadLen K = 0) : rx.SameFrame K rx.touch where
  id_eq := by simp only [touch]
  flags_eq := by simp only [touch]
  ts_eq := by simp only [touch]
  data_eq i hi := by
    rw [h] at hi
    exact absurd hi (Nat.not_lt_zero _)

/-- Whoever sees the delivered frame sees its first byte, if there is one. -/
theorem handleRxifOne_touch_ne {rx : HwRxObj} (hlen : 0 < (K.rxSkb rx).cfd.len.toNat) :
    (quietDriver K).handleRxifOne rx ≠ (quietDriver K).handleRxifOne rx.touch := by
  intro heq
  have hruns := congrFun heq ⟨((), []), Priv.alloc, 0, []⟩
  have hquiet := Driver.handleRxifOne_quiet (d := quietDriver K) (Eq.refl (quietDriver K).env)
  rw [hquiet rx, hquiet rx.touch] at hruns
  have hskb : K.rxSkb rx = K.rxSkb rx.touch := by
    simp only [EStateM.Result.ok.injEq, World.mk.injEq, Prod.mk.injEq, List.cons_append,
      List.nil_append, List.cons.injEq, KernelCall.queueSorted.injEq, Frame.can.injEq, and_true,
      true_and] at hruns
    exact hruns.2.1
  have htouch : K.rxSkb rx.touch = _ := K.rxSkb_data rx rx.touch.data
  have hbyte : (K.rxSkb rx).cfd.data.get 0 = rx.data.get 0 + 1 := by
    rw [hskb, htouch]
    simp [touch, hlen]
  have hself := K.rxSkb_data rx rx.data
  have : (K.rxSkb rx).cfd.data.get 0 = rx.data.get 0 := by
    rw [hself]
    simp [hlen]
  rw [this] at hbyte
  exact absurd hbyte (by simp)

end HwRxObj

/-- Two RAM slots that hold one frame are delivered alike, whatever an earlier frame left in
them, unless it is a remote frame with a length: its bytes are copied, though it has none. -/
theorem handle_rxif_one_eq_iff (K : DlcHelpers) (rx : HwRxObj) :
    (∀ (σ : Type) (d : Driver σ), d.env.board.dlc = K → ∀ rx', rx.SameFrame K rx' →
        d.handleRxifOne rx' = d.handleRxifOne rx) ↔
      rx.flags &&& objFlagsFdf ≠ 0 ∨ rx.flags &&& objFlagsRtr = 0 ∨ rx.dlc = 0 := by
  rw [← K.rxSkb_len_le_iff]
  constructor
  · intro h
    by_contra hlen
    have hpay : rx.payloadLen K = 0 := by
      have hcond := mt (K.rxSkb_len_le_iff rx).mpr hlen
      push Not at hcond
      simp [HwRxObj.payloadLen, hcond]
    exact HwRxObj.handleRxifOne_touch_ne (by omega)
      (h _ (quietDriver K) rfl _ (HwRxObj.sameFrame_touch hpay)).symm
  · intro hlen σ d hd rx' hrx'
    subst hd
    unfold Driver.handleRxifOne
    rw [hrx'.rxSkb hlen, hrx'.flags_eq, hrx'.ts_eq]

namespace HwRxObj

/-- A remote frame with DLC 1 in a slot where an earlier frame left `0xab`. -/
def remote : HwRxObj where
  id := 0x123
  flags := 0x21
  ts := 0
  data := Vector.replicate 64 0xab

end HwRxObj

theorem handle_rxif_one_leaks :
    ∃ rx' : HwRxObj, HwRxObj.remote.SameFrame kernelDlc rx' ∧
      (quietDriver kernelDlc).handleRxifOne rx' ≠
        (quietDriver kernelDlc).handleRxifOne HwRxObj.remote :=
  ⟨HwRxObj.remote.touch, HwRxObj.sameFrame_touch (by decide),
    (HwRxObj.handleRxifOne_touch_ne (by decide)).symm⟩

end YoctoLayers.Mcp251xfd

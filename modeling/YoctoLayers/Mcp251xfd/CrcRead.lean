import YoctoLayers.Mcp251xfd.Keeps

/-! `mcp251xfd_regmap_crc_read` statement by statement, with the backwards `goto crc_reread` of the
modified driver and the caller's buffer. -/
namespace YoctoLayers.Mcp251xfd
open YoctoLayers.Lib

/-- What `spi_sync` of a READ_CRC message comes to: its error code, and the data and the CRC that
are in the receive buffer after it. -/
structure SpiOutcome (len : ℕ) where
  err : ℤ
  data : Vector UInt8 len
  crc : UInt16

/-- `mcp251xfd_regmap_crc_read_one`. -/
def SpiOutcome.readOne {len : ℕ} (o : SpiOutcome len) (reg : UInt16) : ℤ :=
  if o.err ≠ 0 then o.err
  else if o.crc ≠ crc16Compute2 (spiCmdReadCrc reg len) o.data.toList then -ebadmsg
  else 0

namespace CrcRead

/-- Where in the function the next statement is. -/
inductive Label
  /-- `crc_reread:` -/
  | reread
  /-- The head of the `for` loop. -/
  | loop
  /-- `if (err)` after the loop. -/
  | failed
  /-- `out:` -/
  | out
  | ret (err : ℤ)
deriving DecidableEq, Repr

structure Vars (len : ℕ) where
  label : Label
  i : ℕ
  err : ℤ
  crcReadI : ℕ
  /-- How often `spi_sync` has been called. -/
  transfers : ℕ
  /-- `buf_rx->data`. -/
  bufRx : Vector UInt8 len
  valBuf : Vector UInt8 len

variable {len : ℕ}

/-- One statement; the driver jumps back to `crc_reread` at most `rereadsMax` times. -/
def step (rereadsMax : ℕ) (spi : ℕ → SpiOutcome len) (reg : UInt16) (v : Vars len) : Vars len :=
  match v.label with
  | .reread => { v with i := 0, label := .loop }
  | .loop =>
    if v.i < readCrcRetriesMax then
      let o := spi v.transfers
      let err := o.readOne reg
      let v := { v with err := err, transfers := v.transfers + 1, bufRx := o.data }
      if err = 0 then { v with label := .out }
      else if err ≠ -ebadmsg then { v with label := .ret err }
      else if reg = regOsc then { v with err := 0, label := .out }
      else { v with i := v.i + 1 }
    else { v with label := .failed }
  | .failed =>
    if v.err ≠ 0 then
      let label := if v.crcReadI < rereadsMax then .reread else .ret v.err
      { v with crcReadI := v.crcReadI + 1, label := label }
    else { v with label := .out }
  | .out => { v with valBuf := v.bufRx, label := .ret 0 }
  | .ret _ => v

/-- `if (crc_read_i++ < 2)`. -/
def forkRereads : ℕ := 2

/-- `mcp251xfd.orig` never jumps back. -/
def origRereads : ℕ := 0

/-- At the start `i`, `err` and the receive buffer hold anything. -/
def start (i : ℕ) (err : ℤ) (bufRx valBuf : Vector UInt8 len) : Vars len :=
  ⟨.reread, i, err, 0, 0, bufRx, valBuf⟩

/-- A reply that makes the loop go on. -/
def Bad (spi : ℕ → SpiOutcome len) (reg : UInt16) (k : ℕ) : Prop :=
  reg ≠ regOsc ∧ (spi k).readOne reg = -ebadmsg

/-- The result when reply `o` decides: a bad CRC of OSC is ignored. -/
def code (o : SpiOutcome len) (reg : UInt16) : ℤ :=
  if o.readOne reg = -ebadmsg then 0 else o.readOne reg

/-- What a call comes to: its result, the number of transfers and the caller's buffer. The first
reply that is not bad decides. -/
inductive Ends (rereadsMax : ℕ) (spi : ℕ → SpiOutcome len) (reg : UInt16)
    (valBuf : Vector UInt8 len) :
    ℤ → ℕ → Vector UInt8 len → Prop
  | decided {k : ℕ} (hk : k < 3 * (rereadsMax + 1)) (hbad : ∀ j < k, Bad spi reg j)
      (hdec : ¬ Bad spi reg k) :
      Ends rereadsMax spi reg valBuf (code (spi k) reg) (k + 1)
        (if code (spi k) reg = 0 then (spi k).data else valBuf)
  | exhausted (hbad : ∀ j < 3 * (rereadsMax + 1), Bad spi reg j) :
      Ends rereadsMax spi reg valBuf (-ebadmsg) (3 * (rereadsMax + 1)) valBuf

/-- Running `v` comes to `err` after `transfers` transfers with `buf` in the caller's buffer. -/
def Returns (rereadsMax : ℕ) (spi : ℕ → SpiOutcome len) (reg : UInt16) (v : Vars len) (err : ℤ)
    (transfers : ℕ) (buf : Vector UInt8 len) : Prop :=
  ∃ n, let u := (step rereadsMax spi reg)^[n] v
    u.label = .ret err ∧ u.transfers = transfers ∧ u.valBuf = buf

section
variable {rereadsMax : ℕ} {spi : ℕ → SpiOutcome len} {reg : UInt16}

theorem Returns.of_step {v : Vars len} {err : ℤ} {transfers : ℕ} {buf : Vector UInt8 len}
    (h : Returns rereadsMax spi reg (step rereadsMax spi reg v) err transfers buf) :
    Returns rereadsMax spi reg v err transfers buf := by
  obtain ⟨n, hn⟩ := h
  exact ⟨n + 1, by simpa only [Function.iterate_succ_apply] using hn⟩

theorem Returns.ret {v : Vars len} {err : ℤ} (h : v.label = .ret err) :
    Returns rereadsMax spi reg v err v.transfers v.valBuf :=
  ⟨0, h, rfl, rfl⟩

/-- At the head of the loop all replies so far were bad. -/
structure InLoop (rereadsMax : ℕ) (spi : ℕ → SpiOutcome len) (reg : UInt16)
    (valBuf : Vector UInt8 len) (v : Vars len) : Prop where
  label : v.label = .loop
  i_le : v.i ≤ 3
  rereads : v.crcReadI ≤ rereadsMax
  transfers : v.transfers = 3 * v.crcReadI + v.i
  bad : ∀ j < v.transfers, Bad spi reg j
  err : 0 < v.i → v.err = -ebadmsg
  valBuf : v.valBuf = valBuf

theorem step_loop {v : Vars len} (hl : v.label = .loop) (hi : v.i < 3) :
    step rereadsMax spi reg v =
      let o := spi v.transfers
      let err := o.readOne reg
      let v := { v with err := err, transfers := v.transfers + 1, bufRx := o.data }
      if err = 0 then { v with label := .out }
      else if err ≠ -ebadmsg then { v with label := .ret err }
      else if reg = regOsc then { v with err := 0, label := .out }
      else { v with i := v.i + 1 } := by
  unfold step
  rw [hl]
  exact if_pos hi

theorem Returns.out {v : Vars len} (hl : v.label = .out) :
    Returns rereadsMax spi reg v 0 v.transfers v.bufRx := by
  have hstep : step rereadsMax spi reg v = { v with valBuf := v.bufRx, label := .ret 0 } := by
    unfold step
    rw [hl]
  apply Returns.of_step
  rw [hstep]
  exact Returns.ret rfl

/-- After three bad replies the driver jumps back or gives up. -/
theorem InLoop.failed {valBuf : Vector UInt8 len} {v : Vars len}
    (h : InLoop rereadsMax spi reg valBuf v) (hi : v.i = 3) :
    if v.crcReadI < rereadsMax then
      step rereadsMax spi reg (step rereadsMax spi reg (step rereadsMax spi reg v)) =
        { v with crcReadI := v.crcReadI + 1, i := 0 }
    else Returns rereadsMax spi reg v (-ebadmsg) v.transfers v.valBuf := by
  have herr : v.err = -ebadmsg := h.err (by omega)
  have hfirst : step rereadsMax spi reg v = { v with label := .failed } := by
    unfold step
    rw [h.label, hi]
    exact if_neg (by decide)
  have hsecond : step rereadsMax spi reg { v with label := .failed } =
      let label := if v.crcReadI < rereadsMax then .reread else .ret v.err
      { v with crcReadI := v.crcReadI + 1, label := label } := by
    apply if_pos
    change v.err ≠ 0
    rw [herr]
    decide
  split_ifs with hc
  · rw [hfirst, hsecond, if_pos hc]
    change ({ v with crcReadI := v.crcReadI + 1, i := 0, label := .loop } : Vars len) = _
    rw [← h.label]
  · apply Returns.of_step
    rw [hfirst]
    apply Returns.of_step
    rw [hsecond, if_neg hc, herr]
    exact Returns.ret rfl

section
variable {valBuf : Vector UInt8 len} {v : Vars len}

/-- A reply that is not bad ends the call, with its data or with its error. -/
theorem InLoop.returns_of_decided (h : InLoop rereadsMax spi reg valBuf v) (hi : v.i < 3)
    (hdec : ¬ Bad spi reg v.transfers) :
    Returns rereadsMax spi reg v (code (spi v.transfers) reg) (v.transfers + 1)
      (if code (spi v.transfers) reg = 0 then (spi v.transfers).data else valBuf) := by
  have hstep : step rereadsMax spi reg v = _ := step_loop h.label hi
  apply Returns.of_step
  by_cases h0 : (spi v.transfers).readOne reg = 0
  · have hcode : code (spi v.transfers) reg = 0 := by
      rw [code, h0]
      decide
    rw [hstep, hcode]
    simp only [if_pos h0, if_true]
    exact Returns.out rfl
  by_cases herr : (spi v.transfers).readOne reg = -ebadmsg
  · have hosc : reg = regOsc := by_contra fun hosc => hdec ⟨hosc, herr⟩
    have hcode : code (spi v.transfers) reg = 0 := if_pos herr
    rw [hstep, hcode]
    simp only [if_neg h0, if_neg (not_not.mpr herr), if_pos hosc, if_true]
    exact Returns.out rfl
  · have hcode : code (spi v.transfers) reg = (spi v.transfers).readOne reg := if_neg herr
    rw [hstep, hcode]
    simp only [if_neg h0, if_pos herr]
    have hret : Returns rereadsMax spi reg
        { v with
          err := (spi v.transfers).readOne reg
          transfers := v.transfers + 1
          bufRx := (spi v.transfers).data
          label := .ret ((spi v.transfers).readOne reg) }
        ((spi v.transfers).readOne reg) (v.transfers + 1) v.valBuf := Returns.ret rfl
    rw [← h.valBuf]
    exact hret

theorem step_of_bad (hl : v.label = .loop) (hi : v.i < 3) (hbad : Bad spi reg v.transfers) :
    step rereadsMax spi reg v =
      { v with
        err := (spi v.transfers).readOne reg
        transfers := v.transfers + 1
        bufRx := (spi v.transfers).data
        i := v.i + 1 } := by
  have h0 : ¬ (spi v.transfers).readOne reg = 0 := fun h0 =>
    absurd (h0.symm.trans hbad.2) (by decide)
  rw [step_loop hl hi]
  simp only [if_neg h0, if_neg (not_not.mpr hbad.2), if_neg hbad.1]

/-- A bad reply leads to the next attempt. -/
theorem InLoop.step_bad (h : InLoop rereadsMax spi reg valBuf v) (hi : v.i < 3)
    (hbad : Bad spi reg v.transfers) :
    InLoop rereadsMax spi reg valBuf (step rereadsMax spi reg v) := by
  have ht := h.transfers
  rw [step_of_bad h.label hi hbad]
  refine ⟨h.label, Nat.succ_le_of_lt hi, h.rereads, ?_, fun j hj => ?_, fun _ => hbad.2, h.valBuf⟩
  · change v.transfers + 1 = 3 * v.crcReadI + (v.i + 1)
    omega
  · rcases Nat.lt_succ_iff_lt_or_eq.mp hj with hj | rfl
    · exact h.bad j hj
    · exact hbad

/-- A jump back leads to the head of the loop. -/
theorem InLoop.reread (h : InLoop rereadsMax spi reg valBuf v) (hi : v.i = 3)
    (hc : v.crcReadI < rereadsMax) :
    InLoop rereadsMax spi reg valBuf { v with crcReadI := v.crcReadI + 1, i := 0 } := by
  have ht := h.transfers
  refine ⟨h.label, Nat.zero_le _, hc, ?_, h.bad, fun h0 => absurd h0 (Nat.lt_irrefl 0), h.valBuf⟩
  change v.transfers = 3 * (v.crcReadI + 1) + 0
  omega

/-- From the head of the loop the function returns; the induction is on the transfers and the
jumps that are left. -/
theorem InLoop.returns (h : InLoop rereadsMax spi reg valBuf v) :
    ∃ err t buf, Returns rereadsMax spi reg v err t buf ∧
      Ends rereadsMax spi reg valBuf err t buf := by
  induction hm : 3 * (rereadsMax + 1) - v.transfers + (rereadsMax - v.crcReadI) using
    Nat.strong_induction_on generalizing v with
  | _ m ih =>
    have hle := h.i_le
    have hre := h.rereads
    have ht := h.transfers
    by_cases hi : v.i < 3
    · have hk : v.transfers < 3 * (rereadsMax + 1) := by omega
      by_cases hbad : Bad spi reg v.transfers
      · have hless : 3 * (rereadsMax + 1) - (step rereadsMax spi reg v).transfers +
            (rereadsMax - (step rereadsMax spi reg v).crcReadI) < m := by
          rw [step_of_bad h.label hi hbad]
          dsimp only
          omega
        obtain ⟨err, t, buf, hr, he⟩ := ih _ hless (h.step_bad hi hbad) rfl
        exact ⟨err, t, buf, hr.of_step, he⟩
      · exact ⟨_, _, _, h.returns_of_decided hi hbad, Ends.decided hk h.bad hbad⟩
    · have h3 : v.i = 3 := by omega
      have hfailed := h.failed h3
      split_ifs at hfailed with hc
      · have hless : 3 * (rereadsMax + 1) - v.transfers + (rereadsMax - (v.crcReadI + 1)) < m := by
          omega
        obtain ⟨err, t, buf, hr, he⟩ := ih _ hless (h.reread h3 hc) rfl
        rw [← hfailed] at hr
        exact ⟨err, t, buf, hr.of_step.of_step.of_step, he⟩
      · have hend : v.transfers = 3 * (rereadsMax + 1) := by omega
        have hbad := h.bad
        rw [hend, h.valBuf] at hfailed
        rw [hend] at hbad
        exact ⟨_, _, _, hfailed, Ends.exhausted hbad⟩

end

/-- A call returns, with the outcome that the replies decide. -/
theorem start_returns (rereadsMax : ℕ) (spi : ℕ → SpiOutcome len) (reg : UInt16) (i : ℕ) (err : ℤ)
    (bufRx valBuf : Vector UInt8 len) :
    ∃ err' t buf, Returns rereadsMax spi reg (start i err bufRx valBuf) err' t buf ∧
      Ends rereadsMax spi reg valBuf err' t buf := by
  have hloop : InLoop rereadsMax spi reg valBuf
      (step rereadsMax spi reg (start i err bufRx valBuf)) :=
    ⟨rfl, Nat.zero_le _, Nat.zero_le _, rfl, fun j hj => absurd hj (Nat.not_lt_zero j),
      fun h0 => absurd h0 (Nat.lt_irrefl 0), rfl⟩
  obtain ⟨err', t, buf, hr, he⟩ := hloop.returns
  exact ⟨err', t, buf, hr.of_step, he⟩

theorem Returns.unique {v : Vars len} {err err' : ℤ} {t t' : ℕ} {buf buf' : Vector UInt8 len}
    (h : Returns rereadsMax spi reg v err t buf) (h' : Returns rereadsMax spi reg v err' t' buf') :
    err = err' ∧ t = t' ∧ buf = buf' := by
  obtain ⟨n, hl, ht, hb⟩ := h
  obtain ⟨n', hl', ht', hb'⟩ := h'
  have hfixed {u : Vars len} {e : ℤ} (hu : u.label = .ret e) (k : ℕ) :
      (step rereadsMax spi reg)^[k] u = u := by
    refine Function.iterate_fixed ?_ k
    unfold step
    rw [hu]
  have hsame : (step rereadsMax spi reg)^[n] v = (step rereadsMax spi reg)^[n'] v := by
    rcases Nat.le_total n n' with hle | hle
    · rw [← Nat.sub_add_cancel hle, Function.iterate_add_apply, hfixed hl]
    · rw [← Nat.sub_add_cancel hle, Function.iterate_add_apply _ _ n', hfixed hl']
  rw [hsame] at hl ht hb
  exact ⟨Label.ret.inj (hl.symm.trans hl'), ht.symm.trans ht', hb.symm.trans hb'⟩

namespace Ends
variable {valBuf : Vector UInt8 len} {err : ℤ} {t : ℕ} {buf : Vector UInt8 len}

/-- Data that come within the first tries come whether the driver would jump back or not. -/
theorem of_data (h : Ends rereadsMax spi reg valBuf 0 t buf) {more : ℕ} (hle : rereadsMax ≤ more) :
    Ends more spi reg valBuf 0 t buf := by
  generalize herr : (0 : ℤ) = e at h
  cases h with
  | decided hk hbad hdec => exact decided (by omega) hbad hdec
  | exhausted hbad => exact absurd herr (by decide)

theorem unique {err' : ℤ} {t' : ℕ} {buf' : Vector UInt8 len}
    (h : Ends rereadsMax spi reg valBuf err t buf)
    (h' : Ends rereadsMax spi reg valBuf err' t' buf') :
    err = err' ∧ t = t' ∧ buf = buf' := by
  cases h with
  | @decided k hk hbad hdec =>
    cases h' with
    | @decided k' hk' hbad' hdec' =>
      have hsame : k = k' := by
        by_contra hne
        rcases Nat.lt_or_gt_of_ne hne with hlt | hlt
        · exact hdec (hbad' k hlt)
        · exact hdec' (hbad k' hlt)
      subst hsame
      exact ⟨rfl, rfl, rfl⟩
    | exhausted hbad' => exact absurd (hbad' k hk) hdec
  | exhausted hbad =>
    cases h' with
    | @decided k' hk' hbad' hdec' => exact absurd (hbad k' hk') hdec'
    | exhausted hbad' => exact ⟨rfl, rfl, rfl⟩

theorem transfers_le (h : Ends rereadsMax spi reg valBuf err t buf) : t ≤ 3 * (rereadsMax + 1) := by
  cases h with
  | decided hk _ _ => exact hk
  | exhausted _ => exact le_rfl

theorem data_of_ok (h : Ends rereadsMax spi reg valBuf err t buf) (h0 : err = 0) :
    ∃ k, t = k + 1 ∧ buf = (spi k).data ∧ (reg ≠ regOsc → (spi k).readOne reg = 0) := by
  cases h with
  | @decided k hk hbad hdec =>
    refine ⟨k, rfl, if_pos h0, fun hosc => ?_⟩
    unfold code at h0
    split_ifs at h0 with hmsg
    · exact absurd ⟨hosc, hmsg⟩ hdec
    · exact h0
  | exhausted hbad => exact absurd h0 (by decide)

theorem valBuf_of_error (h : Ends rereadsMax spi reg valBuf err t buf) (h0 : err ≠ 0) :
    buf = valBuf := by
  cases h with
  | decided hk hbad hdec => exact if_neg h0
  | exhausted hbad => rfl

theorem of_ebadmsg (h : Ends rereadsMax spi reg valBuf err t buf) (hmsg : err = -ebadmsg) :
    t = 3 * (rereadsMax + 1) ∧ ∀ k < 3 * (rereadsMax + 1), (spi k).readOne reg = -ebadmsg := by
  cases h with
  | @decided k hk hbad hdec =>
    unfold code at hmsg
    split_ifs at hmsg with h
    · exact absurd hmsg (by decide)
    · exact absurd hmsg h
  | exhausted hbad => exact ⟨rfl, fun k hk => (hbad k hk).2⟩

/-- A transfer that fails ends the call. -/
theorem of_transfer (h : Ends rereadsMax spi reg valBuf err t buf) {k : ℕ} (hk : k < t)
    (h0 : (spi k).err ≠ 0) (hmsg : (spi k).err ≠ -ebadmsg) : err = (spi k).err ∧ t = k + 1 := by
  have hone : (spi k).readOne reg = (spi k).err := if_pos h0
  have hgood : ¬ Bad spi reg k := fun hb => hmsg (hone ▸ hb.2)
  cases h with
  | @decided k' hk' hbad hdec =>
    have hsame : k = k' := by
      by_contra hne
      exact hgood (hbad k (by omega))
    subst hsame
    rw [← hone] at hmsg ⊢
    exact ⟨if_neg hmsg, rfl⟩
  | exhausted hbad => exact absurd (hbad k hk) hgood

end Ends

theorem readOne_eq_zero {o : SpiOutcome len} :
    o.readOne reg = 0 ↔
      o.err = 0 ∧ o.crc = crc16Compute2 (spiCmdReadCrc reg len) o.data.toList := by
  unfold SpiOutcome.readOne
  split_ifs with herr hcrc
  · simp [herr]
  · simp only [not_not.mp herr, true_and, hcrc, iff_false]
    decide
  · simp [not_not.mp herr, not_not.mp hcrc]

end

/-- `mcp251xfd_regmap_crc_read` of the modified driver on every sequence of replies. -/
theorem fork_returns (spi : ℕ → SpiOutcome len) (reg : UInt16) (i : ℕ) (err₀ : ℤ)
    (bufRx valBuf : Vector UInt8 len) :
    ∃ err t buf, Returns forkRereads spi reg (start i err₀ bufRx valBuf) err t buf ∧ t ≤ 9 ∧
      (err = 0 → ∃ k, t = k + 1 ∧ buf = (spi k).data ∧ (reg ≠ regOsc → (spi k).err = 0 ∧
        (spi k).crc = crc16Compute2 (spiCmdReadCrc reg len) (spi k).data.toList)) ∧
      (∀ k < t, (spi k).err ≠ 0 → (spi k).err ≠ -ebadmsg → err = (spi k).err ∧ t = k + 1) ∧
      (err = -ebadmsg → t = 9 ∧ ∀ k < 9, (spi k).readOne reg = -ebadmsg) ∧
      (err ≠ 0 → buf = valBuf) ∧
      (∀ i' err' bufRx' t' buf',
        Returns origRereads spi reg (start i' err' bufRx' valBuf) 0 t' buf' →
        err = 0 ∧ t = t' ∧ buf = buf') := by
  obtain ⟨err, t, buf, hret, hends⟩ := start_returns forkRereads spi reg i err₀ bufRx valBuf
  refine ⟨err, t, buf, hret, hends.transfers_le, fun h0 => ?_, fun k hk => hends.of_transfer hk,
    hends.of_ebadmsg, hends.valBuf_of_error, ?_⟩
  · obtain ⟨k, ht, hbuf, hone⟩ := hends.data_of_ok h0
    exact ⟨k, ht, hbuf, fun hosc => readOne_eq_zero.mp (hone hosc)⟩
  · intro i' err' bufRx' t' buf' horig
    obtain ⟨err₁, t₁, buf₁, hret₁, hends₁⟩ :=
      start_returns origRereads spi reg i' err' bufRx' valBuf
    obtain ⟨rfl, rfl, rfl⟩ := horig.unique hret₁
    exact hends.unique (hends₁.of_data (Nat.zero_le _))

section
variable {spi : ℕ → SpiOutcome len} {reg : UInt16} {env : Env ℕ}

/-- Reply `k` decides, and the transfers stop there. -/
structure DoneAt (spi : ℕ → SpiOutcome len) (reg : UInt16) (bound : ℕ) (c : ℤ) (k : ℕ)
    (w : World ℕ) : Prop where
  lt : k < bound
  bad : ∀ j < k, Bad spi reg j
  dec : ¬ Bad spi reg k
  code_eq : code (spi k) reg = c
  transfers : w.env = k + 1

/-- `t` transfers have been made, all of them bad. -/
def AllBad (spi : ℕ → SpiOutcome len) (reg : UInt16) (t : ℕ) (w : World ℕ) : Prop :=
  w.env = t ∧ ∀ j < t, Bad spi reg j

theorem DoneAt.mono {bound bound' : ℕ} {c : ℤ} {k : ℕ} {w : World ℕ}
    (h : DoneAt spi reg bound c k w) (hle : bound ≤ bound') : DoneAt spi reg bound' c k w :=
  { h with lt := h.lt.trans_le hle }

variable (hspi : ∀ n, env.readCrc reg len n =
  (((spi n).err, (spi n).data.toList, (spi n).crc), n + 1))
include hspi

theorem ensures_readOne (t : ℕ) :
    Ensures (AllBad spi reg t) (env.regmapCrcReadOne reg len)
      (fun r w => r = ((spi t).readOne reg, (spi t).data.toList) ∧ w.env = t + 1 ∧
        ∀ j < t, Bad spi reg j) fun _ _ => False := by
  refine Ensures.bind (Q := fun r w => r = ((spi t).err, (spi t).data.toList, (spi t).crc) ∧
    w.env = t + 1 ∧ ∀ j < t, Bad spi reg j) ?_ fun r => ?_
  · refine DrvM.ensures_access _ fun w hw => ?_
    rw [hw.1, hspi]
    exact ⟨rfl, rfl, hw.2⟩
  · by_cases hr : r = ((spi t).err, (spi t).data.toList, (spi t).crc)
    · subst hr
      refine Ensures.ite (fun herr => Ensures.pure fun w hw => ⟨?_, hw.2⟩) fun herr => ?_
      · rw [SpiOutcome.readOne, if_pos herr]
      · refine Ensures.ite (fun hcrc => Ensures.pure fun w hw => ⟨?_, hw.2⟩) fun hcrc =>
          Ensures.pure fun w hw => ⟨?_, hw.2⟩
        · rw [SpiOutcome.readOne, if_neg herr, if_pos hcrc]
        · rw [SpiOutcome.readOne, if_neg herr, if_neg hcrc]
    · exact Ensures.of_false fun w hw => hr hw.1

theorem ensures_tries (t tries : ℕ) :
    Ensures (AllBad spi reg t) (env.regmapCrcReadTries reg len tries)
      (fun r w =>
        match r with
        | none => AllBad spi reg (t + tries) w
        | some data => ∃ k, DoneAt spi reg (t + tries) 0 k w ∧ data = (spi k).data.toList)
      fun e w => e ≠ 0 ∧ ∃ k, DoneAt spi reg (t + tries) e k w := by
  induction tries generalizing t with
  | zero => exact Ensures.pure fun _ hw => hw
  | succ tries ih =>
    refine Ensures.bind (ensures_readOne hspi t).neverFails fun r => ?_
    by_cases hr : r = ((spi t).readOne reg, (spi t).data.toList)
    · subst hr
      have hdone {c : ℤ} {w : World ℕ} (hdec : ¬ Bad spi reg t) (hc : code (spi t) reg = c)
          (hw : w.env = t + 1 ∧ ∀ j < t, Bad spi reg j) : DoneAt spi reg (t + (tries + 1)) c t w :=
        ⟨by omega, hw.2, hdec, hc, hw.1⟩
      refine Ensures.ite (fun h0 => Ensures.pure fun w hw => ⟨t, hdone ?_ ?_ hw.2, rfl⟩)
        fun h0 => ?_
      · exact fun hb => absurd (h0.symm.trans hb.2) (by decide)
      · have h0 : (spi t).readOne reg = 0 := h0
        rw [code, h0]
        decide
      refine Ensures.ite (fun herr => Ensures.throw fun w hw => ⟨h0, t, hdone ?_ ?_ hw.2⟩)
        fun hmsg => ?_
      · exact fun hb => herr hb.2
      · exact if_neg herr
      have hmsg : (spi t).readOne reg = -ebadmsg := not_not.mp hmsg
      refine Ensures.ite (fun hosc => Ensures.pure fun w hw => ⟨t, hdone ?_ ?_ hw.2, rfl⟩)
        fun hosc => ?_
      · exact fun hb => hb.1 hosc
      · exact if_pos hmsg
      have hnext : t + 1 + tries = t + (tries + 1) := by omega
      refine (hnext ▸ ih (t + 1)).pre (fun w hw => ⟨hw.2.1, fun j hj => ?_⟩)
      rcases Nat.lt_succ_iff_lt_or_eq.mp hj with hj | rfl
      · exact hw.2.2 j hj
      · exact ⟨hosc, hmsg⟩
    · exact Ensures.of_false fun w hw => hr hw.1

/-- The result of a call in the driver's own terms, with `bound` transfers at most. -/
def Failed (spi : ℕ → SpiOutcome len) (reg : UInt16) (bound : ℕ) (e : ℤ) (w : World ℕ) : Prop :=
  (e ≠ 0 ∧ ∃ k, DoneAt spi reg bound e k w) ∨ e = -ebadmsg ∧ AllBad spi reg bound w

theorem ensures_tries_le {t tries bound : ℕ} (hle : t + tries ≤ bound) :
    Ensures (AllBad spi reg t) (env.regmapCrcReadTries reg len tries)
      (fun r w =>
        match r with
        | none => AllBad spi reg (t + tries) w
        | some data => ∃ k, DoneAt spi reg bound 0 k w ∧ data = (spi k).data.toList)
      (Failed spi reg bound) := by
  refine (ensures_tries hspi t tries).imp (fun _ hw => hw) (fun r w hw => ?_) fun e w he => ?_
  · cases r with
    | none => exact hw
    | some data =>
      obtain ⟨k, hk, hdata⟩ := hw
      exact ⟨k, hk.mono hle, hdata⟩
  · obtain ⟨h0, k, hk⟩ := he
    exact Or.inl ⟨h0, k, hk.mono hle⟩

theorem ensures_reread {t rereads bound : ℕ} (hbound : t + 3 * (rereads + 1) = bound) :
    Ensures (AllBad spi reg t) (env.regmapCrcReread reg len rereads)
      (fun data w => ∃ k, DoneAt spi reg bound 0 k w ∧ data = (spi k).data.toList)
      (Failed spi reg bound) := by
  have hmax : readCrcRetriesMax = 3 := rfl
  induction rereads generalizing t with
  | zero =>
    refine (ensures_tries_le hspi (show t + readCrcRetriesMax ≤ bound by omega)).bind fun r => ?_
    cases r with
    | none => exact Ensures.throw fun w hw => Or.inr ⟨rfl, hbound ▸ hw⟩
    | some data => exact Ensures.pure fun w hw => hw
  | succ rereads ih =>
    refine (ensures_tries_le hspi (show t + readCrcRetriesMax ≤ bound by omega)).bind fun r => ?_
    cases r with
    | none => exact ih (by omega)
    | some data => exact Ensures.pure fun w hw => hw

/-- The driver's `mcp251xfd_regmap_crc_read`, from the first transfer on, comes to what the
statements of the function come to. -/
theorem regmapCrcRead_ends (valBuf : Vector UInt8 len) {w : World ℕ} (hw : w.env = 0) :
    match Fork.regmapCrcRead env reg len w with
    | .ok data w' => ∃ buf, Ends forkRereads spi reg valBuf 0 w'.env buf ∧ data = buf.toList
    | .error e w' => Ends forkRereads spi reg valBuf e w'.env valBuf := by
  have hrun := ensures_iff.mp (ensures_reread hspi (Nat.zero_add (3 * (forkRereads + 1)))) w
    ⟨hw, fun j hj => absurd hj (Nat.not_lt_zero j)⟩
  unfold Fork.regmapCrcRead
  change match env.regmapCrcReread reg len forkRereads w with
    | .ok data w' => ∃ buf, Ends forkRereads spi reg valBuf 0 w'.env buf ∧ data = buf.toList
    | .error e w' => Ends forkRereads spi reg valBuf e w'.env valBuf
  cases hr : env.regmapCrcReread reg len forkRereads w with
  | ok data w' =>
    rw [hr] at hrun
    obtain ⟨k, hk, hdata⟩ := hrun
    have hends : Ends forkRereads spi reg valBuf _ _ _ := Ends.decided hk.lt hk.bad hk.dec
    rw [hk.code_eq, if_pos rfl, ← hk.transfers] at hends
    exact ⟨_, hends, hdata⟩
  | error e w' =>
    rw [hr] at hrun
    rcases hrun with ⟨h0, k, hk⟩ | ⟨rfl, hbad⟩
    · have hends : Ends forkRereads spi reg valBuf _ _ _ := Ends.decided hk.lt hk.bad hk.dec
      rw [hk.code_eq, if_neg h0, ← hk.transfers] at hends
      exact hends
    · have hends : Ends forkRereads spi reg valBuf _ _ _ := Ends.exhausted hbad.2
      rw [← hbad.1] at hends
      exact hends

end

end CrcRead

end YoctoLayers.Mcp251xfd

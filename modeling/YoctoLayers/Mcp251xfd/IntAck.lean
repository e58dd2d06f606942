import YoctoLayers.Mcp251xfd.IntChip

/-! Events, reads and writes on INT: what survives them, what a read of INT brings, and what the
acknowledge of `mcp251xfd_irq` clears. -/
namespace YoctoLayers.Mcp251xfd
open YoctoLayers.Lib

namespace IntChip
variable {τ : Type}

theorem testBit_clearable (i : ℕ) :
    intIfClearable.toNat.testBit i =
      decide (i = 15 ∨ i = 14 ∨ i = 13 ∨ i = 12 ∨ i = 3) := by
  unfold intIfClearable intIvmif intWakif intCerrif intSerrif intModif
  simp only [testBit_or, testBit_bit (show 15 < 32 by decide), testBit_bit (show 14 < 32 by decide),
    testBit_bit (show 13 < 32 by decide), testBit_bit (show 12 < 32 by decide),
    testBit_bit (show 3 < 32 by decide), Bool.decide_or, Bool.or_assoc]

theorem testBit_happen_int (c : IntChip τ) (set drop : UInt32) {i : ℕ} (hi : i < 32) :
    (c.happen set drop).int.toNat.testBit i =
      (c.int.toNat.testBit i && !(drop.toNat.testBit i && decide (i < 16) &&
        !intIfClearable.toNat.testBit i) || set.toNat.testBit i && decide (i < 16)) := by
  unfold happen
  simp only [testBit_or, testBit_and, testBit_not, testBit_intIf, hi, decide_true, Bool.true_and]

/-- Events do not change the enables. -/
theorem ie_happen (c : IntChip τ) (set drop : UInt32) :
    intIe.get (c.happen set drop).int = intIe.get c.int := by
  apply eq_of_testBit
  intro i
  rw [Field.testBit_get, Field.testBit_get]
  by_cases hi : intIe.lo + i ≤ intIe.hi
  · have hhi : intIe.hi = 31 := rfl
    have hlo : ¬ intIe.lo + i < 16 := by simp only [intIe]; omega
    rw [testBit_happen_int c set drop (show intIe.lo + i < 32 by omega)]
    simp [hlo]
  · simp [hi]

/-- A property of INT that survives everything but writes to INT. -/
structure Stable (X : IntChip τ → Prop) : Prop where
  happen : ∀ c set drop, X c → X (c.happen set drop)
  rest : ∀ c s, X c → X { c with rest := s }
  serve : ∀ c flags, X c → X { c with unserved := c.unserved &&& ~~~flags }

/-- The enables are `ie`, and an event whose flag is enabled and clearable and whose handler has
not started since has left its flag in INT or in `todo`. -/
structure Todo (ie todo : UInt32) (c : IntChip τ) : Prop where
  enables : intIe.get c.int = ie
  kept : ∀ i, c.unserved.toNat.testBit i → ie.toNat.testBit i →
    intIfClearable.toNat.testBit i → c.int.toNat.testBit i ∨ todo.toNat.testBit i

/-- The enables are `ie`, and only flags of `flags` have been cleared. -/
structure Within (ie flags : UInt32) (c : IntChip τ) : Prop where
  enables : intIe.get c.int = ie
  cleared : ∀ i, c.cleared.toNat.testBit i → flags.toNat.testBit i

theorem lt_of_clearable {i : ℕ} (h : intIfClearable.toNat.testBit i) : i < 16 := by
  rw [testBit_clearable, decide_eq_true_eq] at h
  omega

theorem Todo.stable (ie todo : UInt32) : Stable fun c : IntChip τ => c.Todo ie todo where
  happen c set drop h := by
    refine ⟨(ie_happen c set drop).trans h.enables, fun i hun hie hcl => ?_⟩
    have hi := lt_of_clearable hcl
    have hun : c.unserved.toNat.testBit i ∨ set.toNat.testBit i := by
      simp only [happen, testBit_or, testBit_and, Bool.or_eq_true, Bool.and_eq_true] at hun
      exact hun.imp_right And.left
    rw [testBit_happen_int c set drop (by omega), hcl]
    rcases hun with hun | hset
    · rcases h.kept i hun hie hcl with hint | htodo
      · simp [hint]
      · exact Or.inr htodo
    · simp [hset, hi]
  rest _ _ h := ⟨h.enables, h.kept⟩
  serve _ _ h := by
    refine ⟨h.enables, fun i hun hie hcl => h.kept i ?_ hie hcl⟩
    simp only [testBit_and, Bool.and_eq_true] at hun
    exact hun.1

theorem Within.stable (ie flags : UInt32) : Stable fun c : IntChip τ => c.Within ie flags where
  happen c set drop h := ⟨(ie_happen c set drop).trans h.enables, h.cleared⟩
  rest _ _ h := ⟨h.enables, h.cleared⟩
  serve _ _ h := ⟨h.enables, h.cleared⟩

/-- A write from byte 0 of INT on that acknowledges `intf`: the enables stay, and of the flags
only the clearable ones in `intf` are written as `0`. -/
def AckBytes (ie intf : UInt32) (data : List UInt8) : Prop :=
  ∀ i < 32, i / 8 < data.length → (getLe32 data).toNat.testBit i =
    if i < 16 then !(intf.toNat.testBit i && intIfClearable.toNat.testBit i)
    else ie.toNat.testBit (i - 16)

namespace AckBytes
variable {ie intf : UInt32} {data : List UInt8} {c : IntChip τ}

theorem of_word {x : UInt32} {len : ℕ} (hlen : len ≤ 4)
    (h : ∀ i < 8 * len, x.toNat.testBit i =
      if i < 16 then !(intf.toNat.testBit i && intIfClearable.toNat.testBit i)
      else ie.toNat.testBit (i - 16)) : AckBytes ie intf ((le32 x).take len) := by
  intro i hi hbyte
  rw [List.length_take, length_le32] at hbyte
  have hget : ((le32 x).take len).getD (i / 8) 0 = (le32 x).getD (i / 8) 0 := by
    rw [List.getD_eq_getElem?_getD, List.getD_eq_getElem?_getD, List.getElem?_take_of_lt (by omega)]
  have hsplit : 8 * (i / 8) + i % 8 = i := by omega
  rw [testBit_getLe32 _ hi, hget, testBit_le32 x (by omega) (by omega), hsplit]
  exact h i (by omega)

theorem ie_store (h : AckBytes ie intf data) (hie : intIe.get c.int = ie) :
    intIe.get (c.store regInt data).int = ie := by
  rw [← hie]
  apply eq_of_testBit
  intro i
  rw [Field.testBit_get, Field.testBit_get]
  by_cases hi : intIe.lo + i ≤ intIe.hi
  · have hlo : intIe.lo = 16 := rfl
    have hhi : intIe.hi = 31 := rfl
    have hbit : intIe.lo + i < 32 := by omega
    rw [testBit_store_int _ _ hbit]
    split_ifs with hlen hflag
    · omega
    · have hsub : intIe.lo + i - 16 = i := by omega
      rw [h _ hbit hlen, if_neg hflag, hsub, ← hie, Field.testBit_get]
      simp [hi]
    · rfl
  · simp [hi]

/-- A flag that the write clears is clearable and in `intf`. -/
theorem flag_store (h : AckBytes ie intf data) {i : ℕ} (hi : i < 16)
    (hint : c.int.toNat.testBit i) :
    (c.store regInt data).int.toNat.testBit i ∨
      intf.toNat.testBit i ∧ intIfClearable.toNat.testBit i := by
  have hbit : i < 32 := by omega
  rw [testBit_store_int _ _ hbit, if_pos hi, hint]
  split_ifs with hlen
  · rw [h i hbit hlen, if_pos hi]
    cases intf.toNat.testBit i <;> simp
  · exact Or.inl rfl

theorem todo_store (h : AckBytes ie intf data) (hc : c.Todo ie 0) :
    (c.store regInt data).Todo ie intf := by
  refine ⟨h.ie_store hc.enables, fun i hun hie hcl => ?_⟩
  have hint := (hc.kept i hun hie hcl).resolve_right (by simp)
  exact (h.flag_store (lt_of_clearable hcl) hint).imp_right And.left

theorem within_store (h : AckBytes ie intf data) {flags : UInt32} (hc : c.Within ie flags) :
    (c.store regInt data).Within ie (flags ||| intf) := by
  refine ⟨h.ie_store hc.enables, fun i hcl => ?_⟩
  have hcl : c.cleared.toNat.testBit i ∨ (c.int.toNat.testBit i ∧
      ¬ (c.store regInt data).int.toNat.testBit i) ∧ i < 16 := by
    have hcl : (c.cleared |||
        (c.int &&& ~~~(c.store regInt data).int &&& intIf.mask)).toNat.testBit i :=
      hcl
    simp only [testBit_or, testBit_and, testBit_not, testBit_intIf, Bool.or_eq_true,
      Bool.and_eq_true, decide_eq_true_eq, Bool.not_eq_true'] at hcl
    rw [Bool.not_eq_true]
    tauto
  rw [testBit_or, Bool.or_eq_true]
  rcases hcl with hcl | ⟨⟨hint, hgone⟩, hi⟩
  · exact Or.inl (hc.cleared i hcl)
  · exact Or.inr ((h.flag_store hi hint).resolve_left hgone).1

end AckBytes
end IntChip

open IntChip

variable {τ : Type} {b : IntBoard τ} {X Y : IntChip τ → Prop} {P Q : World (IntChip τ) → Prop}

namespace IntBoard

theorem happen_of_stable (hX : Stable X) {c : IntChip τ} (h : X c) : X (b.happen c) :=
  hX.happen c _ _ h

theorem safe (hX : Stable X) : b.env.Safe (fun w => X w.env) AwayFromInt where
  read _ _ _ hw := hX.rest _ _ (happen_of_stable hX hw)
  readCrc reg len w hw := by
    have hrest := hX.rest _ (b.other.readCrc reg len (b.happen w.env).rest).2
      (happen_of_stable (b := b) hX hw)
    simp only [env]
    split_ifs <;> exact hrest
  write reg data w hA hw := by
    have hrest := hX.rest _ (b.other.write reg data (b.happen w.env).rest).2
      (happen_of_stable (b := b) hX hw)
    simp only [env, store_of_away _ hA, ite_self]
    exact hrest
  polls _ _ hw := hX.rest _ _ (happen_of_stable hX hw)
  call c _ hw := hX.serve _ c.starts (hX.rest _ _ (happen_of_stable hX hw))

theorem view_int (c : IntChip τ) (data : List UInt8) : c.view regInt 4 data = le32 c.int := rfl

theorem ensures_spiRead_int (h : b.env.Safe P AwayFromInt) :
    Ensures P (b.env.spiRead regInt 4) (fun data w => P w ∧ data = le32 w.env.int)
      fun _ => P := by
  refine Ensures.bind (Q := fun r w => P w ∧ (r.1 = 0 → r.2 = le32 w.env.int)) ?_ fun r => ?_
  · refine DrvM.ensures_access _ fun w hw => ⟨h.read regInt 4 w hw, fun herr => ?_⟩
    simp only [env] at herr ⊢
    rw [if_pos herr, view_int]
  · refine Ensures.bind (Q := fun _ w => P w ∧ r.2 = le32 w.env.int) ?_ fun _ => ?_
    · refine Ensures.ite (fun herr => ?_) fun _ => Ensures.throw fun w hw => hw.1
      exact Ensures.pure fun w hw => ⟨hw.1, hw.2 herr⟩
    · exact Ensures.pure fun w hw => hw

theorem ensures_crcRead_int (h : b.env.Safe P AwayFromInt) :
    Ensures P ((Fork.bus b.env).crcRead regInt 4) (fun data w => P w ∧ data = le32 w.env.int)
      fun _ => P := by
  refine Env.ensures_crcRead (by decide) (h.readCrc regInt 4) fun w _ herr hcrc => ?_
  simp only [env] at herr hcrc ⊢
  split_ifs at herr hcrc ⊢ with hok
  · exact view_int _ _
  · exact (hok ⟨herr, hcrc⟩).elim

/-- The acknowledge as a write of acknowledging bytes, after reads that keep `P`. -/
theorem ensures_irqAck (h : b.env.Safe P AwayFromInt) {ie : UInt32} (dv : Fork.Dv) (intf : UInt32)
    (hie : ∀ w, P w → intIe.get w.env.int = ie) (hweak : ∀ w, P w → Q w)
    (hack : ∀ data, AckBytes ie intf data →
      Ensures P (b.env.spiWrite regInt data) (fun _ => Q) fun _ => Q) :
    Ensures P ((Fork.driver b.env dv).irqAck intf) (fun _ => Q) fun _ => Q := by
  have hfirst : firstByteSet intIf.mask = 0 := by decide
  have hlast : lastByteSet intIf.mask = 1 := by decide
  refine Ensures.ite (fun _ => ?_) fun _ => Ensures.pure hweak
  refine Ensures.bind (Q := fun _ => P) ?_ fun kind => ?_
  · exact (Bus.keeps_deref (I := P) _).failed fun _ => hweak
  cases kind with
  | nocrc =>
    refine Ensures.ite (fun _ => Ensures.throw hweak) fun _ => ?_
    simp only [hfirst, hlast]
    refine hack _ (AckBytes.of_word (show 2 ≤ 4 by decide) fun i hi => ?_)
    have hi : i < 16 := hi
    simp only [Nat.mul_zero, UInt32.reduceOfNat, UInt32.shiftRight_zero, testBit_or, testBit_and,
      testBit_not, testBit_zero, testBit_intIf, hi, decide_true, if_true, Bool.false_and,
      Bool.false_or, Bool.and_true, show i < 32 by omega, Bool.true_and]
  | crc =>
    refine Ensures.bind (Q := fun data w => P w ∧ data = le32 w.env.int) ?_ fun data => ?_
    · exact (ensures_crcRead_int h).failed fun _ => hweak
    · by_cases horig : intIe.get (getLe32 data) = ie
      · refine Ensures.imp (P := P) (Ensures.ite (fun _ => hack _ ?_) fun _ => Ensures.pure hweak)
          (fun w hw => hw.1) (fun _ _ hw => hw) fun _ _ hw => hw
        refine AckBytes.of_word (show 4 ≤ 4 by decide) fun i hi => ?_
        simp only [testBit_or, testBit_and, testBit_not, testBit_intIf, show i < 32 by omega,
          decide_true, Bool.true_and]
        split_ifs with hlow
        · simp [hlow]
        · have hsum : intIe.lo + (i - 16) = i := by simp only [intIe]; omega
          have hle : i ≤ intIe.hi := by simp only [intIe]; omega
          rw [← horig, Field.testBit_get, hsum]
          simp [hlow, hle]
      · refine Ensures.of_false fun w hw => horig ?_
        rw [hw.2, getLe32_le32]
        exact hie w hw.1

end IntBoard

end YoctoLayers.Mcp251xfd

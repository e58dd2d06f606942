import Mathlib.Data.List.Basic
import YoctoLayers.Lib.Crc

/-! Which transmission errors a cyclic redundancy code finds. The remainder is linear in the
message, so a message with wrong bits passes if and only if the pattern of the wrong bits alone
has the remainder zero. -/
namespace YoctoLayers.Lib.Crc

variable {w reach : ℕ} {poly : BitVec w} {err : List Bool}

/-- The bits of a message, those of `err` turned over. -/
def flip (msg err : List Bool) : List Bool := List.zipWith xor msg err

/-- Whether an odd number of bits is set. -/
def parity (l : List Bool) : Bool := l.foldr xor false

/-- All wrong bits lie within `n` of each other. -/
structure Burst (n : ℕ) (err : List Bool) : Prop where
  wrong : true ∈ err
  window : ∃ i b j, err = List.replicate i false ++ b ++ List.replicate j false ∧ b.length ≤ n

/-- Errors that a code of `w` bits finds in messages of up to `reach` bits: bursts no longer than
the remainder, odd numbers of wrong bits, and pairs of them. -/
inductive Detectable (w reach : ℕ) (err : List Bool) : Prop
  | burst (h : Burst w err)
  | odd (h : parity err = true)
  | pair (h : err.count true = 2) (hlen : err.length ≤ reach)

/-- What the polynomial needs for that: a constant term, an even number of terms in all, and no
power of `x` below `reach` that leaves it where it is. -/
structure Generator (poly : BitVec w) (reach : ℕ) : Prop where
  constant : poly.getLsbD 0 = true
  even : parity (bits poly) = true
  order : ∀ d, 0 < d → d < reach → steps poly d poly ≠ poly

/-- None of `n` words from `c` on is the polynomial. -/
def avoids (poly : BitVec w) : ℕ → BitVec w → Bool
  | 0, _ => true
  | n + 1, c => c != poly && avoids poly n (step poly c)

theorem length_bits {n : ℕ} (x : BitVec n) : (bits x).length = n := by
  rw [bits, List.length_map, List.length_range]

theorem bits_xor {n : ℕ} (x y : BitVec n) : bits (x ^^^ y) = flip (bits x) (bits y) := by
  unfold bits flip
  rw [List.zipWith_map, List.zipWith_self]
  apply List.map_congr_left
  intro i _
  exact BitVec.getMsbD_xor

/-- Every list of the right length is the bits of a word. -/
theorem exists_bits {n : ℕ} {l : List Bool} (hl : l.length = n) : ∃ x : BitVec n, bits x = l := by
  subst hl
  refine ⟨BitVec.ofBoolListBE l, ?_⟩
  apply List.ext_getElem (length_bits _)
  intro i hi hi'
  simp [bits, hi']

theorem bits_zero (n : ℕ) : bits (0 : BitVec n) = List.replicate n false := by
  apply List.ext_getElem (by rw [length_bits, List.length_replicate])
  intro i hi hi'
  simp [bits]

theorem bits_injective {n : ℕ} {x y : BitVec n} (h : bits x = bits y) : x = y := by
  apply BitVec.eq_of_getMsbD_eq
  intro i hi
  have hget : (bits x)[i]? = (bits y)[i]? := by rw [h]
  simpa [bits, hi] using hget

theorem parity_append (a b : List Bool) : parity (a ++ b) = (parity a ^^ parity b) := by
  induction a with
  | nil => simp [parity]
  | cons x a ih =>
    have hcons (l : List Bool) : parity (x :: l) = (x ^^ parity l) := rfl
    rw [List.cons_append, hcons, hcons, ih, Bool.xor_assoc]

theorem parity_flip {a b : List Bool} (h : a.length = b.length) :
    parity (flip a b) = (parity a ^^ parity b) := by
  induction a generalizing b with
  | nil =>
    rw [List.eq_nil_of_length_eq_zero h.symm]
    rfl
  | cons x a ih =>
    cases b with
    | nil => exact absurd h (by simp)
    | cons y b =>
      have hcons (z : Bool) (l : List Bool) : parity (z :: l) = (z ^^ parity l) := rfl
      rw [flip, List.zipWith_cons_cons, hcons, hcons, hcons, ← flip,
        ih (Nat.succ.inj h)]
      simp only [Bool.xor_assoc, Bool.xor_left_comm]

/-! ### The remainder of a pattern -/

theorem bitStep_xor (c d : BitVec w) (a b : Bool) :
    bitStep poly (c ^^^ d) (a ^^ b) = bitStep poly c a ^^^ bitStep poly d b := by
  have htop : ((c.msb ^^ d.msb) ^^ (a ^^ b)) = ((c.msb ^^ a) ^^ (d.msb ^^ b)) := by
    simp only [Bool.xor_assoc, Bool.xor_left_comm]
  unfold bitStep
  rw [BitVec.shiftLeft_xor_distrib, BitVec.msb_xor, htop]
  cases c.msb ^^ a <;> cases d.msb ^^ b
  · simp
  · simp only [Bool.false_xor, if_true, Bool.false_eq_true, if_false]
    ac_rfl
  · simp only [Bool.xor_false, if_true, Bool.false_eq_true, if_false]
    ac_rfl
  · have hcancel : (c <<< 1 ^^^ poly) ^^^ (d <<< 1 ^^^ poly) =
        (c <<< 1 ^^^ d <<< 1) ^^^ (poly ^^^ poly) := by ac_rfl
    simp [hcancel]

/-- The remainder is linear in the message and the initial value. -/
theorem serial_flip {a b : List Bool} (h : a.length = b.length) (c d : BitVec w) :
    serial poly (c ^^^ d) (flip a b) = serial poly c a ^^^ serial poly d b := by
  induction a generalizing b c d with
  | nil =>
    rw [List.eq_nil_of_length_eq_zero h.symm]
    rfl
  | cons x a ih =>
    cases b with
    | nil => exact absurd h (by simp)
    | cons y b =>
      have hcons (e : BitVec w) (z : Bool) (l : List Bool) :
          serial poly e (z :: l) = serial poly (bitStep poly e z) l := rfl
      rw [flip, List.zipWith_cons_cons, hcons, hcons, hcons, bitStep_xor, ← flip,
        ih (Nat.succ.inj h)]

theorem serial_append (c : BitVec w) (a b : List Bool) :
    serial poly c (a ++ b) = serial poly (serial poly c a) b := List.foldl_append

theorem bitStep_false (c : BitVec w) : bitStep poly c false = step poly c := by
  rw [bitStep, Bool.xor_false, step]

theorem steps_succ' (n : ℕ) (c : BitVec w) : steps poly (n + 1) c = steps poly n (step poly c) := by
  induction n with
  | zero => rfl
  | succ n ih => rw [steps, ih, steps]

theorem serial_replicate_false (c : BitVec w) (n : ℕ) :
    serial poly c (List.replicate n false) = steps poly n c := by
  induction n generalizing c with
  | zero => rfl
  | succ n ih =>
    rw [List.replicate_succ, steps_succ', ← ih, ← bitStep_false]
    rfl

theorem steps_zero (n : ℕ) : steps poly n 0#w = 0#w := by
  induction n with
  | zero => rfl
  | succ n ih =>
    rw [steps, ih]
    simp [step]

theorem serial_zero_bits (x : BitVec w) : serial poly 0#w (bits x) = steps poly w x := by
  have h := steps_xor_eq_serial poly 0#w x w
  rw [BitVec.zero_xor, BitVec.shiftLeft_eq_zero le_rfl, BitVec.xor_zero] at h
  exact h.symm

theorem steps_ne_of_avoids {n : ℕ} {c : BitVec w} (h : avoids poly n c = true) {d : ℕ}
    (hd : d < n) : steps poly d c ≠ poly := by
  induction n generalizing c d with
  | zero => exact absurd hd (Nat.not_lt_zero d)
  | succ n ih =>
    obtain ⟨hne, hrest⟩ := Bool.and_eq_true_iff.mp h
    cases d with
    | zero => exact bne_iff_ne.mp hne
    | succ d =>
      rw [steps_succ']
      exact ih hrest (Nat.lt_of_succ_lt_succ hd)

/-- With a constant term nothing but zero steps to zero. -/
theorem eq_zero_of_step (hc : poly.getLsbD 0 = true) {c : BitVec w} (h : step poly c = 0#w) :
    c = 0#w := by
  have hw : 0 < w := BitVec.lt_of_getLsbD hc
  have hbit (i : ℕ) (hi : i < w) : (step poly c).getLsbD i = false := by
    rw [h, BitVec.getLsbD_zero]
  have htop : c.msb = false := by
    have h0 := hbit 0 hw
    unfold step at h0
    cases hm : c.msb
    · rfl
    · simp [hm, hc] at h0
  apply BitVec.eq_of_getLsbD_eq
  intro i hi
  rw [BitVec.getLsbD_zero]
  by_cases hlast : i = w - 1
  · rw [hlast, ← BitVec.msb_eq_getLsbD_last, htop]
  · have hnext := hbit (i + 1) (by omega)
    unfold step at hnext
    simpa [htop, hi, show i + 1 < w by omega] using hnext

theorem eq_zero_of_steps (hc : poly.getLsbD 0 = true) {c : BitVec w} {n : ℕ}
    (h : steps poly n c = 0#w) : c = 0#w := by
  induction n with
  | zero => exact h
  | succ n ih => exact ih (eq_zero_of_step hc h)

/-- Up to the first wrong bit and behind the last the pattern does not matter. -/
theorem serial_window (hc : poly.getLsbD 0 = true) {i j : ℕ} {b : List Bool}
    (h : serial poly 0#w (List.replicate i false ++ b ++ List.replicate j false) = 0#w) :
    serial poly 0#w b = 0#w := by
  rw [serial_append, serial_append, serial_replicate_false, serial_replicate_false,
    steps_zero] at h
  exact eq_zero_of_steps hc h

/-- A window no wider than the remainder has the remainder zero only without wrong bits. -/
theorem Burst.serial_ne (h : Burst w err) (hc : poly.getLsbD 0 = true) :
    serial poly 0#w err ≠ 0#w := by
  obtain ⟨hwrong, i, b, j, rfl, hlen⟩ := h
  intro hzero
  have hb := serial_window hc hzero
  have hfill : (b ++ List.replicate (w - b.length) false).length = w := by
    rw [List.length_append, List.length_replicate, Nat.add_sub_cancel' hlen]
  obtain ⟨x, hx⟩ := exists_bits hfill
  have hx0 : x = 0#w := by
    apply eq_zero_of_steps hc (n := w)
    rw [← serial_zero_bits, hx, serial_append, hb, serial_replicate_false, steps_zero]
  have hclear : b ++ List.replicate (w - b.length) false = List.replicate w false := by
    rw [← hx, hx0]
    exact bits_zero w
  have hmem : true ∈ b ++ List.replicate (w - b.length) false := by
    simpa using hwrong
  rw [hclear] at hmem
  exact absurd (List.eq_of_mem_replicate hmem) (by decide)

/-- A shift moves the top bit out and a clear one in. -/
theorem msb_cons_bits (c : BitVec w) : c.msb :: bits (c <<< 1) = bits c ++ [false] := by
  apply List.ext_getElem (by simp [length_bits])
  intro i hi hi'
  have hle : i < w + 1 := by simpa [length_bits] using hi
  cases i with
  | zero =>
    rcases Nat.eq_zero_or_pos w with rfl | hw
    · simp [bits, BitVec.msb, BitVec.getMsbD]
    · simp [bits, hw, BitVec.msb]
  | succ i =>
    by_cases hlast : w = i + 1
    · subst hlast
      simp [bits]
    · have hlt : i + 1 < w := by omega
      simp [bits, hlt]

theorem parity_bits_shiftLeft (c : BitVec w) :
    parity (bits (c <<< 1)) = (parity (bits c) ^^ c.msb) := by
  have hparity : (c.msb ^^ parity (bits (c <<< 1))) = (parity (bits c) ^^ parity [false]) := by
    rw [← parity_append, ← msb_cons_bits]
    rfl
  cases hm : c.msb
  · simpa [hm, parity] using hparity
  · simpa [hm, parity] using congrArg not hparity

theorem parity_replicate_false (n : ℕ) : parity (List.replicate n false) = false := by
  induction n with
  | zero => rfl
  | succ n ih => exact (Bool.false_xor _).trans ih

/-- With an even number of terms the remainder keeps the parity of the message. -/
theorem parity_bitStep (hpoly : parity (bits poly) = true) (c : BitVec w) (b : Bool) :
    parity (bits (bitStep poly c b)) = (parity (bits c) ^^ b) := by
  have hzero : parity (bits 0#w) = false := (bits_zero w).symm ▸ parity_replicate_false w
  unfold bitStep
  rw [bits_xor, parity_flip (by rw [length_bits, length_bits]), parity_bits_shiftLeft]
  cases c.msb <;> cases b <;> simp [hpoly, hzero]

theorem parity_serial (hpoly : parity (bits poly) = true) (c : BitVec w) (msg : List Bool) :
    parity (bits (serial poly c msg)) = (parity (bits c) ^^ parity msg) := by
  induction msg generalizing c with
  | nil => simp [serial, parity]
  | cons b msg ih =>
    have hcons : serial poly c (b :: msg) = serial poly (bitStep poly c b) msg := rfl
    rw [hcons, ih, parity_bitStep hpoly, Bool.xor_assoc]
    rfl

theorem serial_ne_of_odd (hpoly : parity (bits poly) = true) (h : parity err = true) :
    serial poly 0#w err ≠ 0#w := by
  have hzero : parity (bits 0#w) = false := (bits_zero w).symm ▸ parity_replicate_false w
  intro hrem
  have hpar := parity_serial hpoly 0#w err
  rw [hrem, hzero, h] at hpar
  exact absurd hpar (by decide)

theorem exists_first {n : ℕ} (h : err.count true = n + 1) :
    ∃ i rest, err = List.replicate i false ++ true :: rest ∧ rest.count true = n := by
  induction err with
  | nil => exact absurd h (by simp)
  | cons b err ih =>
    cases b with
    | true => exact ⟨0, err, rfl, by simpa using h⟩
    | false =>
      obtain ⟨i, rest, rfl, hrest⟩ := ih (by simpa using h)
      exact ⟨i + 1, rest, rfl, hrest⟩

/-- Two wrong bits cancel only as far apart as the polynomial's order. -/
theorem serial_ne_of_pair (hgen : Generator poly reach) (h : err.count true = 2)
    (hlen : err.length ≤ reach) : serial poly 0#w err ≠ 0#w := by
  obtain ⟨i, rest, rfl, hrest⟩ := exists_first h
  obtain ⟨d, rest, rfl, hnone⟩ := exists_first hrest
  have hclear : rest = List.replicate rest.length false := by
    apply List.eq_replicate_of_mem
    intro b hb
    cases b with
    | false => rfl
    | true => exact absurd hnone (List.count_pos_iff.mpr hb).ne'
  have hone : bitStep poly 0#w true = poly := by simp [bitStep]
  intro hzero
  rw [show List.replicate i false ++ true :: (List.replicate d false ++ true :: rest) =
    List.replicate i false ++ (true :: (List.replicate d false ++ [true])) ++ rest by simp,
    hclear] at hzero
  have hwin := serial_window hgen.constant hzero
  have hsum : serial poly 0#w (true :: (List.replicate d false ++ [true])) =
      steps poly (d + 1) poly ^^^ poly := by
    change serial poly (bitStep poly 0#w true) _ = _
    rw [hone, serial_append, serial_replicate_false]
    have hxor := @bitStep_xor w poly (steps poly d poly) 0#w false true
    rw [BitVec.xor_zero, hone, bitStep_false] at hxor
    exact hxor
  rw [hsum, BitVec.xor_eq_zero_iff] at hwin
  have hlt : d + 1 < reach := by
    simp at hlen
    omega
  exact hgen.order (d + 1) (Nat.succ_pos d) hlt hwin

theorem Detectable.serial_ne (h : Detectable w reach err) (hgen : Generator poly reach) :
    serial poly 0#w err ≠ 0#w := by
  cases h with
  | burst h => exact h.serial_ne hgen.constant
  | odd h => exact serial_ne_of_odd hgen.even h
  | pair h hlen => exact serial_ne_of_pair hgen h hlen

/-- A message that passes does not pass with a detectable error. -/
theorem Detectable.serial_flip_ne (h : Detectable w reach err) (hgen : Generator poly reach)
    {init : BitVec w} {msg : List Bool} (hlen : msg.length = err.length)
    (hmsg : serial poly init msg = 0#w) : serial poly init (flip msg err) ≠ 0#w := by
  have hsplit := @serial_flip w poly msg err hlen init 0#w
  rw [BitVec.xor_zero, hmsg, BitVec.zero_xor] at hsplit
  rw [hsplit]
  exact h.serial_ne hgen

end YoctoLayers.Lib.Crc
